import Mathlib.Data.List.Sort
import Cassy.Prompt.Stamp

/-!
# 次に渡す伝言を選ぶ

`peek_for_targets`。session の付いた伝言の列と、付かない古い伝言の列を別々に読み、合わせて `limit` 行を選ぶ。

* 列の中 — 優先順位、宛先ごとの順番、番号の順に並べて頭から取る
* 二つの列の間 — 優先順位の高い方から帯ごとに、session の列に半分（端数を含む）、古い列に残りの枠を与える。余った枠は
  もう一方に回す

選べる行の条件は `peekable` である。
-/

namespace Cassy

open Infra

namespace PromptDb

/-! ## 列 -/

/-- session の列。session の無い呼び出しでは、選べる行の全部がこの列に入る。 -/
def sessionLane (db : PromptDb) (now : Time) (targets : List String) (session : Option String) :
    List PromptRow :=
  db.rows.filter fun r =>
    db.peekable now targets session r && (session.isNone || r.factorySession = session)

/-- session の無い、古い伝言の列。 -/
def legacyLane (db : PromptDb) (now : Time) (targets : List String) (session : Option String) :
    List PromptRow :=
  db.rows.filter fun r =>
    db.peekable now targets session r && session.isSome && r.factorySession.isNone

end PromptDb

/-- `ROW_NUMBER() OVER (PARTITION BY target, priority ORDER BY id)`。宛先と優先順位の同じ行の中での順番。 -/
def targetRank (rows : List PromptRow) (r : PromptRow) : Nat :=
  (rows.filter fun x => x.target = r.target && x.priority = r.priority && x.id ≤ r.id).length

/-- `ORDER BY priority, cas_target_rn, id`。 -/
def laneOrder (rows : List PromptRow) (a b : PromptRow) : Prop :=
  a.priority.toNat < b.priority.toNat
    ∨ a.priority.toNat = b.priority.toNat
      ∧ (targetRank rows a < targetRank rows b
        ∨ targetRank rows a = targetRank rows b ∧ a.id ≤ b.id)

instance (rows : List PromptRow) : DecidableRel (laneOrder rows) := fun a b => by
  unfold laneOrder
  infer_instance

/-- 並べた列。 -/
def sortLane (rows : List PromptRow) : List PromptRow := rows.insertionSort (laneOrder rows)

/-- `query_lane`。 -/
def queryLane (rows : List PromptRow) (limit : Nat) : List PromptRow := (sortLane rows).take limit

/-! ## 合わせる -/

/-- `fair_quota_same_priority`。 -/
def fairQuotaSamePriority (session legacy : List PromptRow) (limit : Nat) : List PromptRow :=
  if limit = 0 then []
  else if session.isEmpty then legacy.take limit
  else if legacy.isEmpty then session.take limit
  else
    let sTake := min ((limit + 1) / 2) session.length
    let lTake := min (limit / 2) legacy.length
    -- 使わない枠をもう一方に回す。足りている枠には余りが無い。
    let sTake' := sTake + min (session.length - sTake) (limit - (sTake + lTake))
    let lTake' := lTake + min (legacy.length - lTake) (limit - sTake' - lTake)
    (session.take sTake' ++ legacy.take lTake').insertionSort fun a b => a.id ≤ b.id

/-- 二つの列の頭の、高い方の優先順位。 -/
def nextPriority : List PromptRow → List PromptRow → Option NotificationPriority
  | s :: _, l :: _ =>
    some (if s.priority.toNat ≤ l.priority.toNat then s.priority else l.priority)
  | s :: _, [] => some s.priority
  | [], l :: _ => some l.priority
  | [], [] => none

/-- 優先順位の帯ごとに選ぶ。一巡りで少なくとも一行が列から減る。 -/
def mergeBands : Nat → List PromptRow → List PromptRow → Nat → List PromptRow
  | 0, _, _, _ => []
  | fuel + 1, session, legacy, remaining =>
    if remaining = 0 then []
    else match nextPriority session legacy with
      | none => []
      | some p =>
        let band := fairQuotaSamePriority (session.takeWhile fun r => r.priority = p)
          (legacy.takeWhile fun r => r.priority = p) remaining
        band ++ mergeBands fuel (session.dropWhile fun r => r.priority = p)
          (legacy.dropWhile fun r => r.priority = p) (remaining - band.length)

/-- `merge_two_lane_peeks`。 -/
def mergeTwoLanePeeks (session legacy : List PromptRow) (limit : Nat) : List PromptRow :=
  if limit = 0 then []
  else if session.isEmpty then legacy.take limit
  else if legacy.isEmpty then session.take limit
  else mergeBands (session.length + legacy.length) session legacy limit

/-- `peek_for_targets`。 -/
def PromptDb.peekForTargets (db : PromptDb) (now : Time) (targets : List String)
    (session : Option String) (limit : Nat) : Except StoreError (List PromptRow) := do
  ensure (targets ≠ [])
    (.other "peek_for_targets requires at least one target; session-wide peeks are not supported")
  if limit = 0 then .ok []
  else match session with
    | none => .ok (queryLane (db.sessionLane now targets none) limit)
    | some _ =>
      .ok (mergeTwoLanePeeks (queryLane (db.sessionLane now targets session) limit)
        (queryLane (db.legacyLane now targets session) limit) limit)

end Cassy
