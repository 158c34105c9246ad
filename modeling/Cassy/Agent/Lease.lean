import Mathlib.Algebra.Ring.Nat
import Mathlib.Data.List.Sort
import Cassy.Store.Db

/-!
# task の lease

`agent_store/ops_task_leases.rs` の操作。task ごとの lease は一行で、取り直されるたびに
`epoch` が一つ進む。書き込みは一つの `BEGIN IMMEDIATE` の中で行われるので、操作の本体を
「落ちるか、結果と次の表を返すか」の関数として書く。例外は `reclaim_expired_leases` で、
これは transaction を張らずに文を並べている。そのため文ごとの関数に分けて置く。

`agents(id)` への外部キーは有効である。登録の無い agent に lease を渡す文は落ちる。
-/

namespace Cassy

open Infra

namespace Db

variable (db : Db)

/-- `SELECT … FROM task_leases WHERE task_id = ? AND status = 'active'`。 -/
def activeLease? (taskId : String) : Option TaskLease :=
  (db.taskLeases.find? taskId).filter fun l => l.status = .active

/-- `UPDATE task_leases SET status = ? WHERE …`。 -/
def setLeaseStatus (p : TaskLease → Bool) (status : LeaseStatus) : Db :=
  { db with taskLeases := db.taskLeases.update p fun l => { l with status } }

/-! ## 取得 -/

/--
有効な lease を横取りできるか。

できるのは、握っているのが自分の親のときだけである。
-/
def canTakeover (agentId heldBy : String) : Bool :=
  heldBy ≠ agentId ∧ (db.agents.find? agentId).any fun a => a.parentId = some heldBy

/-- 親から横取りするときの、親の側の後始末。 -/
def transferLease (taskId heldBy agentId : String) (epoch : UInt64) : Db :=
  (db.decrementActiveTasks heldBy 1).logLeaseEvent
    { taskId, agentId := heldBy, eventType := .transferred, epoch
      details := some
        ("\x7b\"to_agent\":\"" ++ agentId ++ "\",\"reason\":\"worker_takeover\"\x7d")
      previousAgentId := some agentId }

/-- 取得の後半。`agents.active_tasks` を進め、履歴を残す。 -/
def recordClaim (lease : TaskLease) : Db :=
  (db.incrementActiveTasks lease.agentId).logLeaseEvent
    { taskId := lease.taskId, agentId := lease.agentId, eventType := .claimed
      epoch := lease.epoch
      details := lease.claimReason.map fun r => "\x7b\"reason\":\"" ++ r ++ "\"\x7d" }

/-- `try_claim` が書く行。 -/
def claimedLease (taskId agentId : String) (durationSecs : Int) (reason : Option String)
    (now : Time) (epoch : UInt64) : TaskLease where
  taskId
  agentId
  status := .active
  acquiredAt := now
  expiresAt := now + seconds durationSecs
  renewedAt := now
  renewalCount := 0
  epoch
  claimReason := reason

/-- lease がまだ有効か。 -/
def leaseValid (now : Time) (l : TaskLease) : Bool := l.status = .active ∧ now < l.expiresAt

/-- `lease_try_claim`。 -/
def tryClaim (taskId agentId : String) (durationSecs : Int) (reason : Option String)
    (now : Time) : Except StoreError (ClaimResult × Db) :=
  match db.taskLeases.find? taskId with
  | some held =>
    if leaseValid now held ∧ ¬ db.canTakeover agentId held.agentId then
      .ok (.alreadyClaimed taskId held.agentId held.expiresAt, db)
    else do
      let db₁ := if leaseValid now held
        then db.transferLease taskId held.agentId agentId held.epoch else db
      -- 行を書き換える文の外部キー検査
      ensure (db₁.agents.find? agentId).isSome foreignKeyFailed
      let lease := claimedLease taskId agentId durationSecs reason now (held.epoch + 1)
      let db₂ := { db₁ with
        taskLeases := db₁.taskLeases.update (fun l => l.taskId = taskId)
          fun l => { lease with taskId := l.taskId } }
      pure (.success lease, db₂.recordClaim lease)
  | none => do
    ensure (db.agents.find? agentId).isSome foreignKeyFailed
    let lease := claimedLease taskId agentId durationSecs reason now 1
    let leases ← okOr (db.taskLeases.insert? lease) (.database "UNIQUE constraint failed")
    pure (.success lease, { db with taskLeases := leases }.recordClaim lease)

/-! ## 解放 -/

/-- 一つの有効な lease を解放する。三つの解放操作が共有する後半である。 -/
def releaseRow (taskId agentId : String) (epoch : UInt64) (reason : Option String) : Db :=
  (db.decrementActiveTasks agentId 1).logLeaseEvent
    { taskId, agentId, eventType := .released, epoch, reason }

/-- `lease_release_lease`。 -/
def releaseLease (taskId agentId : String) : Except StoreError (Unit × Db) :=
  match db.activeLease? taskId with
  | some l =>
    if l.agentId = agentId then
      .ok ((), (db.setLeaseStatus (fun l => l.taskId = taskId) .released).releaseRow
        taskId agentId l.epoch none)
    else .error (.parse s!"Task {taskId} is not owned by agent {agentId}")
  | none => .error (.notFound s!"No active lease found for task {taskId}")

/-- `lease_release_lease_for_task`。 -/
def releaseLeaseForTask (taskId reason : String) : Except StoreError (Bool × Db) :=
  match db.activeLease? taskId with
  | some l =>
    .ok (true, (db.setLeaseStatus (fun l => l.taskId = taskId) .released).releaseRow
      taskId l.agentId l.epoch (some reason))
  | none => .ok (false, db)

/-- `lease_release_lease_if_owner_epoch` の `UPDATE` が選ぶ行。 -/
def ownedAt (taskId agentId : String) (epoch : UInt64) (l : TaskLease) : Bool :=
  l.taskId = taskId ∧ l.agentId = agentId ∧ l.status = .active ∧ l.epoch = epoch

/-- `lease_release_lease_if_owner_epoch`。 -/
def releaseLeaseIfOwnerEpoch (taskId agentId : String) (epoch : UInt64) (reason : String) :
    Except StoreError (Bool × Db) :=
  if db.taskLeases.count (ownedAt taskId agentId epoch) = 0 then .ok (false, db)
  else
    .ok (true, (db.setLeaseStatus (ownedAt taskId agentId epoch) .released).releaseRow
      taskId agentId epoch (some reason))

/-! ## 更新 -/

/-- `registered_at` の新しい順に並べた agent。 -/
def identities : List Agent :=
  db.agents.rows.insertionSort fun a b => b.registeredAt ≤ a.registeredAt

/-- 担当者の記名を agent に引き当てる。id を名前より優先する。 -/
def resolveIdentity (token : Text) : Option Agent :=
  (db.identities.find? fun a => eqIgnoreAsciiCase a.id.toList token).or
    (db.identities.find? fun a => eqIgnoreAsciiCase a.name.toList token)

/-- `lease_from_row` が読む世代。負の `i64` は 0 に丸められる。 -/
def epochFromRow (epoch : UInt64) : UInt64 := if epoch.toNat < 2 ^ 63 then epoch else 0

/-- 行が延長してよい lease か。 -/
def renewable (agentId : String) (l : TaskLease) : Bool :=
  l.agentId = agentId ∧ l.status = .active
    ∧ (db.agents.find? l.agentId).any (fun a => a.status.isLive)
    ∧ (db.tasks.find? l.taskId).any fun t => t.status = .inProgress
      ∧ t.assignee.any fun assignee =>
        let token := trim assignee.toList
        ¬ token.isEmpty
          ∧ (db.resolveIdentity token).any fun a =>
            eqIgnoreAsciiCase a.id.toList agentId.toList

/-- `renewable_task_leases`。 -/
def renewableTaskLeases (agentId : String) : List TaskLease :=
  (db.taskLeases.rows.filter (db.renewable agentId)).map fun l =>
    { l with epoch := epochFromRow l.epoch }

/-- 一つの lease を延長する `UPDATE`。 -/
def renewRow (taskId agentId : String) (epoch : UInt64) (expiresAt now : Time) : Db :=
  { db with
    taskLeases := db.taskLeases.update (ownedAt taskId agentId epoch) fun l =>
      { l with expiresAt, renewedAt := now, renewalCount := l.renewalCount + 1 } }

/-- `lease_renew_lease`。 -/
def renewLease (taskId agentId : String) (durationSecs : Int) (now : Time) :
    Except StoreError (Unit × Db) := do
  let lease ← okOr ((db.renewableTaskLeases agentId).find? fun l => l.taskId = taskId)
    (.notFound s!"No renewable lease for task {taskId}: {agentId} must be live and assigned to its in-progress task")
  let secs := toString durationSecs
  pure ((), (db.renewRow taskId agentId lease.epoch (now + seconds durationSecs) now).logLeaseEvent
    { taskId, agentId, eventType := .renewed, epoch := lease.epoch
      details := some ("\x7b\"duration_secs\":" ++ secs ++ "\x7d") })

/-! ## 期限切れの回収

`lease_reclaim_expired_leases` は次の文をこの順に流す。

1. 期限の切れた lease を読む
2. 同じ条件で `expired` に移す
3. 読んだ結果から agent ごとの数を数え、その分だけ `active_tasks` を減らす
4. 読んだ結果を一つずつ履歴に残す
-/

/-- 期限が切れているのに `active` のままの行。 -/
def isExpired (now : Time) (l : TaskLease) : Bool := l.status = .active ∧ l.expiresAt < now

/-- 1 の `SELECT`。 -/
def expiredLeases (now : Time) : List TaskLease := db.taskLeases.rows.filter (isExpired now)

/-- 2 の `UPDATE`。 -/
def expireLeases (now : Time) : Db := db.setLeaseStatus (isExpired now) .expired

/-- 3 の集計。agent ごとの期限切れの数。 -/
def agentCounts (expired : List TaskLease) : List (String × Nat) :=
  (expired.map TaskLease.agentId).dedup.map fun id =>
    (id, expired.countP fun l => l.agentId = id)

/-- 4 で残す履歴。 -/
def expiredEntry (l : TaskLease) : LeaseHistoryEntry where
  taskId := l.taskId
  agentId := l.agentId
  eventType := .expired
  epoch := l.epoch

/-- 間に何も割り込まないときの `lease_reclaim_expired_leases`。 -/
def reclaimExpiredLeases (now : Time) : Except StoreError (Nat × Db) :=
  let expired := db.expiredLeases now
  let db₁ := db.expireLeases now
  let db₂ := (agentCounts expired).foldl (fun db c => db.decrementActiveTasks c.1 c.2) db₁
  .ok (expired.length, expired.foldl (fun db l => db.logLeaseEvent (expiredEntry l)) db₂)

end Db

end Cassy
