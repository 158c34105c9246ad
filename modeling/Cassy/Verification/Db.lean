import Cassy.Store.Db
import Cassy.Verification.Types

/-!
# 検証と配達の表

調整用の表 `Db` に検証と配達の表を加えた状態と、文ひとつ分の読み書き。

主キーの外に、SQLite の一意索引が四つある。

* task ごとに `pending` か `claimed` の割り当ては一つ
* 発行者ごとに `pending` の handoff は一つ
* receipt ごとに配達の transaction は一つ
* transaction と状態の組ごとに配達の event は一つ

どれも挿入と、索引に入る向きの更新で検査される。
-/

namespace Cassy

open Infra

/-- 検証と配達まで含めた database。 -/
structure ProofDb where
  base : Db := {}
  verifications : Table Verification.id := .empty
  dispatches : Table VerificationDispatch.id := .empty
  capabilities : Table VerifierCapability.id := .empty
  handoffs : Table VerifierHandoff.capabilityId := .empty
  receipts : Table WorkerCompletionReceipt.id := .empty
  transactions : Table WorkerDeliveryTransaction.id := .empty
  events : Table WorkerDeliveryEvent.id := .empty
  observedMerges : List ObservedDeliveryMerge := []

/-- 一意索引に触れたときの SQLite の誤り。 -/
def uniqueFailed (column : String) : StoreError :=
  .database ("UNIQUE constraint failed: " ++ column)

/-- `ORDER BY … LIMIT 1`。並びの先頭に立つ行で、同順位なら先に読む行。 -/
def firstBest {α : Type} (better : α → α → Bool) : List α → Option α
  | [] => none
  | a :: rest =>
    match firstBest better rest with
    | none => some a
    | some b => if better b a then some b else some a

theorem firstBest_mem {α : Type} {better : α → α → Bool} :
    ∀ {l : List α} {a : α}, firstBest better l = some a → a ∈ l
  | [], _, h => by simp [firstBest] at h
  | x :: rest, a, h => by
    unfold firstBest at h
    split at h
    · rw [← Option.some.inj h]
      exact List.mem_cons_self
    · next b hb =>
      split at h
      · rw [← Option.some.inj h]
        exact List.mem_cons_of_mem _ (firstBest_mem hb)
      · rw [← Option.some.inj h]
        exact List.mem_cons_self

namespace ProofDb

variable (db : ProofDb)

/-! ## 割り当ての読み書き -/

/-- `ORDER BY requested_at DESC, id DESC`。 -/
def newerDispatch (d d' : VerificationDispatch) : Bool :=
  d'.requestedAt < d.requestedAt ∨ (d.requestedAt = d'.requestedAt ∧ d'.id < d.id)

/-- `get_latest_verification_dispatch_with_conn`。 -/
def latestDispatch? (taskId : String) : Option VerificationDispatch :=
  firstBest newerDispatch (db.dispatches.rows.filter fun d => d.taskId = taskId)

/-- `get_verification_dispatch_with_conn`。 -/
def getDispatch (id : String) : Except StoreError VerificationDispatch :=
  okOr (db.dispatches.find? id) (.notFound "verification dispatch")

/-- `UPDATE verification_dispatches SET … WHERE id = ? AND …`。 -/
def updateDispatch (id : String) (p : VerificationDispatch → Bool)
    (f : VerificationDispatch → VerificationDispatch)
    (hf : ∀ d, (f d).id = d.id := by exact fun _ => rfl) : ProofDb :=
  { db with dispatches := db.dispatches.update (fun d => d.id = id && p d) f hf }

/-- その文が書き換える割り当ての数。 -/
def countDispatch (id : String) (p : VerificationDispatch → Bool) : Nat :=
  db.dispatches.count fun d => d.id = id && p d

/-- `id` の外に、task の `pending` か `claimed` の割り当てがあるか。 -/
def hasOtherActive (taskId id : String) : Bool :=
  db.dispatches.rows.any fun d => d.taskId = taskId ∧ d.id ≠ id ∧ d.state.isActive

/-- 割り当てを挿す。 -/
def insertDispatch (d : VerificationDispatch) : Except StoreError ProofDb := do
  ensure (d.state.isActive → ¬ db.hasOtherActive d.taskId d.id)
    (uniqueFailed "verification_dispatches.task_id")
  let dispatches ← okOr (db.dispatches.insert? d) (uniqueFailed "verification_dispatches.id")
  pure { db with dispatches }

/-! ## 権限の読み書き -/

/-- `load_capability_with_conn`。 -/
def loadCapability (id : String) : Except StoreError VerifierCapability :=
  okOr (db.capabilities.find? id) (.notFound "verifier capability")

/-- `UPDATE verification_capabilities SET … WHERE …`。 -/
def updateCapabilities (p : VerifierCapability → Bool)
    (f : VerifierCapability → VerifierCapability)
    (hf : ∀ c, (f c).id = c.id := by exact fun _ => rfl) : ProofDb :=
  { db with capabilities := db.capabilities.update p f hf }

/-- `UPDATE verification_handoffs SET … WHERE …`。 -/
def updateHandoffs (p : VerifierHandoff → Bool) (f : VerifierHandoff → VerifierHandoff)
    (hf : ∀ h, (f h).capabilityId = h.capabilityId := by exact fun _ => rfl) : ProofDb :=
  { db with handoffs := db.handoffs.update p f hf }

/-- 権限を使用済みにする。既に使用済みなら時刻は変えない（`COALESCE`）。 -/
def retireCapability (now : Time) (c : VerifierCapability) : VerifierCapability :=
  { c with consumedAt := c.consumedAt.or (some now) }

/-- handoff を使用済みにする。 -/
def retireHandoff (now : Time) (h : VerifierHandoff) : VerifierHandoff :=
  { h with state := .consumed, consumedAt := h.consumedAt.or (some now) }

/-- 束縛前の権限を消す。外部キーの `ON DELETE CASCADE` で handoff の行も消える。 -/
def deleteUnboundCapability (id : String) : ProofDb :=
  let gone := fun c : VerifierCapability =>
    decide (c.id = id ∧ c.verifierAgentId = none ∧ c.consumedAt = none)
  { db with
    capabilities := db.capabilities.delete gone
    handoffs := db.handoffs.delete fun h =>
      (db.capabilities.find? h.capabilityId).any gone }

/-- handoff と、それが指す権限の組を走査する。 -/
def joinedHandoffs (p : VerifierHandoff → VerifierCapability → Bool) : List VerifierHandoff :=
  db.handoffs.rows.filter fun h => (db.capabilities.find? h.capabilityId).any (p h)

/-! ## 索引の無い表の枠 -/

end ProofDb

end Cassy
