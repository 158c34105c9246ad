import Cassy.Delivery.Receipt
import Cassy.Notes.Markers

/-!
# 差し戻しと証明範囲の訂正

park した配達を検証の後から動かす二つの経路。どちらも最新の割り当てを無効化し、配達を
閉じた扱いにして task を `open` に戻す。

* `request_changes_for_parked_delivery` — 検証に落ちた配達を worker に差し戻す
* `correct_parked_delivery_proof_scope` とその二つの変種 — supervisor による対象の訂正

既に merge された配達をどう扱うかは、二つの経路がそれぞれ別の一覧で決めている。
-/

namespace Cassy

open Infra

namespace TaskDeliverables

/-- `retain_factory_branch_anchor_as_history`。 -/
def retainFactoryBranchAnchorAsHistory (d : TaskDeliverables) : TaskDeliverables :=
  match d.factoryBranchAnchor with
  | none => { d with integrationBatch := none }
  | some raw =>
    let anchor := String.ofList (trim raw.toList)
    let d := { d with integrationBatch := none, factoryBranchAnchor := none }
    if anchor = "" then d
    else { d with
      declinedFactoryBranchAnchors :=
        some (d.declinedFactoryBranchAnchors.getD d.historicalFactoryBranchAnchors)
      historicalFactoryBranchAnchors :=
        if d.historicalFactoryBranchAnchors.any fun known =>
          eqIgnoreAsciiCase known.toList anchor.toList
        then d.historicalFactoryBranchAnchors
        else d.historicalFactoryBranchAnchors ++ [anchor] }

/-- `decline_factory_branch_anchor`。 -/
def declineFactoryBranchAnchor (d : TaskDeliverables) : TaskDeliverables :=
  let kept := d.retainFactoryBranchAnchorAsHistory
  match d.factoryBranchAnchor.map fun raw => String.ofList (trim raw.toList) with
  | none => kept
  | some anchor =>
    if anchor = "" then kept
    else
      let declined := kept.declinedFactoryBranchAnchors.getD []
      { kept with
        declinedFactoryBranchAnchors := some
          (if declined.any fun known => eqIgnoreAsciiCase known.toList anchor.toList
          then declined else declined ++ [anchor]) }

/-- 差し戻しで落とす項目。古い配達の merge と PR は、次の close を認めない。 -/
def declined (d : TaskDeliverables) : TaskDeliverables :=
  { d.declineFactoryBranchAnchor with
    parkedBranch := none
    mergeConflicted := false
    greenMergeCommit := none
    mergeCiAdmission := none
    reviewEnvelope := none
    deliveryPrNumber := none
    deliveryPrMergeCommit := none
    deliveryPrMergedAt := none }

end TaskDeliverables

/-- 差し戻しが一つの取り込み元を認める。 -/
def authorizeMergeSource (supervisor : String) (d : TaskDeliverables) (source : String) :
    Except StoreError TaskDeliverables := do
  ensure ((source.utf8ByteSize = 40 ∨ source.utf8ByteSize = 64)
      ∧ source.toList.all isAsciiHexdigit)
    (.parse "merge_source requires a full immutable commit SHA")
  let workTarget ← okOr d.workTarget
    (.parse "merge_source requires a declared task work target")
  let commit := String.ofList (source.toList.map toAsciiLower)
  if d.authorizedMergeSources.any fun known =>
      known.commit = commit ∧ known.workTarget = workTarget then pure d
  else pure { d with
    authorizedMergeSources := d.authorizedMergeSources ++
      [{ commit, supervisorId := supervisor, workTarget }] }

/-- 差し戻された配達の証明がどこまで進んでいたか。 -/
inductive RequestChangesBoundary where
  | exact | unboundDelivery | merged | legacy
  deriving DecidableEq, Repr

structure RequestChangesOutcome where
  boundary : RequestChangesBoundary
  deliveryTransactionId : Option String
  dispatchId : Option String
  branchHandling : Text
  deriving DecidableEq, Repr

structure ProofScopeCorrectionOutcome where
  deliveryTransactionId : Option String
  dispatchId : Option String
  deriving DecidableEq, Repr

/-- `request_changes_audit_note`。`stamp` は `chrono` が時刻を書いた文字列。 -/
def requestChangesAuditNote (stamp reason branchHandling : Text) : Text :=
  '[' :: stamp ++ "] Decision: changes requested by supervisor. ".toList ++ reason
    ++ "\n\nBranch handling: ".toList ++ branchHandling

namespace ProofDb

variable (db : ProofDb)

/-! ## 差し戻し -/

/-- 最新の配達。receipt の受付時刻で並べる。 -/
def latestReceiptDelivery? (taskId : String) : Option WorkerDeliveryTransaction :=
  (firstBest (fun x y => decide (y.2 < x.2))
    (db.transactions.rows.filterMap fun t =>
      if t.taskId = taskId then (db.receipts.find? t.receiptId).map fun r => (t, r.createdAt)
      else none)).map Prod.fst

/-- `RequestChangesBoundary` の選択。 -/
def requestChangesBoundary (delivery : Option WorkerDeliveryTransaction)
    (dispatch : Option VerificationDispatch) : RequestChangesBoundary :=
  match delivery with
  | none => .legacy
  | some t =>
    if t.state = .merged then .merged
    else if t.state = .awaitingMerge ∧ (dispatch.any fun d => d.state = .resolved
        ∧ d.deliveryTransactionId = some t.id ∧ d.receiptId = some t.receiptId) then .exact
    else .unboundDelivery

/-- 決定の記録に残す、branch の扱い。 -/
def branchHandling (boundary : RequestChangesBoundary) (rejectedBranch : String) : Text :=
  if boundary = .merged then
    "prior commits are already merged into the target branch; the assigned worker must land corrective commits (including an explicit revert commit when requested) as new work.".toList
  else "prior commits remain on ".toList ++ rejectedBranch.toList
    ++ "; the assigned worker must add corrective commits (including an explicit revert commit when requested) before re-delivery.".toList

/-- 差し戻しが `changes_requested` に移す配達の状態。 -/
def isDeclinable : WorkerDeliveryState → Bool
  | .awaitingVerification | .awaitingMerge | .mergeAuthorized | .closeReady => true
  | _ => false

/-- 配達の状態を移し、event を残す。 -/
def moveDelivery (t : WorkerDeliveryTransaction) (taskId : String) (target : WorkerDeliveryState)
    (supervisor code errorDetail : String) (eventDetail : String) (rid : String) (now : Time)
    (raced : String) : Except StoreError ProofDb := do
  let p := fun t' : WorkerDeliveryTransaction =>
    decide (t'.id = t.id ∧ t'.taskId = taskId ∧ t'.state = t.state)
  ensure (db.transactions.count p = 1) (.parse raced)
  let db := db.updateTransactions p fun t' =>
    { t' with
      state := target, supervisorAgentId := some supervisor, lastErrorCode := some code
      lastErrorDetail := some errorDetail, updatedAt := now }
  db.appendEvent rid t.id target supervisor (some eventDetail) now

/-- 最新の割り当てがあれば無効化する。 -/
def invalidateLatest (dispatch : Option VerificationDispatch) (now cycleNow : Time)
    (failed : String) : Except StoreError ProofDb :=
  match dispatch with
  | none => .ok db
  | some active => db.invalidateDeclined active now cycleNow failed

/-- 差し戻す配達があれば `changes_requested` に移す。 -/
def declineDelivery (delivery : Option WorkerDeliveryTransaction) (taskId supervisor : String)
    (reason : String) (rid : String) (now : Time) : Except StoreError ProofDb :=
  match delivery.filter fun t => isDeclinable t.state with
  | none => .ok db
  | some t => db.moveDelivery t taskId .changesRequested supervisor "changes_requested" reason
      reason rid now "request_changes delivery transition raced"

/-- 差し戻しを受ける task か。 -/
def isParked (t : Task) (d : TaskDeliverables) (delivery : Option WorkerDeliveryTransaction) :
    Bool :=
  t.status = .awaitingMerge ∨ (t.status = .blocked
    ∧ (d.parkedBranch.isSome ∨ d.factoryBranchAnchor.isSome ∨ delivery.isSome))

/-- `request_changes_for_parked_delivery_with_merge_sources`。 -/
def requestChanges (taskId supervisor reason : String) (sourceCommits : List String)
    (stamp : Text) (rid : String) (now cycleNow : Time) :
    Except StoreError (RequestChangesOutcome × ProofDb) := do
  let reason' := trim reason.toList
  let reason := String.ofList reason'
  ensure (reason' ≠ []) (.parse "request_changes requires a non-empty supervisor reason")
  ensure (nonBlank supervisor) (.parse "request_changes requires an authenticated supervisor")
  let dispatch := db.latestDispatch? taskId
  let delivery := db.latestReceiptDelivery? taskId
  let boundary := requestChangesBoundary delivery dispatch
  let task ← okOr (db.base.tasks.find? taskId) (.taskNotFound taskId)
  let stored ← okOr task.deliverables (.parse "invalid task deliverables")
  -- 取り込み元は一つずつ検査し、一つでも落ちれば何も書かない。
  let deliverables ← sourceCommits.foldlM (authorizeMergeSource supervisor) stored
  let status := task.status.toString
  ensure (isParked task deliverables delivery) (.parse
    s!"request_changes requires awaiting_merge or blocked with a recorded parked delivery, found {status}")
  let handling := branchHandling boundary (deliverables.parkedBranch.getD "the factory branch")
  let note := requestChangesAuditNote stamp reason' handling
  let notes := if task.notes.isEmpty then note else task.notes ++ '\n' :: '\n' :: note
  let db ← db.invalidateLatest dispatch now cycleNow
    "request_changes could not invalidate the declined delivery proof"
  let db ← db.declineDelivery delivery taskId supervisor reason rid now
  let current := fun t : Task => decide (t.id = taskId ∧ t.status = task.status)
  ensure (db.base.tasks.count current = 1) (.parse "request_changes task transition raced")
  let tasks := db.base.tasks.update current fun t =>
    { t with
      status := .open, notes := neutralizeNewMarkers notes (some task.notes)
      deliverables := some deliverables.declined, pendingVerification := false
      pendingWorktreeMerge := false, updatedAt := now }
  pure ({ boundary, deliveryTransactionId := delivery.map (·.id)
          dispatchId := dispatch.map (·.id), branchHandling := handling },
    { db with base := { db.base with tasks } })

/-! ## 証明範囲の訂正 -/

/-- 最新の配達。transaction の作成時刻で並べる。 -/
def latestDelivery? (taskId : String) : Option WorkerDeliveryTransaction :=
  firstBest (fun t t' => decide (t'.createdAt < t.createdAt))
    (db.transactions.rows.filter fun t => t.taskId = taskId)

/-- merge の事実が記録された状態。 -/
def isMergedState : WorkerDeliveryState → Bool
  | .merged | .closeReady => true
  | _ => false

/-- 訂正の引数。`task` は書き込む task の全体、`deliverables` はその項目。 -/
structure ProofScopeCorrection where
  task : Task
  deliverables : TaskDeliverables
  expectedUpdatedAt : Time
  supervisorAgentId : String
  reason : String

/-- 対象の branch への merge が観測されているか。 -/
def observedWorkTargetMerge (c : ProofScopeCorrection) : Bool :=
  match c.deliverables.workTarget with
  | none => false
  | some target => db.observedMerges.any fun m =>
      m.taskId = c.task.id ∧ m.targetBranch = target.targetBranch
        ∧ c.deliverables.factoryBranchAnchor.all fun anchor => m.sourceCommitSha = anchor

/-- 配達を `stale` に移す。merge の事実は、許されていれば残す。 -/
def staleDelivery (delivery : Option WorkerDeliveryTransaction) (c : ProofScopeCorrection)
    (allowMerged : Bool) (rid : String) : Except StoreError ProofDb :=
  match delivery with
  | none => .ok db
  | some t => do
    ensure (t.state ≠ .delivered)
      (.parse "proof-scope correction cannot rewrite a delivered transaction")
    let reason := String.ofList (trim c.reason.toList)
    -- merge の事実は書き換えない。`close_ready` も merge の後の状態である。
    if t.state = .stale ∨ (isMergedState t.state ∧ allowMerged) then pure db
    else
      db.moveDelivery t c.task.id .stale c.supervisorAgentId "proof_scope_corrected" reason
        ("proof scope corrected: " ++ reason) rid c.task.updatedAt
        "proof-scope correction delivery transition raced"

/-- 訂正を受ける task か。 -/
def isCorrectable (c : ProofScopeCorrection) (t : Task) : Bool :=
  t.id = c.task.id ∧ (t.status = .awaitingMerge ∨ t.status = .inProgress ∨ t.status = .blocked)
    ∧ t.updatedAt = c.expectedUpdatedAt

/-- `correct_parked_delivery_proof_scope_inner`。 -/
def correctProofScopeInner (c : ProofScopeCorrection) (allowMerged requireMerged : Bool)
    (rid : String) (now : Time) : Except StoreError (ProofScopeCorrectionOutcome × ProofDb) := do
  ensure (nonBlank c.reason ∧ nonBlank c.supervisorAgentId) (.parse
    "proof-scope correction requires an authenticated supervisor and non-empty reason")
  let dispatch := db.latestDispatch? c.task.id
  let delivery := db.latestDelivery? c.task.id
  let recorded := delivery.any fun t => isMergedState t.state
  -- 三つの訂正は、merge の事実を残すか、求めるかだけが違う。
  ensure (requireMerged → recorded ∨ db.observedWorkTargetMerge c) (.other
    "proof correction requires a merged or close-ready delivery transaction or an authenticated merge observation on the task's WorkTarget")
  ensure (allowMerged ∨ ¬ recorded) (.parse
    "proof-scope correction cannot rewrite a merged delivery transaction; the merge is an immutable delivery fact")
  let db ← db.invalidateLatest dispatch now now
    "proof-scope correction could not invalidate the stale dispatch"
  let db ← db.staleDelivery delivery c allowMerged rid
  let prior ← okOr (db.base.tasks.find? c.task.id) (.database "Query returned no rows")
  ensure (db.base.tasks.count (isCorrectable c) = 1) (.other
    "proof-scope correction requires the unchanged AwaitingMerge, InProgress, or Blocked task")
  let tasks := db.base.tasks.update (isCorrectable c) fun t =>
    { t with
      status := .open, notes := neutralizeNewMarkers c.task.notes (some prior.notes)
      deliverables := some c.deliverables, proofTargets := c.task.proofTargets
      risk := c.task.risk, pendingVerification := false, pendingWorktreeMerge := false
      updatedAt := c.task.updatedAt, executionNote := c.task.executionNote
      externalRef := c.task.externalRef }
  pure ({ deliveryTransactionId := delivery.map (·.id), dispatchId := dispatch.map (·.id) },
    { db with base := { db.base with tasks } })

/-- `correct_parked_delivery_proof_scope`。 -/
def correctProofScope (c : ProofScopeCorrection) (rid : String) (now : Time) :
    Except StoreError (ProofScopeCorrectionOutcome × ProofDb) :=
  db.correctProofScopeInner c false false rid now

/-- `correct_parked_delivery_proof_targets`。 -/
def correctProofTargets (c : ProofScopeCorrection) (rid : String) (now : Time) :
    Except StoreError (ProofScopeCorrectionOutcome × ProofDb) :=
  db.correctProofScopeInner c true true rid now

/-- `correct_parked_delivery_execution_note`。 -/
def correctExecutionNote (c : ProofScopeCorrection) (rid : String) (now : Time) :
    Except StoreError (ProofScopeCorrectionOutcome × ProofDb) :=
  db.correctProofScopeInner c true false rid now

end ProofDb

end Cassy
