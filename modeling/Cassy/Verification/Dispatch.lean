import Cassy.Verification.Db

/-!
# 検証の割り当て

`verification_store.rs` の、`verification_dispatches` を動かす関数。状態は

* `pending` → `claimed` → `resolved`
* `pending`・`claimed` → `timed_out`
* どこからでも → `invalidated`

と動くが、例外が二つある。孤児の引き取りは `pending` に戻し、merge 前の検証者の遅れた判定は
`timed_out` を `claimed` に戻す（後者は `Capability` にある）。

時計の読みと乱数は引数に取る。一つの関数が時計を何度か読むときは、読みの数だけ引数がある。
-/

namespace Cassy

open Infra

namespace ProofDb

variable (db : ProofDb)

/-! ## 作成と確保 -/

/-- 既にある割り当てが、求められたものと同じ対象か。 -/
def sameCycle (existing : VerificationDispatch) (requester owner : String)
    (boundary : VerificationProofBoundary) : Bool :=
  existing.requesterAgentId = requester ∧ existing.ownerAgentId = owner
    ∧ existing.receiptId = boundary.receiptId
    ∧ existing.deliveryTransactionId = boundary.deliveryTransactionId
    ∧ existing.repository = boundary.repository

/-- 新しい割り当て。 -/
def newDispatch (taskId requester owner : String) (boundary : VerificationProofBoundary)
    (deadlineAt : Time) (rid : String) (requestedAt : Time) : VerificationDispatch where
  id := "vdispatch-" ++ rid
  taskId
  receiptId := boundary.receiptId
  deliveryTransactionId := boundary.deliveryTransactionId
  repository := boundary.repository
  requesterAgentId := requester
  ownerAgentId := owner
  verifierAgentId := none
  capabilityId := none
  state := .pending
  requestedAt
  deadlineAt
  resolvedAt := none

/-- 最新の割り当てが、新しく作ることを妨げないか。 -/
def dispatchBlocked (latest : Option VerificationDispatch) (supervisorRecovery : Bool) :
    Except StoreError Unit :=
  match latest with
  | none => .ok ()
  | some existing =>
    let id := existing.id
    if existing.state.isActive then .error (.verificationDispatchConflict id)
    else if existing.state = .timedOut ∧ ¬ supervisorRecovery then
      .error (.parse
        s!"verification dispatch {id} timed out; registered-supervisor recovery must name it")
    else .ok ()

/-- 既にある同じ割り当てを返してよいか。 -/
def reusableDispatch? (taskId requester owner : String) (boundary : VerificationProofBoundary) :
    Option VerificationDispatch :=
  (db.latestDispatch? taskId).filter fun existing =>
    existing.state.isActive && sameCycle existing requester owner boundary

/-- `create_verification_dispatch_bound_in_transaction`。 -/
def createDispatch (taskId requester owner : String) (boundary : VerificationProofBoundary)
    (deadlineAt : Time) (supervisorRecovery : Bool) (rid : String) (requestedAt : Time) :
    Except StoreError (VerificationDispatch × ProofDb) :=
  match db.reusableDispatch? taskId requester owner boundary with
  | some existing => .ok (existing, db)
  | none => do
    dispatchBlocked (db.latestDispatch? taskId) supervisorRecovery
    let d := newDispatch taskId requester owner boundary deadlineAt rid requestedAt
    let db ← db.insertDispatch d
    pure (d, db)

/-- `claim_verification_dispatch_bound`。権限の行は確かめない。 -/
def claimDispatchBound (dispatchId owner verifier capabilityId : String) (now : Time) :
    Except StoreError (VerificationDispatch × ProofDb) := do
  let due := fun d : VerificationDispatch =>
    decide (d.ownerAgentId = owner ∧ d.state = .pending ∧ now < d.deadlineAt)
  ensure (db.countDispatch dispatchId due = 1)
    (.parse "verification dispatch cannot be claimed by this owner/verifier")
  let db := db.updateDispatch dispatchId due fun d =>
    { d with verifierAgentId := some verifier, capabilityId := some capabilityId, state := .claimed }
  let d ← db.getDispatch dispatchId
  pure (d, db)

/-! ## 判定 -/

/-- 同じ transaction で使用済みにした server の handoff が、最新の割り当てのものか。 -/
def consumedCurrentServer (dispatch : VerificationDispatch) (verifier : String)
    (capabilityId : Option String) : Bool :=
  match capabilityId.filter fun id => "vhnd-".toList.isPrefixOf id.toList with
  | none => false
  | some id =>
    ((db.handoffs.find? id).any fun h =>
        (db.capabilities.find? id).any fun c =>
          c.dispatchId = some dispatch.id ∧ c.verifierAgentId = some verifier
            ∧ c.consumedAt.isSome ∧ h.state = .consumed ∧ h.verifierAgentId = some verifier
            ∧ h.consumedAt.isSome)
      && (db.latestDispatch? dispatch.taskId).any fun current => current.id = dispatch.id

/-- 判定を書いてよいか。 -/
def resolveAuthorized (dispatch : VerificationDispatch) (verifier : String)
    (capabilityId : Option String) (supervisorDirect : Bool) (now : Time) : Bool :=
  match capabilityId with
  | some id =>
    dispatch.state = .claimed
      ∧ (now < dispatch.deadlineAt ∨ db.consumedCurrentServer dispatch verifier capabilityId)
      ∧ dispatch.verifierAgentId = some verifier ∧ dispatch.capabilityId = some id
  | none =>
    supervisorDirect ∧ (dispatch.state = .pending ∨ dispatch.state = .claimed
      ∨ dispatch.state = .timedOut)

/-- 判定の対象になる状態。 -/
def isUnresolved (d : VerificationDispatch) : Bool :=
  d.state = .pending ∨ d.state = .claimed ∨ d.state = .timedOut

/-- `resolve_verification_dispatch_with_conn`。 -/
def resolveDispatch (dispatchId verifier : String) (capabilityId : Option String)
    (supervisorDirect : Bool) (now : Time) :
    Except StoreError (VerificationDispatch × ProofDb) := do
  let dispatch ← db.getDispatch dispatchId
  ensure (db.resolveAuthorized dispatch verifier capabilityId supervisorDirect now)
    (.parse "verification dispatch is owned by another verifier")
  ensure (db.countDispatch dispatch.id isUnresolved = 1)
    (.parse "verification dispatch resolution raced")
  let db := db.updateDispatch dispatch.id isUnresolved fun d =>
    { d with state := .resolved, resolvedAt := some now }
  let d ← db.getDispatch dispatchId
  pure (d, db)

/-! ## 期限 -/

/-- 期限を過ぎた割り当て。 -/
def isDue (taskId : String) (now : Time) (d : VerificationDispatch) : Bool :=
  d.taskId = taskId ∧ d.state.isActive ∧ d.deadlineAt ≤ now

/-- `timeout_verification_dispatch`。 -/
def timeoutDispatch (taskId : String) (now : Time) :
    Except StoreError (Option VerificationDispatch × ProofDb) :=
  match firstBest newerDispatch (db.dispatches.rows.filter (isDue taskId now)) with
  | none => .ok (none, db)
  | some due => do
    ensure (db.countDispatch due.id (isDue taskId now) = 1)
      (.parse "verification dispatch timeout selection raced")
    let db := db.updateDispatch due.id (isDue taskId now) fun d =>
      { d with state := .timedOut, resolvedAt := some now }
    let d ← db.getDispatch due.id
    pure (some d, db)

/-- `extend_verification_dispatch_deadline`。縮めず、`hard_cap` を越えない。 -/
def extendDeadline (dispatchId : String) (now extendTo : Time) (hardCap : Int) :
    Except StoreError (Option VerificationDispatch × ProofDb) := do
  let dispatch ← db.getDispatch dispatchId
  -- 縮めることはないので、今より前か今の期限以前なら断る。
  let deadline := min extendTo (dispatch.requestedAt + hardCap)
  if ¬ dispatch.state.isActive ∨ deadline ≤ now ∨ deadline ≤ dispatch.deadlineAt then
    pure (none, db)
  else
    let p := fun d : VerificationDispatch =>
      decide (d.state.isActive ∧ d.deadlineAt = dispatch.deadlineAt)
    let changed := db.countDispatch dispatchId p
    let db := db.updateDispatch dispatchId p fun d => { d with deadlineAt := deadline }
    if changed = 1 then
      let d ← db.getDispatch dispatchId
      pure (some d, db)
    else pure (none, db)

/-! ## 引き取り -/

/-- 登録が消えた supervisor の引退の記録。 -/
structure RetiredAgent where
  role : Option String := none
  machineId : Option String := none
  factorySession : Option String := none

/-- SQLite の `trim(x) != ''`。落とすのは空白 U+0020 だけである。 -/
def notSpaces (s : String) : Bool := s.toList.any fun c => c ≠ ' '

/-- 引き取る supervisor の machine と session。 -/
def adopter? (supervisorId localMachine : String) : Option (String × String) :=
  match db.base.agents.find? supervisorId with
  | some a =>
    match a.machineId, a.factorySession with
    | some machine, some session =>
      if a.role = .supervisor ∧ a.status.isLive ∧ machine = localMachine ∧ notSpaces session then
        some (machine, session)
      else none
    | _, _ => none
  | none => none

/-- 引き取りの候補。 -/
def isOrphanCandidate (supervisorId : String) (d : VerificationDispatch) : Bool :=
  isUnresolved d
    && (db.base.tasks.find? d.taskId).any (fun t =>
      t.status = .inProgress ∨ t.status = .awaitingMerge ∨ t.status = .blocked)
    && d.ownerAgentId ≠ supervisorId
    && (db.latestDispatch? d.taskId).any (fun newest => newest.id = d.id)
    && !db.verifications.rows.any (fun v => v.dispatchId = some d.id)

/-- 持ち主が死んでいることの確かめ。登録が残っていれば、渡された死亡の写しと突き合わせる。 -/
def mayAdopt (owner machine session : String) (deadOwners : List Agent)
    (retired : String → Option RetiredAgent) : Bool :=
  match db.base.agents.find? owner with
  | some prior =>
    prior.role = .supervisor ∧ prior.machineId = some machine
      ∧ prior.factorySession = some session
      ∧ deadOwners.any fun a =>
        a.id = owner ∧ a.machineId = some machine ∧ a.factorySession = some session
          ∧ a.status = prior.status ∧ a.pid = prior.pid ∧ a.pidStarttime = prior.pidStarttime
  | none =>
    (retired owner).any fun r =>
      r.role = some "supervisor" ∧ r.machineId = some machine ∧ r.factorySession = some session

/-- 割り当てが渡した権限をすべて使用済みにする。 -/
def retireDispatchAuthority (dispatchId : String) (now : Time) : ProofDb :=
  let db := db.updateCapabilities (fun c => c.dispatchId = some dispatchId) (retireCapability now)
  db.updateHandoffs (fun h => h.state.isLive
      && (db.capabilities.find? h.capabilityId).any fun c => c.dispatchId = some dispatchId)
    (retireHandoff now)

/-- 一つの割り当てを引き取る。引き取らなければ `false`。 -/
def adoptOne (supervisorId machine session : String) (deadOwners : List Agent)
    (retired : String → Option RetiredAgent) (deadlineAt now : Time) (id : String) :
    Except StoreError (Bool × ProofDb) := do
  let dispatch ← db.getDispatch id
  if db.mayAdopt dispatch.ownerAgentId machine session deadOwners retired then
    let db := db.retireDispatchAuthority id now
    -- 部分索引は task ごとに有効な割り当てを一つしか許さない。`pending` に戻すとこれに触れうる。
    ensure (¬ db.hasOtherActive dispatch.taskId id)
      (uniqueFailed "verification_dispatches.task_id")
    pure (true, db.updateDispatch id (fun _ => true) fun d =>
      { d with
        ownerAgentId := supervisorId, state := .pending, verifierAgentId := none
        capabilityId := none, deadlineAt, resolvedAt := none })
  else pure (false, db)

/-- 候補を順に引き取り、引き取った id を返す。 -/
def adoptAll (db : ProofDb) (supervisorId machine session : String) (deadOwners : List Agent)
    (retired : String → Option RetiredAgent) (deadlineAt now : Time) :
    List String → Except StoreError (List String × ProofDb)
  | [] => .ok ([], db)
  | id :: rest => do
    let (taken, db) ← db.adoptOne supervisorId machine session deadOwners retired deadlineAt now id
    let (ids, db) ← adoptAll db supervisorId machine session deadOwners retired deadlineAt now rest
    pure (if taken then id :: ids else ids, db)

/--
`adopt_orphaned_verification_dispatches`。

source が返すのは引き取った数だけだが、ここではどれを引き取ったかも返す。
-/
def adoptOrphanedDispatches (supervisorId : String) (deadOwners : List Agent) (deadlineAt : Time)
    (localMachine : String) (retired : String → Option RetiredAgent) (now : Time) :
    Except StoreError (List String × ProofDb) :=
  match db.adopter? supervisorId localMachine with
  | none => .ok ([], db)
  | some (machine, session) =>
    let ids := (db.dispatches.rows.filter (db.isOrphanCandidate supervisorId)).map (·.id)
    adoptAll db supervisorId machine session deadOwners retired deadlineAt now ids

/-! ## 無効化 -/

/-- 判定済みか期限切れ。 -/
def isReusable (d : VerificationDispatch) : Bool := d.state = .resolved ∨ d.state = .timedOut

/-- `invalidate_verification_dispatch_for_new_cycle_with_conn`。権限には触らない。 -/
def invalidateForNewCycle (dispatchId : String) (now : Time) :
    Except StoreError (VerificationDispatch × ProofDb) := do
  let dispatch ← db.getDispatch dispatchId
  let latest ← okOr (db.latestDispatch? dispatch.taskId) (.notFound "latest verification dispatch")
  ensure (latest.id = dispatch.id) (.parse
    "verification proof-cycle invalidation no longer names the latest task dispatch")
  if isReusable dispatch then
    ensure (db.countDispatch dispatch.id isReusable = 1)
      (.parse "verification proof-cycle invalidation raced")
    let db := db.updateDispatch dispatch.id isReusable fun d =>
      { d with state := .invalidated, resolvedAt := some now }
    let d ← db.getDispatch dispatchId
    pure (d, db)
  else pure (dispatch, db)

/-- `invalidate_verification_dispatch_for_new_cycle`。 -/
def invalidateTaskForNewCycle (taskId : String) (now : Time) :
    Except StoreError (Option VerificationDispatch × ProofDb) :=
  match db.latestDispatch? taskId with
  | none => .ok (none, db)
  | some dispatch => do
    let (d, db) ← db.invalidateForNewCycle dispatch.id now
    pure (some d, db)

/-- 割り当てが今握っている権限だけを使用済みにする。 -/
def retireHeldCapability (capabilityId : Option String) (now : Time) : ProofDb :=
  match capabilityId with
  | none => db
  | some id =>
    (db.updateCapabilities (fun c => c.id = id) (retireCapability now)).updateHandoffs
      (fun h => h.capabilityId = id && h.state.isLive) (retireHandoff now)

/-- 無効化できる状態。 -/
def isInvalidatable (d : VerificationDispatch) : Bool :=
  d.state = .pending ∨ d.state = .claimed ∨ d.state = .resolved ∨ d.state = .timedOut

/-- 証明の対象の commit。誤りの文面に使う。 -/
def boundHead (d : VerificationDispatch) : String :=
  (d.repository.map RepositoryProofBoundary.headCommit).getD "unbound"

/-- repository の変化で無効化できない割り当てを名指ししたときの誤り。 -/
def driftRefused (dispatch latest : VerificationDispatch) : StoreError :=
  let named := dispatch.id
  let namedHead := boundHead dispatch
  let latestId := latest.id
  let latestHead := boundHead latest
  .parse s!"repository proof invalidation requires the latest task-only repository dispatch (named {named} bound head {namedHead}; latest {latestId} bound head {latestHead})"

/-- `UPDATE tasks SET pending_verification = 0, updated_at = ? WHERE id = ?`。 -/
def clearPendingVerification (taskId : String) (now : Time) : ProofDb :=
  { db with base := { db.base with
      tasks := db.base.tasks.update (fun t => t.id = taskId) fun t =>
        { t with pendingVerification := false, updatedAt := now } } }

/-- `invalidate_verification_dispatch_for_repository_drift`。 -/
def invalidateForRepositoryDrift (dispatchId : String) (now : Time) :
    Except StoreError (VerificationDispatch × ProofDb) := do
  let dispatch ← db.getDispatch dispatchId
  let latest ← okOr (db.latestDispatch? dispatch.taskId) (.notFound "latest verification dispatch")
  ensure (latest.id = dispatch.id ∧ dispatch.receiptId = none
    ∧ dispatch.deliveryTransactionId = none ∧ dispatch.repository.isSome)
    (driftRefused dispatch latest)
  if dispatch.state = .invalidated then pure (dispatch, db)
  else
    ensure (isInvalidatable dispatch) (.parse
      "repository proof dispatch cannot be invalidated from its current state")
    -- 使用済みになるのは割り当てが握っている権限だけで、束縛前の権限は残る。
    let db := db.retireHeldCapability dispatch.capabilityId now
    ensure (db.countDispatch dispatch.id isInvalidatable = 1)
      (.parse "repository proof invalidation raced")
    let db := (db.updateDispatch dispatch.id isInvalidatable fun d =>
      { d with state := .invalidated, resolvedAt := some now }).clearPendingVerification
        dispatch.taskId now
    let d ← db.getDispatch dispatchId
    pure (d, db)

/-- 差し戻しと証明範囲の訂正が、最新の割り当てを無効化する手順。`other` は失敗の文面。 -/
def invalidateDeclined (active : VerificationDispatch) (now cycleNow : Time) (other : String) :
    Except StoreError ProofDb :=
  match active.state with
  | .resolved | .timedOut => do
    let (d, db) ← db.invalidateForNewCycle active.id cycleNow
    ensure (d.state = .invalidated) (.parse other)
    pure db
  -- 判定前の割り当ては、この場で無効にする。権限の行には触らない。
  | .pending | .claimed => do
    let live := fun d : VerificationDispatch => d.state.isActive
    ensure (db.countDispatch active.id live = 1) (.parse other)
    pure (db.updateDispatch active.id live fun d =>
      { d with state := .invalidated, resolvedAt := some now })
  | .invalidated => .ok db

/-! ## 判定の引き継ぎ -/

/-- その割り当ての最新の判定。 -/
def latestVerdict? (dispatchId : String) : Option Verification :=
  firstBest (fun v v' => decide (v'.createdAt < v.createdAt
      ∨ (v.createdAt = v'.createdAt ∧ v'.id < v.id)))
    (db.verifications.rows.filter fun v => v.dispatchId = some dispatchId)

/-- 引き継げる割り当てか。 -/
def rebindable (prior : VerificationDispatch) (priorVerdictId : String)
    (boundary : VerificationProofBoundary) : Bool :=
  (db.latestDispatch? prior.taskId).map (·.id) = some prior.id ∧ prior.state = .resolved
    ∧ prior.receiptId = none ∧ prior.deliveryTransactionId = none ∧ prior.repository.isSome
    ∧ boundary.receiptId = none ∧ boundary.deliveryTransactionId = none
    ∧ boundary.repository.isSome
    ∧ (db.latestVerdict? prior.id).map (fun v => (v.id, v.status.storageStatus))
      = some (priorVerdictId, VerificationStatus.approved.storageStatus)

/-- `rebind_approved_verification_dispatch`。`verdictId` は新しい判定の id。 -/
def rebindApprovedDispatch (priorDispatchId priorVerdictId requester owner : String)
    (boundary : VerificationProofBoundary) (receipt rid verdictId : String)
    (now requestedAt : Time) :
    Except StoreError ((VerificationDispatch × Verification) × ProofDb) := do
  let prior ← db.getDispatch priorDispatchId
  ensure (db.rebindable prior priorVerdictId boundary) (.parse
    "verdict rebind requires the latest task-only dispatch resolved with this exact approval")
  let db := db.updateDispatch prior.id (fun d => d.state = .resolved) fun d =>
    { d with state := .invalidated }
  -- 前の割り当ては無効になっているので、ここで新しい行が挿される。期限は今で、すぐに判定済みに書き換わる。
  let (dispatch, db) ← db.createDispatch prior.taskId requester owner boundary now false rid
    requestedAt
  let db := db.updateDispatch dispatch.id (fun _ => true) fun d =>
    { d with state := .resolved, resolvedAt := some now }
  let verification : Verification :=
    { id := verdictId, taskId := prior.taskId, agentId := some owner
      issuerAgentId := some requester, provenance := .system, dispatchId := some dispatch.id
      status := .approved, summary := receipt, createdAt := now }
  let verifications ← okOr (db.verifications.insert? verification)
    (uniqueFailed "verifications.id")
  pure (({ dispatch with state := .resolved, resolvedAt := some now }, verification),
    { db with verifications })

end ProofDb

end Cassy
