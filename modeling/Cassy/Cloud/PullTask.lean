import Cassy.Notes.Ops
import Cassy.Cloud.ProjectId
import Cassy.Cloud.TaskNotes

/-!
# 届いた task の取り込み

`cloud/syncer/pull.rs` の `upsert_task`・`upsert_task_with_strategy`・`upsert_owner_task`・
`upsert_task_with_owner_preference`。

終わった task と merge 待ちの task は、行の時計が新しいというだけでは作業に戻らない。届いた notes に、
手元の節目より後の明示の記録（再開・差し戻し・reset など）が要る。

時計と版、別名の集合、書式を整えた現在時刻は `PullEnv` で渡す。手元の行は `ProofDb` の task で、書き込みは
`update_from_sync` を通る。
-/

namespace Cassy

open Infra

/-! ## 節目の記録 -/

namespace Audit

def reopened : Text := "Reopened:".toList

def reviewScopeReset : Text := "Review scope reset:".toList

def unblocked : Text := "Unblocked:".toList

def proofScopeFix : Text := "DECISION: proof scope corrected by supervisor ".toList

def mergeRecovery : Text := "Decision: resume from awaiting_merge for merge recovery. ".toList

def cancelled : Text := "CANCELLED: supervisor ".toList

def reset : Text := "reset: force-transitioned ".toList

def parked : Text := "Close rejected:".toList

def parkedState : Text := "Task parked as awaiting_merge;".toList

def closed : Text := "Closed:".toList

end Audit

/-- `REQUEST_CHANGES_AUDIT_PREFIX`。 -/
def requestChangesAuditPrefix : Text := "Decision: changes requested by supervisor. ".toList

/-- `!text.trim().is_empty()`。 -/
def nonBlankText (t : Text) : Bool := !(trim t).isEmpty

/-- `timestamp().div_euclid(60)`。 -/
def minuteOf (t : Time) : Int := t / seconds 60

section Audit

variable (parse : Text → Option Time)

/-- `lifecycle_audit_note`。 -/
def lifecycleAuditNote (note : Text) : Option (Time × Text) := do
  let rest ← stripPrefix ['['] (trim note)
  let (timestamp, event) ← splitOnce [']'] rest
  let at_ ← parse timestamp
  pure (at_, trimStart event)

/-- 手元の task の状態を決めた記録か。 -/
def isBoundaryEvent (terminal : Bool) (event : Text) : Bool :=
  if terminal then Audit.closed.isPrefixOf event || Audit.cancelled.isPrefixOf event
  else Audit.parked.isPrefixOf event && Infra.containsText Audit.parkedState event

/-- `max_by_key(|(at, _)| *at)`。同じ時刻なら後のものを返す。 -/
def latestBy (best : Option (Time × Text)) : List (Time × Text) → Option (Time × Text)
  | [] => best
  | x :: xs =>
    match best with
    | none => latestBy (some x) xs
    | some b => latestBy (if b.1 ≤ x.1 then some x else some b) xs

/-- 手元の notes にある、状態を決めた最後の記録。 -/
def localBoundary (task : Task) : Option (Time × Text) :=
  latestBy none ((splitParagraphs task.notes).filterMap fun block => do
    let (at_, event) ← lifecycleAuditNote parse block
    if isBoundaryEvent task.isTerminal event then some (at_, trim block) else none)

/-- 節目の時刻。終わった task では終わった時刻が先に立つ。 -/
def boundaryTime (task : Task) : Time :=
  (((if task.isTerminal then task.closedAt else none).or
    ((localBoundary parse task).map (·.1))).getD task.updatedAt)

/-- 再開の記録。誰が何故を書いている。 -/
def isReopenEvent (event : Text) : Bool :=
  ((([Audit.reopened, Audit.reviewScopeReset, Audit.unblocked].findSome? fun p =>
      stripPrefix p event).bind fun rest => stripPrefix "actor=".toList (trim rest)).bind
    (splitOnce " reason=".toList)).any fun r => nonBlankText r.1 && nonBlankText r.2

/-- 差し戻しの記録。 -/
def isRequestChangesEvent (event : Text) : Bool :=
  (stripPrefix requestChangesAuditPrefix event).any nonBlankText

/-- reset の記録。 -/
def isResetEvent (event : Text) : Bool :=
  (((stripPrefix Audit.reset event).bind (splitOnce "→Open (prior assignee: ".toList)).bind
    fun r => splitOnce ") — ".toList r.2).any fun r => nonBlankText r.2

/-- 証明の範囲を直した記録。 -/
def isScopeFixEvent (event : Text) : Bool :=
  (stripPrefix Audit.proofScopeFix event).any nonBlankText

/-- merge の競合から作業に戻した記録。 -/
def isMergeRecoveryEvent (event : Text) : Bool :=
  (stripPrefix Audit.mergeRecovery event).any nonBlankText

/-- 再開を許す記録か。 -/
def isAuthorizingEvent (remote : TaskStatus) (event : Text) : Bool :=
  isReopenEvent event || isRequestChangesEvent event || isResetEvent event || isScopeFixEvent event
    || (remote = .inProgress && isMergeRecoveryEvent event)

/-- 記録が節目より後か。分の単位で比べ、同じ分なら届いた notes の中の順で決める。 -/
def isAfterBoundary (task remote : Task) (at_ : Time) (block : Text) : Bool :=
  if minuteOf (boundaryTime parse task) < minuteOf at_ then true
  else if minuteOf at_ < minuteOf (boundaryTime parse task) then false
  else (localBoundary parse task).any fun b =>
    match find b.2 remote.notes, find (trim block) remote.notes with
    | some prior, some action => prior < action
    | _, _ => false

/-- `has_explicit_remote_reopen`。 -/
def hasExplicitRemoteReopen (task remote : Task) : Bool :=
  (splitParagraphs remote.notes).any fun block =>
    match lifecycleAuditNote parse block with
    | none => false
    | some (at_, event) =>
      -- 手元に既にある記録は、別の時計で届き直しても許しにならない。
      if (splitParagraphs task.notes).any fun known => trim known = trim block then false
      else isAuthorizingEvent remote.status event && isAfterBoundary parse task remote at_ block

/-- `rejects_delivery_regression`。 -/
def rejectsDeliveryRegression (task remote : Task) : Bool :=
  let regresses := (task.isTerminal && !remote.isTerminal)
    || (task.status = .awaitingMerge && (remote.status = .open || remote.status = .inProgress))
  regresses && !hasExplicitRemoteReopen parse task remote

end Audit

/-! ## 競合の解決 -/

/-- `ConflictResolution`。 -/
inductive ConflictResolution where
  | remoteWins | localWins | keepRecent
  deriving DecidableEq, Repr

/-- `ConflictResolution::as_str`。 -/
def ConflictResolution.asStr : ConflictResolution → String
  | .remoteWins => "remote_wins"
  | .localWins => "local_wins"
  | .keepRecent => "timestamp_lww"

/-- `ConflictAction`。 -/
inductive ConflictAction where
  | useRemote | useLocal | skip
  deriving DecidableEq, Repr

/-- `SyncConflict`。この pull が下した判断の記録。 -/
structure SyncConflict where
  entityId : String
  localUpdated : Time
  remoteUpdated : Time
  localRevision : Option Int
  remoteRevision : Option Int
  resolution : ConflictResolution
  action : ConflictAction
  deriving DecidableEq, Repr

/-- 競合の記録に残す、捨てた行。 -/
inductive DiscardedRow where
  | guarded (kept rejectedRemote : Task) (reason : String)
  | rejected (rejectedRemote : Task) (reason : String)
  | overwritten (row : Task)
  deriving DecidableEq, Repr

/-- `sync_conflicts` の行。 -/
structure ConflictRecord where
  entityId : String
  discardedRow : DiscardedRow
  winnerSide : String
  strategy : String
  localRevision : Option Int := none
  remoteRevision : Option Int := none
  deriving DecidableEq, Repr

/-- pull が外から読むもの。 -/
structure PullEnv where
  parse : Text → Option Time
  aliasClass : List Text := []
  syncId : String
  source : String
  /-- `Utc::now().format("%Y-%m-%d %H:%M")`。 -/
  stamp : String
  leaseAt : Time
  now : Time
  localRevision : Option Int := none
  remoteRevision : Option Int := none
  /-- `has_pending_entity_change`。 -/
  hasPendingEntityChange : Bool := false

/-- pull が書くもの。 -/
structure PullState where
  db : ProofDb
  conflicts : List ConflictRecord := []
  conflictLog : List SyncConflict := []

/-- `UpsertResult`。 -/
inductive UpsertResult where
  | created | updated
  | skipped (reason : String)
  deriving DecidableEq, Repr

/-- `remote_supersedes_local`。 -/
def PullEnv.remoteSupersedesLocal (env : PullEnv) (localTime remoteTime : Time) : Bool :=
  match env.localRevision, env.remoteRevision with
  | some l, some r => if l ≠ r then l < r else localTime < remoteTime
  | _, _ => localTime < remoteTime

/-- `resolve_conflict_with_revisions` の判断。 -/
def PullEnv.conflictAction (env : PullEnv) (localTime remoteTime : Time) :
    ConflictResolution → ConflictAction
  | .remoteWins => .useRemote
  | .localWins => .useLocal
  | .keepRecent =>
    let byTime := if localTime < remoteTime then .useRemote
      else if remoteTime < localTime then .useLocal else .skip
    match env.localRevision, env.remoteRevision with
    | some l, some r => if l < r then .useRemote else if r < l then .useLocal else byTime
    | _, _ => byTime

/-- `append_sync_status_provenance`。 -/
def appendSyncStatusProvenance (env : PullEnv) (merged task : Task) : Task :=
  if task.status = merged.status then merged
  else
    let priorCloseReason := (task.closeReason.getD "<none>").toList.map fun c =>
      if c = '\n' ∨ c = '\r' then ' ' else c
    let note := '[' :: env.stamp.toList ++ "] [CAS_SYNC_STATUS] sync_id=".toList
      ++ env.syncId.toList ++ " source=".toList ++ env.source.toList ++ " prior_status=".toList
      ++ task.status.toString.toList ++ " prior_close_reason=".toList ++ priorCloseReason
      ++ " applied_status=".toList ++ merged.status.toString.toList
    { merged with
      notes := if merged.notes.isEmpty then note else merged.notes ++ '\n' :: '\n' :: note }

namespace PullState

variable (env : PullEnv) (s : PullState)

/-- `store.get`。 -/
def get (id : String) : Option Task := s.db.base.tasks.find? id

/-- `record_conflict`。 -/
def recordConflict (record : ConflictRecord) : PullState :=
  { s with conflicts := s.conflicts ++ [record] }

/-- `resolve_conflict`。判断を記録してから返す。 -/
def resolveConflict (id : String) (localTime remoteTime : Time) (strategy : ConflictResolution) :
    ConflictAction × PullState :=
  let action := env.conflictAction localTime remoteTime strategy
  let conflict := {
    entityId := id, localUpdated := localTime, remoteUpdated := remoteTime
    localRevision := env.localRevision, remoteRevision := env.remoteRevision
    resolution := strategy, action }
  (action, { s with conflictLog := s.conflictLog ++ [conflict] })

/-- `record_task_lifecycle_conflict`。 -/
def recordTaskLifecycleConflict (task remote : Task) (reason : String) : PullState :=
  s.recordConflict {
    entityId := task.id, discardedRow := .guarded task remote reason
    winnerSide := "local", strategy := "task_lifecycle_guard" }

/-- `record_terminal_regression_conflict`。 -/
def recordTerminalRegressionConflict (task remote : Task) : PullState :=
  s.recordConflict {
    entityId := task.id, discardedRow := .guarded task remote "terminal_status_guard"
    winnerSide := "local", strategy := "terminal_status_guard" }

/-- `record_delivery_regression_conflict`。 -/
def recordDeliveryRegressionConflict (task remote : Task) : PullState :=
  if task.isTerminal then s.recordTerminalRegressionConflict task remote
  else s.recordTaskLifecycleConflict task remote "delivery_lifecycle_event"

/-- `logged_revisions`。 -/
def loggedRevisions (id : String) : Option Int × Option Int :=
  ((s.conflictLog.reverse.find? fun c => c.entityId = id).map fun c =>
    (c.localRevision, c.remoteRevision)).getD (none, none)

/-- `journal_local_overwrite`。まだ送っていない変更があるときだけ、上書きした行を残す。 -/
def journalLocalOverwrite (id : String) (row : Task) (winnerSide strategy : String) : PullState :=
  if env.hasPendingEntityChange then
    s.recordConflict {
      entityId := id, discardedRow := .overwritten row, winnerSide, strategy
      localRevision := (s.loggedRevisions id).1, remoteRevision := (s.loggedRevisions id).2 }
  else s

/-- `apply_task_from_sync`。 -/
def applyTaskFromSync (remote expected : Task) (winnerSide strategy : String) :
    Except StoreError UpsertResult × PullState :=
  match s.db.updateFromSync remote expected env.leaseAt env.now with
  | .error e => (.error e, s)
  | .ok (some _, db) =>
    (.ok .updated,
      PullState.journalLocalOverwrite env { s with db } remote.id expected winnerSide strategy)
  | .ok (none, db) =>
    match PullState.get { s with db } remote.id with
    | none => (.error (.taskNotFound remote.id), { s with db })
    | some current =>
      let reason := "local_mutation_or_delivery_or_live_execution"
      (.ok (.skipped reason),
        PullState.recordTaskLifecycleConflict { s with db } current remote reason)

/-- 無い task を足す。 -/
def addPulledTask (task : Task) : Except StoreError UpsertResult × PullState :=
  match s.db.addTask task with
  | .error e => (.error e, s)
  | .ok (_, db) => (.ok .created, { s with db })

/-- 四つの取り込みに共通の検査。通ればその先へ進む。 -/
def guardLifecycle (task remote : Task)
    (next : Unit → Except StoreError UpsertResult × PullState) :
    Except StoreError UpsertResult × PullState :=
  if rejectsDeliveryRegression env.parse task remote then
    (.ok (.skipped "delivery_lifecycle_event"), s.recordDeliveryRegressionConflict task remote)
  else if !task.lifecycleMatches remote && remote.updatedAt ≤ task.updatedAt then
    (.ok (.skipped "lifecycle_timestamp"),
      s.recordTaskLifecycleConflict task remote "lifecycle_timestamp")
  else next ()

/-- 届いた行に手元の notes を合わせ、状態が変わるならその由来を書き足す。 -/
def mergedTask (task remote : Task) : Task :=
  appendSyncStatusProvenance env
    (if task.notes ≠ remote.notes then
      { remote with notes := mergeTaskNotes env.parse task.notes remote.notes }
    else remote) task

/-- `upsert_owner_task`。 -/
def upsertOwnerTask (remote : Task) : Except StoreError UpsertResult × PullState :=
  match s.get remote.id with
  | some task => s.guardLifecycle env task remote fun _ =>
      s.applyTaskFromSync env (mergedTask env task remote) task "owner" "owner_wins"
  | none => s.addPulledTask remote

/-- `upsert_task`。 -/
def upsertTask (remote : Task) : Except StoreError UpsertResult × PullState :=
  match s.get remote.id with
  | some task => s.guardLifecycle env task remote fun _ =>
      if env.remoteSupersedesLocal task.updatedAt remote.updatedAt then
        let notesDiffer := task.notes ≠ remote.notes
        s.applyTaskFromSync env (mergedTask env task remote) task
          (if notesDiffer then "merged" else "remote")
          (if notesDiffer then "notes_union" else "timestamp_lww")
      else (.ok (.skipped "local_conflict"), s)
  | none => s.addPulledTask remote

/-- `upsert_task_with_strategy`。 -/
def upsertTaskWithStrategy (remote : Task) (strategy : ConflictResolution) :
    Except StoreError UpsertResult × PullState :=
  match s.get remote.id with
  | some task => s.guardLifecycle env task remote fun _ =>
      let (action, s) := s.resolveConflict env remote.id task.updatedAt remote.updatedAt strategy
      match action with
      | .useRemote =>
        let notesDiffer := task.notes ≠ remote.notes
        s.applyTaskFromSync env (mergedTask env task remote) task
          (if notesDiffer then "merged" else "remote")
          (if notesDiffer then "notes_union" else strategy.asStr)
      | .useLocal | .skip => (.ok (.skipped "local_conflict"), s)
  | none => s.addPulledTask remote

/-- `record_owner_conflict_value`。 -/
def recordOwnerConflictValue (task : Task) : PullState :=
  s.recordConflict {
    entityId := task.id, discardedRow := .rejected task "owner_wins"
    winnerSide := "owner", strategy := "owner_wins" }

/-- 持ち主の project が違うか。 -/
def originsDiffer (task remote : Task) : Bool :=
  match task.originProject, remote.originProject with
  | some l, some r => !projectIdsMatch env.aliasClass l r
  | none, none => false
  | _, _ => true

/-- `strategy` があればそれで、無ければ時計で解決する。 -/
def upsertByStrategy (remote : Task) (strategy : Option ConflictResolution) :
    Except StoreError UpsertResult × PullState :=
  match strategy with
  | some strategy => s.upsertTaskWithStrategy env remote strategy
  | none => s.upsertTask env remote

/-- `upsert_task_with_owner_preference`。 -/
def upsertTaskWithOwnerPreference (remote : Task) (incomingIsOwner : Bool)
    (strategy : Option ConflictResolution) : Except StoreError UpsertResult × PullState :=
  match s.get remote.id with
  | some task =>
    if incomingIsOwner && originsDiffer env task remote then s.upsertOwnerTask env remote
    else if !incomingIsOwner && originsDiffer env task remote && task.originProject.isSome then
      -- 終わった task を戻そうとする行は、通常の番人に記録させる。
      if task.isTerminal && !remote.isTerminal then s.upsertByStrategy env remote strategy
      else (.ok (.skipped "local_conflict"), s.recordOwnerConflictValue remote)
    else s.upsertByStrategy env remote strategy
  | none => s.upsertByStrategy env remote strategy

end PullState

/-- 取り込みの入口。 -/
inductive UpsertCall where
  | task
  | taskWithStrategy (strategy : ConflictResolution)
  | ownerTask
  | taskWithOwnerPreference (incomingIsOwner : Bool) (strategy : Option ConflictResolution)
  deriving DecidableEq, Repr

/-- 入口を一つ実行する。 -/
def UpsertCall.run (env : PullEnv) (s : PullState) (remote : Task) :
    UpsertCall → Except StoreError UpsertResult × PullState
  | task => s.upsertTask env remote
  | taskWithStrategy strategy => s.upsertTaskWithStrategy env remote strategy
  | ownerTask => s.upsertOwnerTask env remote
  | taskWithOwnerPreference incomingIsOwner strategy =>
    s.upsertTaskWithOwnerPreference env remote incomingIsOwner strategy

end Cassy
