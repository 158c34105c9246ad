import Mathlib.Logic.Function.Basic
import Cassy.Infra.Run
import Cassy.Task.Revision
import Cassy.Cloud.SyncQueue

/-!
# task の変更を列に載せる意図

`cloud/sync_queue/task_intents.rs` と `store/syncing_task.rs`。task の表と送信待ちの列は別々の transaction で
書かれるので、間で倒れると変更が列に載らない。そこで、書く前に意図（intent）を残し、書き込みは同じ transaction に
受領書を残し、列に載せた transaction が意図と受領書を消す。倒れた後は、残った意図を照合（reconcile）が拾う。

* 変更する側は、意図を立ててから列に載せ終わるまで、task の stripe を占有する
* 照合する側は、意図の一覧を写してから一つずつ果たす。占有されている task には手を出さない
* `update_from_sync` と `delete`、別の接続からの直接の書き込みは、意図も占有も経ない
* `record_merge_admission` は占有するが、意図は立てない

意図を果たす手順は、占有の前に版と受領書と行を読み、write transaction の中で版を確かめ直す。読むたびに一手とする。

一つの task だけを追う。ほかの task の意図はこの task の版にも受領書にも触れない。
-/

namespace Cassy

open Infra

/-! ## 意図 -/

/-- `TaskSyncIntent`。 -/
structure TaskSyncIntent where
  id : Nat
  mutationId : String
  entityId : String
  operation : String
  previousUpdatedAt : Option Time := none
  previousRevision : Nat
  teamId : Option String := none
  previousTeamId : Option String := none
  previousProjectId : Option String := none
  globalScope : Bool := false
  deriving DecidableEq, Repr

/-- `task_sync_intent_recovery` の行のうち、照合が読み書きするところ。 -/
structure TaskSyncRecovery where
  mutationId : String
  intentId : Nat
  blockedReason : String
  resolved : Bool := false
  deriving DecidableEq, Repr

/-- `TaskSyncPayload`。 -/
structure TaskSyncPayload where
  payload : String
  currentProjectId : Option String
  currentTeamId : Option String
  personal : Bool
  deriving DecidableEq, Repr

/-- `TaskSyncIntentClass`。 -/
inductive TaskSyncIntentClass where
  | proceed (revision : Nat)
  | superseded
  | provenPreCommit
  | blocked (diagnostic : String)
  deriving DecidableEq, Repr

/-- `TaskSyncFulfillMode`。 -/
inductive TaskSyncFulfillMode where
  | mutation | reconcile
  deriving DecidableEq, Repr

/-- `TaskSyncFulfillResult`。 -/
inductive TaskSyncFulfillResult where
  | fulfilled
  | provenPreCommit
  | superseded
  | deferred
  | blocked (diagnostic : String) (firstReport : Bool)
  deriving DecidableEq, Repr

/-- この task と、それを扱う store の設定。 -/
structure IntentEnv extends QueueEnv where
  entityId : String
  parseTimestamp : Text → Bool
  /-- `serde_json::to_string` -/
  toJson : Task → String
  /-- `resolve_canonical_id` -/
  localProject : Option String := none
  teamId : Option String := none
  teamOnly : Bool := false

/-- `{:?}` で書いた `Option`。 -/
def debugOption {α : Type} (render : α → String) : Option α → String
  | none => "None"
  | some a => s!"Some({render a})"

/-- `{:?}` で書いた版と在否。 -/
def debugRevision (r : Nat × Bool) : String := s!"({r.1}, {r.2})"

namespace TaskSyncIntent

variable (intent : TaskSyncIntent)

/-- 受領書の版 `committed` と今の版 `current` からの分類。 -/
def classifyWith (committed : Option Nat) (current : Option (Nat × Bool)) : TaskSyncIntentClass :=
  let id := intent.entityId
  let previous := intent.previousRevision
  let blocked : TaskSyncIntentClass := .blocked
    s!"task sync recovery blocked for {id}: intent revision is unclassified (previous={previous}, committed={debugOption toString committed}, current={debugOption debugRevision current}); durable evidence retained"
  match committed, current with
  | some committed, some (current, present) =>
    if committed = current ∧ present then .proceed current
    else if committed < current then .superseded
    else blocked
  | none, some (current, _) =>
    if current = intent.previousRevision then .provenPreCommit else blocked
  | none, none => if intent.previousRevision = 0 then .provenPreCommit else blocked
  | some _, none => blocked

/-- 列への書き込み一つ。 -/
def queueWrite (operation : SyncOperation) (payload : Option String) (teamId : String)
    (projectId : Option String) (now : Time) : QueueWrite where
  entityType := .task
  entityId := intent.entityId
  operation := operation
  payload := payload
  teamId := teamId
  projectId := projectId
  now := now

end TaskSyncIntent

namespace RevisionDb

variable (db : RevisionDb)

/-- `SELECT revision, present FROM task_mutation_revisions`。 -/
def currentRevision (id : String) : Option (Nat × Bool) :=
  (db.revisions.find? id).map fun r => (r.revision, r.present)

/-- `SELECT revision FROM task_mutation_receipts`。 -/
def committedRevision (intent : TaskSyncIntent) : Option Nat :=
  ((db.receipts.find? intent.mutationId).filter fun r => r.entityId = intent.entityId).map
    MutationReceipt.revision

/-- `classify_task_sync_intent`。 -/
def classifyTaskSyncIntent (intent : TaskSyncIntent) : TaskSyncIntentClass :=
  intent.classifyWith (db.committedRevision intent) (db.currentRevision intent.entityId)

/-- 受領書を消す。 -/
def dropReceipts (ids : List String) : RevisionDb :=
  { db with receipts := db.receipts.delete fun r => r.receiptId ∈ ids }

/-- `record_merge_admission`。受領書は作らない。 -/
def recordMergeAdmission (taskId mergeCommit : String) (admission : MergeCiAdmission)
    (now : Time) : RevisionDb :=
  match db.row? taskId with
  | none => db
  | some t =>
    if t.status = .awaitingMerge ∧ t.deliverables.any fun d => !d.mergeConflicted then
      afterUpdate
        { db with
          proof := db.proof.updateTask taskId fun t =>
            { t with
              deliverables := t.deliverables.map fun d =>
                { d with greenMergeCommit := some mergeCommit, mergeCiAdmission := some admission }
              updatedAt := now } }
        taskId
    else db

end RevisionDb

namespace IntentEnv

variable (env : IntentEnv)

/-- `load_canonical_sync_payload` が行から作るもの。 -/
def canonicalPayload (globalScope : Bool) (task : Task) : TaskSyncPayload :=
  let task := { task with scope := if globalScope then .global else .project }
  let task := if globalScope then { task with originProject := none } else task
  { payload := env.toJson task
    currentProjectId := task.originProject.filter nonBlank
    currentTeamId := if globalScope then none else env.teamId
    personal := !env.teamOnly || globalScope }

/-- `load_canonical_sync_payload`。行が無ければ落ちる。 -/
def loadCanonical (db : RevisionDb) (intent : TaskSyncIntent) : Option TaskSyncPayload :=
  (db.row? intent.entityId).map (env.canonicalPayload intent.globalScope)

/-- payload が手元の project のものであること。 -/
def authoredHere (task : Option Task) (intent : TaskSyncIntent) (payload : String) : Bool :=
  let projectTask := (env.parse payload).any fun v => v.getStr "scope" ≠ some "global"
  let store : LocalStore := task.toList.map fun t =>
    { entityType := .task, entityId := intent.entityId, originProject := t.originProject }
  !projectTask || env.localProject.all fun project =>
    !env.foreignOrigin (env.queuedOrigin store .task intent.entityId (some payload)) project

/--
確かめた payload を、今の行き先に載せる。

手元の project のものでない task は載せず、前の行き先に消す行だけを残す。行き先が変わった task は、前の行き先にも
消す行を残す。
-/
def queueCanonical (task : Option Task) (intent : TaskSyncIntent) (canonical : TaskSyncPayload)
    (now : Time) (q : SyncQueue) : SyncQueue :=
  let payload := some canonical.payload
  let previousRoute := intent.previousTeamId.map (·, intent.previousProjectId)
  let currentRoute := canonical.currentTeamId.map (·, canonical.currentProjectId)
  if env.authoredHere task intent canonical.payload then
    let q := if canonical.personal then
        q.upsertQueueRow (intent.queueWrite .upsert payload "" none now)
      else q
    let q := match previousRoute with
      | some (teamId, projectId) =>
        if previousRoute ≠ currentRoute then
          (q.removeLegacyTeamUpsertRow .task intent.entityId teamId).upsertQueueRow
            (intent.queueWrite .delete none teamId projectId now)
        else q
      | none => q
    match currentRoute with
    | some (teamId, projectId) =>
      q.upsertQueueRow (intent.queueWrite .upsert payload teamId projectId now)
    | none => q
  else
    let q := q.delete fun r =>
      r.entityType = .task ∧ r.entityId = intent.entityId ∧ r.operation = .upsert
    match env.localProject, intent.previousTeamId, intent.previousProjectId with
    | some project, some teamId, some projectId =>
      if projectIdsMatch env.aliasClass projectId project then
        q.upsertQueueRow (intent.queueWrite .delete none teamId (some projectId) now)
      else q
    | _, _, _ => q

end IntentEnv

/-! ## 機械 -/

/-- 意図を果たす手順の位置。占有の前の読み取りを一つずつ進める。 -/
inductive FulfillPc where
  | start
  | revisionRead (current : Option (Nat × Bool))
  | classified (preloaded : Option Nat)
  | loaded (preloaded : Option (Nat × Option TaskSyncPayload))

/--
処理の位置。

`locked` から `fulfilling` までは stripe を占有している。`reconciling` の `next` は一覧を写したときの次の番号、
`rest` は残りの意図を新しい順に並べたもので、先頭がいま果たしているものである。
-/
inductive SyncPc where
  | idle
  | locked
  | staged (intent : TaskSyncIntent)
  | refused (intent : TaskSyncIntent)
  | fulfilling (intent : TaskSyncIntent) (attempt : Nat) (pc : FulfillPc)
  | reconciling (next : Nat) (rest : List TaskSyncIntent) (attempt : Nat) (pc : FulfillPc)

/-- 列に載せた payload と、載せた transaction で確かめた版、そのときの行。 -/
structure QueuedTask where
  revision : Nat
  row : Option Task
  globalScope : Bool
  payload : TaskSyncPayload

/--
機械の状態。`intents` はこの task の意図で、番号の順に並ぶ。

`committed` と `lastQueued` は履歴である。前者は受領書つきで commit した最も新しい版、後者は最後に載せた payload。
-/
structure IntentState where
  db : RevisionDb
  queue : SyncQueue
  intents : List TaskSyncIntent := []
  nextIntent : Nat := 1
  recovery : List TaskSyncRecovery := []
  /-- `task_sync_routes` の行 -/
  route : Option (Option String × Option String) := none
  stripe : Option Nat := none
  pc : Nat → SyncPc := fun _ => .idle
  committed : Option Nat := none
  lastQueued : Option QueuedTask := none

/-- 果たした結果の報告。載せた payload には、確かめた版を添える。 -/
structure FulfillEvent where
  intent : TaskSyncIntent
  mode : TaskSyncFulfillMode
  result : TaskSyncFulfillResult
  queued : Option (Nat × TaskSyncPayload) := none

/-- write transaction の終わり方。 -/
inductive FulfillOutcome where
  | report (event : FulfillEvent)
  | retry
  | failed

/-- 機械の一手。 -/
inductive IntentAct where
  | acquire (pid : Nat)
  | stage (pid : Nat) (mutationId operation : String) (previousUpdatedAt : Option Time)
      (teamId fallbackTeamId fallbackProjectId : Option String) (globalScope : Bool)
  | commit (pid : Nat) (origin : Option String) (op : TaskOp)
  | cancel (pid : Nat) (ok : Bool)
  | readRevision (pid : Nat)
  | readReceipt (pid : Nat)
  | load (pid : Nat)
  | transact (pid : Nat) (busy : Bool) (now : Time)
  | crash (pid : Nat)
  | snapshot (pid : Nat)
  | write (origin : Option String) (op : TaskOp)
  | mergeAdmission (mergeCommit : String) (admission : MergeCiAdmission) (now : Time)
  | enqueue (w : QueueWrite)

namespace IntentState

variable (s : IntentState)

def setPc (pid : Nat) (pc : SyncPc) : IntentState := { s with pc := Function.update s.pc pid pc }

/-- 処理を終え、占有していれば手放す。 -/
def leave (pid : Nat) : IntentState :=
  { s.setPc pid .idle with stripe := if s.stripe = some pid then none else s.stripe }

/-- 片付いた記録があるか。 -/
def resolved (mutationId : String) : Bool :=
  s.recovery.any fun r => r.mutationId = mutationId && r.resolved

/-- `pending_task_sync_intents`。 -/
def pendingTaskSyncIntents : List TaskSyncIntent :=
  s.intents.filter fun i => !s.resolved i.mutationId

/-- 写した意図が、まだそのまま残っているか。 -/
def stillPending (intent : TaskSyncIntent) : Bool :=
  s.intents.any (fun i => i.id = intent.id && i.mutationId = intent.mutationId
    && i.entityId = intent.entityId) && !s.resolved intent.mutationId

/-- `retire_task_sync_evidence`。この task の意図と受領書を全部消す。 -/
def retireTaskSyncEvidence : IntentState :=
  { s with
    db := s.db.dropReceipts (s.intents.map TaskSyncIntent.mutationId)
    intents := [] }

/-- `retire_one_task_sync_intent` と `cancel_task_sync_intent`。 -/
def retireOneTaskSyncIntent (intent : TaskSyncIntent) : IntentState :=
  { s with
    db := s.db.dropReceipts [intent.mutationId]
    intents := s.intents.filter fun i => i.id ≠ intent.id }

/-- 曖昧な意図を一度だけ記録する。 -/
def recordBlocked (intent : TaskSyncIntent) (diagnostic : String) : IntentState :=
  if s.recovery.any fun r => r.mutationId = intent.mutationId then s
  else
    { s with
      recovery := s.recovery
        ++ [{ mutationId := intent.mutationId, intentId := intent.id
              blockedReason := diagnostic }] }

/-- 版を確かめた payload を列に載せ、意図と受領書を消す。 -/
def finish (env : IntentEnv) (intent : TaskSyncIntent) (revision : Nat)
    (canonical : TaskSyncPayload) (now : Time) : IntentState :=
  { s.retireTaskSyncEvidence with
    queue := env.queueCanonical (s.db.row? intent.entityId) intent canonical now s.queue
    route := some (canonical.currentTeamId, canonical.currentProjectId)
    recovery := s.recovery.map fun r => { r with resolved := true }
    lastQueued := some
      { revision
        row := s.db.row? intent.entityId
        globalScope := intent.globalScope
        payload := canonical } }

/-- `fulfill_task_sync_intent` の write transaction。照合の占有と在否の検査は済んでいる。 -/
def fulfillTx (env : IntentEnv) (mode : TaskSyncFulfillMode) (intent : TaskSyncIntent)
    (attempt : Nat) (preloaded : Option (Nat × Option TaskSyncPayload)) (now : Time) :
    FulfillOutcome × IntentState :=
  match s.db.classifyTaskSyncIntent intent with
  | .superseded => (.report { intent, mode, result := .superseded }, s.retireTaskSyncEvidence)
  | .provenPreCommit =>
    (.report { intent, mode, result := .provenPreCommit }, s.retireOneTaskSyncIntent intent)
  | .blocked diagnostic =>
    match mode with
    | .mutation => (.failed, s)
    | .reconcile =>
      let firstReport := s.recovery.all fun r => r.mutationId ≠ intent.mutationId
      (.report { intent, mode, result := .blocked diagnostic firstReport },
        s.recordBlocked intent diagnostic)
  | .proceed revision =>
    let queueLoaded := fun (canonical : Option TaskSyncPayload) =>
      match canonical with
      | none => (.failed, s)
      | some canonical =>
        (.report { intent, mode, result := .fulfilled, queued := some (revision, canonical) },
          s.finish env intent revision canonical now)
    match preloaded.filter fun loaded => loaded.1 = revision with
    | some loaded => queueLoaded loaded.2
    | none =>
      -- 読んだ後に task が変わった
      if attempt < 3 then (.retry, s)
      else
        match mode with
        | .reconcile => (.report { intent, mode, result := .deferred }, s)
        | .mutation => queueLoaded (env.loadCanonical s.db intent)

end IntentState

/-- 残りの意図へ進む。 -/
def SyncPc.reconcileRest (next : Nat) : List TaskSyncIntent → SyncPc
  | [] => .idle
  | intent :: rest => .reconciling next (intent :: rest) 1 .start

/-- 版を読む手。 -/
def FulfillPc.readRevision (db : RevisionDb) (id : String) : FulfillPc → FulfillPc
  | .start => .revisionRead (db.currentRevision id)
  | pc => pc

/-- 受領書を読み、分類する手。 -/
def FulfillPc.readReceipt (db : RevisionDb) (intent : TaskSyncIntent) : FulfillPc → FulfillPc
  | .revisionRead current =>
    match intent.classifyWith (db.committedRevision intent) current with
    | .proceed revision => .classified (some revision)
    | _ => .loaded none
  | pc => pc

/-- 行を読む手。 -/
def FulfillPc.load (env : IntentEnv) (db : RevisionDb) (intent : TaskSyncIntent) :
    FulfillPc → FulfillPc
  | .classified (some revision) => .loaded (some (revision, env.loadCanonical db intent))
  | pc => pc

namespace IntentState

variable (s : IntentState)

/-- 占有の前の読み取りを一つ進める。 -/
def advance (pid : Nat) (f : TaskSyncIntent → FulfillPc → FulfillPc) : IntentState :=
  match s.pc pid with
  | .fulfilling intent attempt pc => s.setPc pid (.fulfilling intent attempt (f intent pc))
  | .reconciling next (intent :: rest) attempt pc =>
    s.setPc pid (.reconciling next (intent :: rest) attempt (f intent pc))
  | _ => s

/-- 変更した側の write transaction。失敗すると、意図を残したまま占有を手放す。 -/
def transactMutation (env : IntentEnv) (pid : Nat) (intent : TaskSyncIntent) (attempt : Nat)
    (preloaded : Option (Nat × Option TaskSyncPayload)) (now : Time) :
    Option FulfillEvent × IntentState :=
  match s.fulfillTx env .mutation intent attempt preloaded now with
  | (.report event, s) => (some event, s.leave pid)
  | (.retry, s) => (none, s.setPc pid (.fulfilling intent (attempt + 1) .start))
  | (.failed, s) => (none, s.leave pid)

/--
照合する側の write transaction。

database が忙しいか、task が占有されていれば先送りにする。写した意図がもう無ければ、何も消さない。
-/
def transactReconcile (env : IntentEnv) (pid next : Nat) (intent : TaskSyncIntent)
    (rest : List TaskSyncIntent) (attempt : Nat)
    (preloaded : Option (Nat × Option TaskSyncPayload)) (busy : Bool) (now : Time) :
    Option FulfillEvent × IntentState :=
  if busy ∨ s.stripe.isSome then
    (some { intent, mode := .reconcile, result := .deferred }, s.setPc pid .idle)
  else if !s.stillPending intent then
    (some { intent, mode := .reconcile, result := .superseded }, s.setPc pid .idle)
  else
    match s.fulfillTx env .reconcile intent attempt preloaded now with
    | (.report event, s) =>
      (some event,
        match event.result with
        | .provenPreCommit => s.setPc pid (SyncPc.reconcileRest next rest)
        | _ => s.setPc pid .idle)
    | (.retry, s) => (none, s.setPc pid (.reconciling next (intent :: rest) (attempt + 1) .start))
    | (.failed, s) => (none, s.setPc pid .idle)

/-- `stage_task_sync_intent` が立てる意図。 -/
def newIntent (env : IntentEnv) (mutationId operation : String) (previousUpdatedAt : Option Time)
    (teamId fallbackTeamId fallbackProjectId : Option String) (globalScope : Bool) :
    TaskSyncIntent :=
  let previous := s.route.getD (fallbackTeamId, fallbackProjectId)
  { id := s.nextIntent
    mutationId
    entityId := env.entityId
    operation
    previousUpdatedAt
    previousRevision := s.db.revision env.entityId
    teamId
    previousTeamId := previous.1
    previousProjectId := previous.2
    globalScope }

/-- 受領書つきの書き込み。成功した書き込みは、同じ transaction で受領書を残す。 -/
def commit (env : IntentEnv) (pid : Nat) (intent : TaskSyncIntent) (origin : Option String)
    (op : TaskOp) : IntentState :=
  let db := (taskStep env.parseTimestamp origin s.db op).2
  if (db.receipts.find? intent.mutationId).isSome then
    { s.setPc pid (.fulfilling intent 1 .start) with
      db
      committed := some (db.revision env.entityId) }
  else s.setPc pid (.refused intent)

end IntentState

/-- 機械の遷移。進める状況にない手は何もしない。 -/
def intentStep (env : IntentEnv) (s : IntentState) : IntentAct → Option FulfillEvent × IntentState
  | .acquire pid =>
    match s.pc pid, s.stripe with
    | .idle, none => (none, { s.setPc pid .locked with stripe := some pid })
    | _, _ => (none, s)
  | .stage pid mutationId operation previousUpdatedAt teamId fallbackTeamId fallbackProjectId
      globalScope =>
    match s.pc pid with
    | .locked =>
      -- `Uuid::new_v4`。前に使われた id とは重ならない
      if mutationId ≠ "" ∧ s.db.receipts.find? mutationId = none
          ∧ (∀ i ∈ s.intents, i.mutationId ≠ mutationId)
          ∧ ∀ r ∈ s.recovery, r.mutationId ≠ mutationId then
        let intent := s.newIntent env mutationId operation previousUpdatedAt teamId fallbackTeamId
          fallbackProjectId globalScope
        (none,
          { s.setPc pid (.staged intent) with
            intents := s.intents ++ [intent]
            nextIntent := s.nextIntent + 1 })
      else (none, s)
    | _ => (none, s)
  | .commit pid origin op =>
    match s.pc pid with
    | .staged intent =>
      if op.receiptId? = some intent.mutationId ∧ op.taskId = env.entityId then
        (none, s.commit env pid intent origin op)
      else (none, s)
    | _ => (none, s)
  | .cancel pid ok =>
    match s.pc pid with
    | .refused intent =>
      (none, (if ok then s.retireOneTaskSyncIntent intent else s).leave pid)
    | _ => (none, s)
  | .readRevision pid =>
    (none, s.advance pid fun intent => FulfillPc.readRevision s.db intent.entityId)
  | .readReceipt pid => (none, s.advance pid fun intent => FulfillPc.readReceipt s.db intent)
  | .load pid => (none, s.advance pid fun intent => FulfillPc.load env s.db intent)
  | .transact pid busy now =>
    match s.pc pid with
    | .fulfilling intent attempt (.loaded preloaded) =>
      s.transactMutation env pid intent attempt preloaded now
    | .reconciling next (intent :: rest) attempt (.loaded preloaded) =>
      s.transactReconcile env pid next intent rest attempt preloaded busy now
    | _ => (none, s)
  | .crash pid => (none, s.leave pid)
  | .snapshot pid =>
    match s.pc pid with
    | .idle =>
      (none, s.setPc pid (SyncPc.reconcileRest s.nextIntent s.pendingTaskSyncIntents.reverse))
    | _ => (none, s)
  | .write origin op =>
    if op.receiptId? = none then
      (none, { s with db := (taskStep env.parseTimestamp origin s.db op).2 })
    else (none, s)
  | .mergeAdmission mergeCommit admission now =>
    if s.stripe = none then
      (none,
        { s with db := s.db.recordMergeAdmission env.entityId mergeCommit admission now })
    else (none, s)
  | .enqueue w => (none, { s with queue := s.queue.upsertQueueRow w })

end Cassy
