import Mathlib.Data.List.Sort
import Mathlib.Data.String.Basic
import Mathlib.Logic.Function.Basic
import Cassy.Infra.Run
import Cassy.Infra.Table
import Cassy.Infra.Text
import Cassy.Store.Types

/-!
# worker を起こす依頼の queue

`spawn_queue_store.rs` と `worker_task_queue_store.rs`。supervisor は依頼の行を置き、daemon は読んで印を付け、進み具合を
書き戻す。依頼には task の並びを付けられる。並びは、名の決まった worker の backlog に移される。

`poll` は transaction を張らずに、読む文と印を付ける文を並べている。その間に、ほかの process の文が入る。ほかの操作は
一つの文か一つの transaction である。

worker の backlog は全体を読み、書き換えて、読んだときの `revision` を条件に書き戻す。

時刻の列は `to_rfc3339` の書いた文字列である。SQL はそれを文字列として比べる（`write`）。
-/

namespace Cassy

open Infra

/-! ## 依頼 -/

inductive SpawnAction where
  | spawn | shutdown | respawn | recycle
  deriving DecidableEq, Repr

inductive SpawnLifecycleState where
  | queued | provisioning | launched | registered | failed | stopped
  deriving DecidableEq, Repr

namespace SpawnLifecycleState

/-- `rank`。進み具合は前にしか進まない。 -/
def rank : SpawnLifecycleState → Nat
  | queued => 0
  | provisioning => 1
  | launched => 2
  | registered => 3
  | failed | stopped => 4

end SpawnLifecycleState

/-- `enqueue` の引数。 -/
structure SpawnDraft where
  action : SpawnAction
  count : Option Int := none
  workerNames : List String := []
  force : Bool := false
  isolate : Bool := false
  specJson : Option String := none
  factorySession : Option String := none
  taskId : Option String := none
  requesterConfigDir : Option String := none
  requesterSecureStorageDir : Option String := none
  taskIds : List String := []
  deriving DecidableEq, Repr

/-- `enqueue` の書く `worker_names`。名が無ければ `NULL` である。 -/
def joinWorkerNames (names : List String) : Option String :=
  if names.isEmpty then none
  else some (String.ofList ([','].intercalate (names.map String.toList)))

/-- `parse_worker_names`。 -/
def parseWorkerNames : Option String → List String
  | none => []
  | some names =>
    ((names.toList.splitOnP (· = ',')).map fun n => String.ofList (trim n)).filter (· ≠ "")

/-- `spawn_queue` の行。 -/
structure SpawnRow where
  id : Nat
  action : SpawnAction
  count : Option Int
  workerNames : Option String
  force : Bool
  isolate : Bool
  workerSpec : Option String
  factorySession : Option String
  taskId : Option String
  requesterConfigDir : Option String
  requesterSecureStorageDir : Option String
  createdAt : Time
  processedAt : Option Time := none
  spawnState : Option SpawnLifecycleState := none
  spawnWorker : Option String := none
  spawnDetail : Option String := none
  spawnStateAt : Option Time := none
  deriving DecidableEq, Repr

/-- `enqueue` の書く行。 -/
def SpawnDraft.row (d : SpawnDraft) (id : Nat) (now : Time) : SpawnRow where
  id := id
  action := d.action
  count := d.count
  workerNames := joinWorkerNames d.workerNames
  force := d.force
  isolate := d.isolate
  workerSpec := d.specJson
  factorySession := d.factorySession
  taskId := d.taskId
  requesterConfigDir := d.requesterConfigDir
  requesterSecureStorageDir := d.requesterSecureStorageDir
  createdAt := now

/-- `SpawnRequest`。 -/
structure SpawnRequest where
  id : Nat
  action : SpawnAction
  count : Option Int
  workerNames : List String
  force : Bool
  isolate : Bool
  workerSpec : Option String
  factorySession : Option String
  taskId : Option String
  requesterConfigDir : Option String
  requesterSecureStorageDir : Option String
  createdAt : Time
  processedAt : Option Time
  deriving DecidableEq, Repr

namespace SpawnRow

/-- `request_from_row`。 -/
def request (r : SpawnRow) : SpawnRequest where
  id := r.id
  action := r.action
  count := r.count
  workerNames := parseWorkerNames r.workerNames
  force := r.force
  isolate := r.isolate
  workerSpec := r.workerSpec
  factorySession := r.factorySession
  taskId := r.taskId
  requesterConfigDir := r.requesterConfigDir
  requesterSecureStorageDir := r.requesterSecureStorageDir
  createdAt := r.createdAt
  processedAt := r.processedAt

/-- 行の進み具合。daemon の触れていない行は `queued` である。 -/
def state (r : SpawnRow) : SpawnLifecycleState := r.spawnState.getD .queued

/-- `factory_session = ? OR factory_session IS NULL`。 -/
def servedBy (session : String) (r : SpawnRow) : Bool :=
  r.factorySession = some session || r.factorySession.isNone

/-- `record_spawn_state` の `WHERE`。 -/
def advances (id : Nat) (state : SpawnLifecycleState) (r : SpawnRow) : Bool :=
  r.id = id && r.spawnState.all fun s => s.rank < state.rank

/-- `record_spawn_state` の `SET`。worker の名は一度決まれば変わらない。 -/
def advance (state : SpawnLifecycleState) (worker detail : Option String) (now : Time) (r : SpawnRow) :
    SpawnRow :=
  { r with
    spawnState := some state
    spawnWorker := r.spawnWorker.or worker
    spawnDetail := detail.or r.spawnDetail
    spawnStateAt := some now }

end SpawnRow

/-- `spawn_task_queues` の行。 -/
structure SpawnTaskQueue where
  requestId : Nat
  taskIds : List String
  boundWorker : Option String := none
  deriving DecidableEq, Repr

/-- `usage_limit_episodes` の行。 -/
structure LimitEpisode where
  episode : String
  detail : String
  requestId : Option Int := none
  deriving DecidableEq, Repr

/-! ## worker の backlog -/

/-- `WorkerTaskQueue`。 -/
structure WorkerTaskQueue where
  revision : Nat := 0
  currentTask : Option String := none
  currentStarted : Bool := false
  pending : List String := []
  dispatchFrom : Option String := none
  starting : Bool := false
  dispatchRevision : Nat := 0
  contextResetFrom : Option String := none
  contextResetRequest : Option Int := none
  notes : List String := []
  deriving DecidableEq, Repr

/-- `worker_task_queues` の行。 -/
structure WorkerQueueRow where
  factorySession : String
  workerName : String
  revision : Nat
  state : WorkerTaskQueue
  deriving DecidableEq, Repr

/-- session と worker の名。 -/
abbrev WorkerKey := String × String

def WorkerQueueRow.key (r : WorkerQueueRow) : WorkerKey := (r.factorySession, r.workerName)

/-! ## database -/

/-- 依頼と backlog の表。番号は使い回されない。 -/
structure SpawnDb where
  requests : Table SpawnRow.id := .empty
  nextId : Nat := 1
  taskQueues : Table SpawnTaskQueue.requestId := .empty
  episodes : Table LimitEpisode.episode := .empty
  workerQueues : Table WorkerQueueRow.key := .empty

namespace SpawnDb

variable (write : Time → String) (db : SpawnDb)

/-- `enqueue`。番号と、task の並びも一つの transaction で書く。 -/
def enqueue (d : SpawnDraft) (now : Time) : Nat × SpawnDb :=
  (db.nextId,
    { db with
      requests := db.requests.insertOrIgnore (d.row db.nextId now)
      nextId := db.nextId + 1
      taskQueues :=
        if d.taskIds.isEmpty then db.taskQueues
        else db.taskQueues.insertOrIgnore { requestId := db.nextId, taskIds := d.taskIds } })

/-- `ORDER BY created_at ASC LIMIT ?`。 -/
def oldest (rows : List SpawnRow) (limit : Nat) : List SpawnRow :=
  (rows.insertionSort fun a b => write a.createdAt ≤ write b.createdAt).take limit

/-- `poll` の読む文。 -/
def pendingFor (session : String) (limit : Nat) : List SpawnRow :=
  oldest write (db.requests.rows.filter fun r => r.processedAt.isNone && r.servedBy session) limit

/-- `poll` の印を付ける文。 -/
def markPolled (ids : List Nat) (now : Time) : SpawnDb :=
  { db with requests := db.requests.update (fun r => r.id ∈ ids) fun r => { r with processedAt := some now } }

/-- `mark_processed`。 -/
def markProcessed (id : Nat) (now : Time) : SpawnDb :=
  { db with requests := db.requests.update (fun r => r.id = id) fun r => { r with processedAt := some now } }

/-- `record_spawn_state`。 -/
def recordSpawnState (id : Nat) (state : SpawnLifecycleState) (worker detail : Option String) (now : Time) :
    SpawnDb :=
  { db with requests := db.requests.update (SpawnRow.advances id state) (SpawnRow.advance state worker detail now) }

/-- `clear`。 -/
def clear : Nat × SpawnDb := (db.requests.rows.length, { db with requests := db.requests.delete fun _ => true })

/-- `cleanup_old` の `WHERE`。 -/
def isOld (olderThanSecs : Int) (now : Time) (r : SpawnRow) : Bool :=
  r.processedAt.any fun t => write t < write (now - seconds olderThanSecs)

/-- `cleanup_old`。 -/
def cleanupOld (olderThanSecs : Int) (now : Time) : Nat × SpawnDb :=
  (db.requests.count (isOld write olderThanSecs now),
    { db with requests := db.requests.delete (isOld write olderThanSecs now) })

/-- `record_limit_episode`。 -/
def recordLimitEpisode (episode detail : String) : (Option Int × String) × SpawnDb :=
  match db.episodes.find? episode with
  | some e => ((e.requestId, e.detail), db)
  | none => ((none, detail), { db with episodes := db.episodes.insertOrIgnore { episode, detail } })

/-! ## backlog の操作 -/

/-- `i64::MAX` を越える `revision` は書けない。 -/
def revisionFits (revision : Nat) : Prop := revision < 2 ^ 63

instance (revision : Nat) : Decidable (revisionFits revision) := Nat.decLt _ _

/-- `get`。行が無ければ空の backlog である。 -/
def getQueue (key : WorkerKey) : WorkerTaskQueue := ((db.workerQueues.find? key).map (·.state)).getD {}

/-- `save`。読んだときの `revision` のままでなければ書かない。 -/
def saveQueue (key : WorkerKey) (state : WorkerTaskQueue) : Option WorkerTaskQueue × SpawnDb :=
  let next := { state with revision := state.revision + 1 }
  if revisionFits next.revision then
    if state.revision = 0 then
      match db.workerQueues.insert? ⟨key.1, key.2, next.revision, next⟩ with
      | some workerQueues => (some next, { db with workerQueues })
      | none => (none, db)
    else if db.workerQueues.count (fun r => r.key = key && r.revision = state.revision) = 1 then
      (some next, { db with
        workerQueues := db.workerQueues.update (fun r => r.key = key && r.revision = state.revision)
          fun r => { r with revision := next.revision, state := next } })
    else (none, db)
  else (none, db)

/-- `bind_spawn` の書く backlog。 -/
def boundQueue (taskIds : List String) (revision : Nat) : WorkerTaskQueue where
  revision := revision
  currentTask := taskIds.head?
  pending := taskIds.drop 1

/-- `bind_spawn`。名の同じ worker の backlog は置き換えられ、`revision` は続きの数になる。 -/
def bindSpawn (request : Nat) (key : WorkerKey) : Option Unit × SpawnDb :=
  match (db.taskQueues.find? request).filter fun q => q.boundWorker.isNone with
  | none => (some (), db)
  | some q =>
    let revision := ((db.workerQueues.find? key).map (·.revision)).getD 0 + 1
    if revisionFits revision then
      (some (), { db with
        workerQueues := db.workerQueues.insertOrReplace ⟨key.1, key.2, revision, boundQueue q.taskIds revision⟩
        taskQueues := db.taskQueues.update (fun r => r.requestId = request)
          fun r => { r with boundWorker := some key.2 } })
    else (none, db)

end SpawnDb

/-! ## 並んで動く process -/

/-- 一つの process が手元に持つもの。 -/
structure SpawnProc where
  /-- `poll` が読んで、まだ印を付けていない行。 -/
  polled : Option (String × List SpawnRow) := none
  /-- `get` か `save` で得た backlog。 -/
  copy : Option (WorkerKey × WorkerTaskQueue) := none

/-- 一つの文か、一つの transaction。 -/
inductive SpawnOp where
  | enqueue (d : SpawnDraft)
  /-- `poll` の読む文と、印を付ける文。 -/
  | select (session : String) (limit : Nat)
  | mark
  | markProcessed (id : Nat)
  | recordSpawnState (id : Nat) (state : SpawnLifecycleState) (worker detail : Option String)
  | clear
  | cleanupOld (olderThanSecs : Int)
  | recordLimitEpisode (episode detail : String)
  | getQueue (key : WorkerKey)
  /-- 手元の backlog を書き換えて書き戻す。 -/
  | saveQueue (edit : WorkerTaskQueue)
  | bindSpawn (request : Nat) (key : WorkerKey)
  /-- process が落ちる。 -/
  | stop
  deriving DecidableEq, Repr

/-- 一歩。どの process が、いつ。 -/
structure SpawnAct where
  proc : Nat
  now : Time
  op : SpawnOp
  deriving DecidableEq, Repr

/-- 一歩の答。 -/
inductive SpawnReply where
  | unit
  | id (id : Nat)
  | requests (rows : List SpawnRequest)
  | count (n : Nat)
  | episode (record : Option Int × String)
  | queue (q : WorkerTaskQueue)
  /-- `Worker task queue changed; reload before replacing it` など。 -/
  | refused
  deriving DecidableEq, Repr

structure SpawnState where
  db : SpawnDb := {}
  procs : Nat → SpawnProc := fun _ => {}

namespace SpawnState

/-- 手元のものを書き換える。 -/
def setProc (s : SpawnState) (p : Nat) (x : SpawnProc) : SpawnState :=
  { s with procs := Function.update s.procs p x }

end SpawnState

/-- 一歩を進める。 -/
def spawnStep (write : Time → String) (s : SpawnState) (a : SpawnAct) : SpawnReply × SpawnState :=
  let me := s.procs a.proc
  match a.op with
  | .enqueue d => let r := s.db.enqueue d a.now; (.id r.1, { s with db := r.2 })
  | .select session limit =>
    (.unit, s.setProc a.proc { me with polled := some (session, s.db.pendingFor write session limit) })
  | .mark =>
    match me.polled with
    | none => (.refused, s)
    | some (_, rows) =>
      (.requests (rows.map SpawnRow.request),
        { s with db := s.db.markPolled (rows.map SpawnRow.id) a.now }.setProc a.proc { me with polled := none })
  | .markProcessed id => (.unit, { s with db := s.db.markProcessed id a.now })
  | .recordSpawnState id state worker detail =>
    (.unit, { s with db := s.db.recordSpawnState id state worker detail a.now })
  | .clear => let r := s.db.clear; (.count r.1, { s with db := r.2 })
  | .cleanupOld secs => let r := s.db.cleanupOld write secs a.now; (.count r.1, { s with db := r.2 })
  | .recordLimitEpisode episode detail =>
    let r := s.db.recordLimitEpisode episode detail; (.episode r.1, { s with db := r.2 })
  | .getQueue key =>
    (.queue (s.db.getQueue key), s.setProc a.proc { me with copy := some (key, s.db.getQueue key) })
  | .saveQueue edit =>
    match me.copy with
    | none => (.refused, s)
    | some (key, copy) =>
      match s.db.saveQueue key { edit with revision := copy.revision } with
      | (none, _) => (.refused, s)
      | (some next, db) => (.queue next, { s with db }.setProc a.proc { me with copy := some (key, next) })
  | .bindSpawn request key =>
    match s.db.bindSpawn request key with
    | (none, _) => (.refused, s)
    | (some _, db) => (.unit, { s with db })
  | .stop => (.unit, s.setProc a.proc {})

end Cassy
