import Cassy.Store.Db
import Cassy.Task.Rows

/-!
# 着手できる task の一覧

`task_store.rs` は「何に待たされているか」を四箇所に書いている。`list_ready`、`list_blocked`、`get_blockers` の問い合わせと、
`list_with_parent_deps_and_start_gates` の start gate である。`list_blocked` は blocker をまとめて引くので、行の読み方も自前で持つ。

SQL は状態の列の文字列をそのまま比べ、`Task` の状態は `FromStr` で読む。結合の行の順は決まっていないので、外側の表の順に並べて書く。
`Utc::now()` は行ごとに読まれるので、時計は行の番号の関数として受け取る。
-/

namespace Cassy

open Infra

/-- `dependencies` の行。種別は SQL が比べる文字列のままである。 -/
structure DependencyRow where
  fromId : String
  toId : String
  depType : String
  createdAt : String := ""
  createdBy : Option String := none
  deriving DecidableEq, Repr

def DependencyRow.key (d : DependencyRow) : String × String := (d.fromId, d.toId)

/-- `external_task_dependencies` の行のうち、一覧の問い合わせが見る列。 -/
structure ExternalTaskDependency where
  originTaskId : String
  proposalId : String
  resolutionState : String
  suppressedAt : Option String := none
  deriving DecidableEq, Repr

def ExternalTaskDependency.key (e : ExternalTaskDependency) : String × String :=
  (e.originTaskId, e.proposalId)

/-- 一覧の問い合わせが読む三つの表。 -/
structure ReadinessDb where
  tasks : Table TaskRow.id := .empty
  dependencies : Table DependencyRow.key := .empty
  external : Table ExternalTaskDependency.key := .empty

/-- `status NOT IN ('closed', 'cancelled')`。 -/
def TaskRow.unfinished (row : TaskRow) : Bool := row.status.notIn ["closed", "cancelled"]

/-- `ORDER BY priority, created_at DESC`。 -/
def orderByPriority (rows : List TaskRow) : List TaskRow :=
  rows.mergeSort fun r r' =>
    if r.priority = r'.priority then r'.createdAt.le r.createdAt else r.priority.le r'.priority

/-- `dep_from_row`。 -/
def depFromRow (R : TaskReaders) (now : Time) (d : DependencyRow) : Dependency where
  fromId := d.fromId
  toId := d.toId
  depType := (DependencyType.fromStr d.depType).getD .blocks
  createdAt := (R.parseDatetime d.createdAt).getD now
  createdBy := d.createdBy

namespace ReadinessDb

variable (db : ReadinessDb) (R : TaskReaders)

/-- 行を順に読む。 -/
def readTasks (clock : Nat → RowClock) (rows : List TaskRow) : Except RowError (List Task) :=
  rows.zipIdx.mapM fun (row, i) => taskFromRow R (clock i) row.columns

/-- 種別が `depType` で、まだ終わっていない相手への依存があるか。 -/
def waitsFor (depType : String) (taskId : String) : Bool :=
  (joinOn (fun d b => d.toId = b.id) db.dependencies.rows db.tasks.rows).any fun (d, b) =>
    d.fromId = taskId && d.depType = depType && b.unfinished

/-- 解決も抑止もされていない、外の project への依存があるか。 -/
def waitsOutside (taskId : String) : Bool :=
  db.external.rows.any fun e =>
    e.originTaskId = taskId && e.resolutionState ≠ "resolved" && e.suppressedAt = none

/-- `list_ready` の `WHERE`。 -/
def ready (t : TaskRow) : Bool :=
  (t.status.isText "open" || t.status.isText "blocked" && db.waitsFor "blocks" t.id)
    && !db.waitsFor "requires-start" t.id && !db.waitsOutside t.id

/-- `list_ready`。`held` は project が止められているかである。 -/
def listReady (held : Bool) (clock : Nat → RowClock) : Except RowError (List Task) :=
  if held then .ok []
  else readTasks R clock (orderByPriority (db.tasks.rows.filter db.ready))

/-- `list_with_parent_deps_and_start_gates`。 -/
def listWithParentDepsAndStartGates (clock : Nat → RowClock) (depClock : Nat → Time) :
    Except RowError (List Task × List Dependency × List String) := do
  let tasks ← readTasks R clock (orderByPriority db.tasks.rows)
  let parents := (db.dependencies.rows.filter fun d => d.depType = "parent-child").mergeSort
    fun d d' => d'.createdAt ≤ d.createdAt
  let deps := parents.zipIdx.map fun (d, i) => depFromRow R (depClock i) d
  let gates := (joinOn (fun d p => d.toId = p.id) db.dependencies.rows db.tasks.rows).filter
    fun (d, p) => d.depType = "requires-start" && p.unfinished
  pure (tasks, deps, (gates.map fun (d, _) => d.fromId).dedup)

/-- `list_blocked` の一つ目の問い合わせの `WHERE`。 -/
def blocked (t : TaskRow) : Bool :=
  t.unfinished && (db.waitsFor "blocks" t.id || db.waitsOutside t.id)

/-- `list_blocked` の二つ目の問い合わせの行。 -/
def blockerRows (taskIds : List String) : List (DependencyRow × TaskRow) :=
  (joinOn (fun d t => d.toId = t.id) db.dependencies.rows db.tasks.rows).filter fun (d, t) =>
    d.fromId ∈ taskIds && d.depType = "blocks" && t.unfinished

/-- `blockers_map` から task ごとに取り出す。表は、挿した順の組の列で表す。 -/
def attachBlockers : List Task → List (String × Task) → List (Task × List Task)
  | [], _ => []
  | task :: tasks, blockersMap =>
    (task, (blockersMap.filter fun x => x.1 = task.id).map Prod.snd)
      :: attachBlockers tasks (blockersMap.filter fun x => x.1 ≠ task.id)

/-- `list_blocked`。 -/
def listBlocked (clock blockerClock : Nat → RowClock) :
    Except RowError (List (Task × List Task)) := do
  let blockedTasks ← readTasks R clock (orderByPriority (db.tasks.rows.filter db.blocked).dedup)
  if blockedTasks = [] then pure []
  else
    let rows := db.blockerRows (blockedTasks.map Task.id)
    let blockersMap ← rows.zipIdx.mapM fun ((d, t), i) =>
      blockerFromRow R (blockerClock i) (.text d.fromId :: t.columns)
    pure (attachBlockers blockedTasks blockersMap)

/-- `get_blockers`。 -/
def getBlockers (taskId : String) (clock : Nat → RowClock) : Except RowError (List Task) :=
  let rows := (joinOn (fun t d => d.toId = t.id) db.tasks.rows db.dependencies.rows).filter
    fun (t, d) => d.fromId = taskId && d.depType = "blocks" && t.unfinished
  readTasks R clock (rows.map Prod.fst)

end ReadinessDb

end Cassy
