import Cassy.Infra.Run
import Cassy.Infra.SortedMap
import Cassy.Task.Dependency
import Cassy.Cloud.ProjectId

/-!
# 届いた依存の取り込みと墓標

`cloud/syncer/pull.rs` の `apply_task_dependencies` と `apply_and_heal_task_dependencies`、
`sync_queue/dependency_tombstones.rs` の帳簿。

cloud で消された辺は墓標として届く。墓標は手元の辺を消し、帳簿に残る。後の修復（heal）は、手元にだけある辺を
帳簿と突き合わせ、墓標より前の辺は消し、後に作り直された辺は cloud に送る。

取り込みは一行ずつ、修復は一辺ずつ進み、その間に手元の操作や別の pull が割り込む。
-/

namespace Cassy

open Infra

/-! ## 届いた行 -/

/-- `DependencyType` の表示。 -/
def DependencyType.toString : DependencyType → String
  | .blocks => "blocks"
  | .requiresStart => "requires-start"
  | .related => "related"
  | .parentChild => "parent-child"
  | .discoveredFrom => "discovered-from"
  | .extractedFrom => "extracted-from"

/-- `TaskDependencyRecord`。 -/
structure TaskDependencyRecord where
  fromId : String
  toId : String
  depType : DependencyType
  createdAt : Time
  operation : Option String := none
  deleted : Bool := false
  deletedAt : Option Time := none
  updatedAt : Option Time := none
  deriving DecidableEq, Repr

namespace TaskDependencyRecord

/-- `is_delete`。 -/
def isDelete (r : TaskDependencyRecord) : Bool :=
  r.deleted || r.operation.any fun op => eqIgnoreAsciiCase op.toList "delete".toList

/-- `deleted_at`。時刻の無い墓標は、今消されたものとして扱う。 -/
def deletedAtOr (r : TaskDependencyRecord) (now : Time) : Time :=
  (r.deletedAt.or r.updatedAt).getD now

/-- `dependency`。 -/
def dependency (r : TaskDependencyRecord) : Dependency where
  fromId := r.fromId
  toId := r.toId
  depType := r.depType
  createdAt := r.createdAt

end TaskDependencyRecord

/-- 届いた行。持ち主を語る項目と、読み取った中身。読めない行の中身は `none`。 -/
structure PulledDependency where
  originProject : Option String := none
  scopeProject : Option String := none
  record : Option TaskDependencyRecord
  deriving DecidableEq, Repr

namespace PulledDependency

/-- `row_attribution`。`origin_project` が先で、無ければ scope の写しを見る。 -/
def attribution (raw : PulledDependency) : Option String :=
  ((raw.originProject.map fun o => String.ofList (trim o.toList)).filter fun o => o ≠ "").or
    raw.scopeProject

/-- `task_dependency_matches_project`。 -/
def matchesProject (aliasClass : List Text) (raw : PulledDependency) (project : String) : Bool :=
  raw.attribution.any fun p => projectIdsMatch aliasClass p project

end PulledDependency

/-- `dependency_entity_id`。 -/
def dependencyEntityId (d : Dependency) : Text :=
  d.fromId.toList ++ ':' :: (d.toId.toList ++ ':' :: d.depType.toString.toList)

/-- `RemoteDependencyState`。 -/
structure RemoteDependencyState where
  live : List (Text × Dependency) := []
  deleted : List (Text × Time) := []
  deriving DecidableEq, Repr

/-- `remote_dependency_state` の一行。持ち主は綴りの一致で決める。 -/
def RemoteDependencyState.note (project : String) (now : Time) (state : RemoteDependencyState)
    (raw : PulledDependency) : RemoteDependencyState :=
  if raw.attribution = some project then
    match raw.record with
    | none => state
    | some r =>
      let entityId := dependencyEntityId r.dependency
      if r.isDelete then
        { live := mapRemove entityId state.live
          deleted := mapInsert entityId (r.deletedAtOr now) state.deleted }
      else if (mapGet entityId state.deleted).isSome then state
      else { state with live := mapInsert entityId r.dependency state.live }
  else state

/-- `remote_dependency_state`。 -/
def remoteDependencyState (rows : List PulledDependency) (project : String) (now : Time) :
    RemoteDependencyState :=
  rows.foldl (RemoteDependencyState.note project now) {}

/-- `local_dependency_map`。 -/
def Db.localDependencyMap (db : Db) : List (Text × Dependency) :=
  mapCollect (db.dependencies.rows.map fun d => (dependencyEntityId d, d))

/-! ## 帳簿 -/

/-- `task_dependency_tombstones` の行。 -/
structure DependencyTombstone where
  id : Text
  fromId : String
  toId : String
  depType : DependencyType
  deletedAt : Time
  deriving DecidableEq, Repr

/-- 墓標の帳簿。 -/
abbrev TombstoneLedger := Table DependencyTombstone.id

namespace TombstoneLedger

/-- `record_dependency_tombstone`。新しい方の時刻を残す。 -/
def recordTombstone (ledger : TombstoneLedger) (row : DependencyTombstone) : TombstoneLedger :=
  match ledger.insert? row with
  | some ledger => ledger
  | none => ledger.update (fun r => r.id = row.id)
      fun r => { r with deletedAt := max r.deletedAt row.deletedAt }

/-- `clear_dependency_tombstone`。 -/
def clear (ledger : TombstoneLedger) (entityId : Text) : TombstoneLedger :=
  ledger.delete fun r => r.id = entityId

/-- `prune_dependency_tombstones`。cloud と同じ 90 日で忘れる。 -/
def prune (ledger : TombstoneLedger) (now : Time) : TombstoneLedger :=
  ledger.delete fun r => r.deletedAt < now - seconds (90 * 24 * 60 * 60)

/-- `dependency_tombstones`。 -/
def entries (ledger : TombstoneLedger) : List (Text × Time) :=
  mapCollect (ledger.rows.map fun r => (r.id, r.deletedAt))

end TombstoneLedger

/-! ## pull の進み方 -/

/-- queue に残っている、依存の変更。 -/
structure PendingDependency where
  entityId : Text
  isUpsert : Bool
  /-- `orphan_dependency` で止まっているか。 -/
  orphaned : Bool
  deriving DecidableEq, Repr

/-- 修復が読んだもの。 -/
structure HealPlan where
  snapshot : RemoteDependencyState
  tombstones : List (Text × Time)
  pending : List PendingDependency
  deriving DecidableEq, Repr

/-- 一通りの行を取り込んだ後にすること。 -/
inductive AfterApply where
  /-- 差分の pull。全件を取り寄せるかは、この後に決まる。 -/
  | incremental
  | heal (snapshot : RemoteDependencyState)
  deriving DecidableEq, Repr

/-- pull の途中で、次にすること。 -/
inductive DependencyPc where
  | idle
  | applying (rows : List PulledDependency) (deleted : List (Text × Time)) (after : AfterApply)
      (pending : List PendingDependency)
  | fetching (localAfter : List (Text × Dependency)) (pending : List PendingDependency)
  | healing (edges : List (Text × Dependency)) (plan : HealPlan)
  deriving DecidableEq

/-- 届いた墓標。 -/
structure ReceivedTombstone where
  fromId : String
  toId : String
  depType : DependencyType
  deletedAt : Time
  deriving DecidableEq, Repr

/-- 行の墓標。 -/
def TaskDependencyRecord.tombstone (r : TaskDependencyRecord) (now : Time) : ReceivedTombstone where
  fromId := r.fromId
  toId := r.toId
  depType := r.depType
  deletedAt := r.deletedAtOr now

/-- 手元の表、帳簿、pull ごとの進み具合。`received` はこれまでに届いた墓標の記録である。 -/
structure EdgeState where
  db : Db
  ledger : TombstoneLedger := Table.empty
  pc : Nat → DependencyPc := fun _ => .idle
  received : List ReceivedTombstone := []

/-- 行の中の墓標。 -/
def receivedTombstones (rows : List PulledDependency) (now : Time) : List ReceivedTombstone :=
  rows.filterMap fun raw => raw.record.bind fun r =>
    if r.isDelete then some (r.tombstone now) else none

/-- `snapshot_records_needing_apply`。 -/
def snapshotRecordsNeedingApply (aliasClass : List Text) (rows : List PulledDependency)
    (project : String) (localAfter : List (Text × Dependency)) : List PulledDependency :=
  (rows.filter fun raw => raw.record.any fun r =>
    if r.isDelete then (mapGet (dependencyEntityId r.dependency) localAfter).isSome
    else (mapGet (dependencyEntityId r.dependency) localAfter).isNone).filter
      fun raw => raw.matchesProject aliasClass project

namespace EdgeState

variable (aliasClass : List Text) (project : String) (s : EdgeState)

/-- process の進み具合を書き換える。 -/
def setPc (p : Nat) (pc : DependencyPc) : EdgeState :=
  { s with pc := fun q => if q = p then pc else s.pc q }

/-- `apply_dependency_tombstone`。手元の辺の作られた時刻は見ない。 -/
def applyDependencyTombstone (r : TaskDependencyRecord) (now : Time) : EdgeState :=
  { s with
    db := (s.db.removeDependencyOfType r.fromId r.toId r.depType).2
    ledger := s.ledger.recordTombstone {
      id := dependencyEntityId r.dependency, fromId := r.fromId, toId := r.toId
      depType := r.depType, deletedAt := r.deletedAtOr now }
    received := s.received ++ [r.tombstone now] }

/-- 届いた辺を書く。両端の task が無い辺や閉路になる辺は書かない。 -/
def applyDependencyUpsert (dep : Dependency) : EdgeState :=
  if (s.db.tasks.find? dep.fromId).isSome && (s.db.tasks.find? dep.toId).isSome then
    match s.db.addDependency dep with
    | .ok (_, db) => { s with db }
    | .error _ => s
  else s

/-- `apply_task_dependencies` の一行。同じ応答に墓標のある辺は書かない。 -/
def applyRow (deleted : List (Text × Time)) (raw : PulledDependency) (now : Time) : EdgeState :=
  if raw.matchesProject aliasClass project then
    match raw.record with
    | none => s
    | some r =>
      if r.isDelete then s.applyDependencyTombstone r now
      else if (mapGet (dependencyEntityId r.dependency) deleted).isSome then s
      else s.applyDependencyUpsert r.dependency
  else s

/-- 辺を抑える墓標の時刻。届いた全件と帳簿の、新しい方。 -/
def tombstonedAt (plan : HealPlan) (entityId : Text) : Option Time :=
  match mapGet entityId plan.snapshot.deleted, mapGet entityId plan.tombstones with
  | some a, some b => some (max a b)
  | some a, none => some a
  | none, b => b

/-- 修復が手を付けない辺か。 -/
def healSkips (plan : HealPlan) (entityId : Text) : Bool :=
  let prior := plan.pending.find? fun row => row.entityId = entityId
  (mapGet entityId plan.snapshot.live).isSome
    || prior.any fun row => !(row.isUpsert && row.orphaned)

/-- 修復の一辺。墓標より前の辺は消し、後の辺の墓標は帳簿から消す。 -/
def healEdge (plan : HealPlan) (entityId : Text) (dep : Dependency) : EdgeState :=
  if healSkips plan entityId then s
  else match tombstonedAt plan entityId with
    | none => s
    | some t =>
      if dep.createdAt ≤ t then
        { s with
          db := (s.db.removeDependencyOfType dep.fromId dep.toId dep.depType).2
          ledger := s.ledger.recordTombstone {
            id := entityId, fromId := dep.fromId, toId := dep.toId, depType := dep.depType
            deletedAt := t } }
      else { s with ledger := s.ledger.clear entityId }

/-- pull の次の一歩。 -/
def next (p : Nat) (now : Time) : EdgeState :=
  match s.pc p with
  | .applying (raw :: rows) deleted after pending =>
    (s.applyRow aliasClass project deleted raw now).setPc p (.applying rows deleted after pending)
  | .applying [] _ .incremental pending => s.setPc p (.fetching s.db.localDependencyMap pending)
  | .applying [] _ (.heal snapshot) pending =>
    s.setPc p (.healing s.db.localDependencyMap
      { snapshot, tombstones := s.ledger.entries, pending })
  | .healing ((entityId, dep) :: edges) plan =>
    (s.healEdge plan entityId dep).setPc p (.healing edges plan)
  | .healing [] _ => { s with ledger := s.ledger.prune now }.setPc p .idle
  | .fetching _ _ => s
  | .idle => s

/-- 応答を受け取って取り込みを始める。差分でなければ、応答そのものが全件である。 -/
def begin (p : Nat) (rows : List PulledDependency) (isIncremental : Bool)
    (pending : List PendingDependency) (now : Time) : EdgeState :=
  match s.pc p with
  | .idle =>
    let remote := remoteDependencyState rows project now
    { s with received := s.received ++ receivedTombstones rows now }.setPc p
      (.applying rows remote.deleted (if isIncremental then .incremental else .heal remote) pending)
  | _ => s

/-- 取り寄せた全件の、手元と違う行だけを取り込む。 -/
def snapshot (p : Nat) (rows : List PulledDependency) (now : Time) : EdgeState :=
  match s.pc p with
  | .fetching localAfter pending =>
    let state := remoteDependencyState rows project now
    { s with received := s.received ++ receivedTombstones rows now }.setPc p
      (.applying (snapshotRecordsNeedingApply aliasClass rows project localAfter) state.deleted
        (.heal state) pending)
  | _ => s

end EdgeState

/-- 一歩。手元の操作は一つの文ごと、pull は一行か一辺ごとに進む。 -/
inductive EdgeAct where
  | insert (dep : Dependency)
  | remove (fromId toId : String)
  | removeOfType (fromId toId : String) (depType : DependencyType)
  | delete (id : String)
  | begin (p : Nat) (rows : List PulledDependency) (isIncremental : Bool)
      (pending : List PendingDependency) (now : Time)
  | snapshot (p : Nat) (rows : List PulledDependency) (now : Time)
  | next (p : Nat) (now : Time)
  | stop (p : Nat)

/-- 手元の利用者の操作か。 -/
def EdgeAct.isLocal : EdgeAct → Bool
  | insert _ | remove _ _ | removeOfType _ _ _ | delete _ => true
  | _ => false

/-- 一歩を進める。`stop` は修復をやめた pull や、落ちた process である。 -/
def edgeStep (aliasClass : List Text) (project : String) (s : EdgeState) :
    EdgeAct → Unit × EdgeState
  | .insert dep => ((), { s with db := s.db.insertDependency dep })
  | .remove fromId toId => ((), { s with db := s.db.removeDependency fromId toId })
  | .removeOfType fromId toId depType =>
    ((), { s with db := (s.db.removeDependencyOfType fromId toId depType).2 })
  | .delete id => ((), { s with db := (commit s.db (s.db.deleteTask id)).2 })
  | .begin p rows isIncremental pending now => ((), s.begin project p rows isIncremental pending now)
  | .snapshot p rows now => ((), s.snapshot aliasClass project p rows now)
  | .next p now => ((), s.next aliasClass project p now)
  | .stop p => ((), s.setPc p .idle)

end Cassy
