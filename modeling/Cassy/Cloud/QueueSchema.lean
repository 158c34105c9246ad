import Mathlib.Data.List.Nodup
import Mathlib.Tactic.Common

/-!
# `sync_queue` の表の移行

`cloud/sync_queue/schema.rs` の `migrate_team_id`。古い版の作った表には `team_id` や `project_id` の列が無いことが
あり、`team_id` が `NULL` の行も、同じ素性の行の写しも残っている。移行は、列を足し、`NULL` を空文字列に直し、写しを
番号の最も大きい一行に減らし、最後に素性の一意索引を作る。

SQL の `UNIQUE` では `NULL` どうしは等しくない。だから一意索引の下でも、`NULL` の行は同じ素性の行と並んでいられる。
そのような表の中身は、どの版でも正しい中身である。

表は、行の列と、掛かっている制約を持つ。文はそれぞれ、表から表への関数か、制約を破れば失敗する関数である。
-/

namespace Cassy

/-- `sync_queue` の行。列が無い表の行では、その列は `NULL` である。 -/
structure StoredRow where
  id : Nat
  entityType : String
  entityId : String
  operation : String
  payload : Option String := none
  teamId : Option String := none
  projectId : Option String := none
  createdAt : String
  retryCount : Nat := 0
  lastError : Option String := none
  deriving DecidableEq, Repr

/-- 行の素性。 -/
structure StoredIdentity where
  entityType : String
  entityId : String
  teamId : String
  projectId : String
  deriving DecidableEq, Repr

namespace StoredRow

/-- `NULL` を空文字列と読んだ素性。 -/
def identity (r : StoredRow) : StoredIdentity where
  entityType := r.entityType
  entityId := r.entityId
  teamId := r.teamId.getD ""
  projectId := r.projectId.getD ""

/-- `idx_sync_queue_entity_team_project` の鍵。`team_id` が `NULL` の行は何とも等しくない。 -/
def identityKey (r : StoredRow) : Option StoredIdentity := r.teamId.map fun _ => r.identity

/-- 元の表の `UNIQUE(entity_type, entity_id, team_id)` の鍵。 -/
def inlineKey (r : StoredRow) : Option (String × String × String) :=
  r.teamId.map fun teamId => (r.entityType, r.entityId, teamId)

/-- `COALESCE(team_id, '')`。 -/
def normalized (r : StoredRow) : StoredRow := { r with teamId := some (r.teamId.getD "") }

theorem normalized_identityKey (r : StoredRow) : r.normalized.identityKey = some r.identity := rfl

theorem normalized_of_isSome {r : StoredRow} (h : r.teamId.isSome) : r.normalized = r := by
  obtain ⟨teamId, hteam⟩ := Option.isSome_iff_exists.mp h
  obtain ⟨id, entityType, entityId, operation, payload, team⟩ := r
  subst hteam
  rfl

theorem identityKey_of_isSome {r : StoredRow} (h : r.teamId.isSome) :
    r.identityKey = some r.identity := by
  rw [← normalized_of_isSome h]
  rfl

end StoredRow

/-- `UNIQUE`。鍵の等しい二行は同じ行である。 -/
def UniqueOn {κ : Type} (key : StoredRow → Option κ) (rows : List StoredRow) : Prop :=
  ∀ r ∈ rows, ∀ r' ∈ rows, (key r).isSome → key r = key r' → r.id = r'.id

instance {κ : Type} [DecidableEq κ] (key : StoredRow → Option κ) (rows : List StoredRow) :
    Decidable (UniqueOn key rows) :=
  inferInstanceAs (Decidable (∀ r ∈ rows, ∀ r' ∈ rows, (key r).isSome → key r = key r' → r.id = r'.id))

/-- 表の列と制約。 -/
structure QueueShape where
  hasTeamId : Bool
  hasProjectId : Bool
  /-- 元の表の `UNIQUE(entity_type, entity_id, team_id)` -/
  inlineUnique : Bool
  /-- `idx_sync_queue_entity_team_project` -/
  identityIndex : Bool
  deriving DecidableEq, Repr

/-- 制約を満たす行の列。 -/
def QueueShape.Admits (shape : QueueShape) (rows : List StoredRow) : Prop :=
  (shape.inlineUnique → UniqueOn StoredRow.inlineKey rows)
    ∧ (shape.identityIndex → UniqueOn StoredRow.identityKey rows)

instance (shape : QueueShape) (rows : List StoredRow) : Decidable (shape.Admits rows) :=
  inferInstanceAs (Decidable (_ ∧ _))

/-- `sync_queue` の表。 -/
structure StoredQueue where
  shape : QueueShape
  rows : List StoredRow
  ids : (rows.map StoredRow.id).Nodup
  admitted : shape.Admits rows
  teamColumn : shape.hasTeamId = false → ∀ r ∈ rows, r.teamId = none
  projectColumn : shape.hasProjectId = false → ∀ r ∈ rows, r.projectId = none

/-- SQLite の失敗。 -/
inductive SqlError where
  | uniqueConstraint
  deriving DecidableEq, Repr

namespace StoredQueue

variable (q : StoredQueue)

/-- `ALTER TABLE sync_queue ADD COLUMN team_id TEXT`。 -/
def addTeamId : StoredQueue where
  shape := { q.shape with hasTeamId := true }
  rows := q.rows
  ids := q.ids
  admitted := q.admitted
  teamColumn := nofun
  projectColumn := q.projectColumn

/-- `ALTER TABLE sync_queue ADD COLUMN project_id TEXT`。 -/
def addProjectId : StoredQueue where
  shape := { q.shape with hasProjectId := true }
  rows := q.rows
  ids := q.ids
  admitted := q.admitted
  teamColumn := q.teamColumn
  projectColumn := nofun

/-- 表の作り直し。元の表と一緒に、掛かっていた制約と索引は無くなる。 -/
def rebuild : StoredQueue where
  shape := { hasTeamId := true, hasProjectId := true, inlineUnique := false, identityIndex := false }
  rows := q.rows.map StoredRow.normalized
  ids := by
    rw [List.map_map]
    exact q.ids
  admitted := ⟨nofun, nofun⟩
  teamColumn := nofun
  projectColumn := nofun

/-- `SELECT EXISTS(SELECT 1 FROM sync_queue WHERE team_id IS NULL)`。 -/
def hasNullTeam : Bool := q.rows.any fun r => r.teamId.isNone

/--
`UPDATE sync_queue SET team_id = '' WHERE team_id IS NULL`。

行は一つずつ書き換わるが、書き換わった値はもう変わらないので、途中で制約を破ることと、最後の行の列が制約を破ることは
同じである。
-/
def normalizeTeamIds : Except SqlError StoredQueue :=
  if h : q.shape.hasTeamId ∧ q.shape.Admits (q.rows.map StoredRow.normalized) then
    .ok
      { shape := q.shape
        rows := q.rows.map StoredRow.normalized
        ids := by
          rw [List.map_map]
          exact q.ids
        admitted := h.2
        teamColumn := fun hteam => absurd h.1 (by simp [hteam])
        projectColumn := by
          intro hproject r hr
          obtain ⟨r₀, hr₀, rfl⟩ := List.mem_map.mp hr
          exact q.projectColumn hproject r₀ hr₀ }
  else .error .uniqueConstraint

/-- `GROUP BY entity_type, entity_id, team_id, COALESCE(project_id, '')` の組で、番号が最も大きい行。 -/
def newestOfGroup (r : StoredRow) : Bool :=
  q.rows.all fun r' => r'.identity ≠ r.identity || r'.teamId ≠ r.teamId || r'.id ≤ r.id

/-- `DELETE FROM sync_queue WHERE id NOT IN (SELECT MAX(id) FROM sync_queue GROUP BY …)`。 -/
def dropDuplicates : StoredQueue where
  shape := q.shape
  rows := q.rows.filter q.newestOfGroup
  ids := (List.Sublist.map StoredRow.id List.filter_sublist).nodup q.ids
  admitted :=
    have hsub {κ : Type} {key : StoredRow → Option κ} (h : UniqueOn key q.rows) :
        UniqueOn key (q.rows.filter q.newestOfGroup) :=
      fun r hr r' hr' => h r (List.mem_of_mem_filter hr) r' (List.mem_of_mem_filter hr')
    ⟨fun h => hsub (q.admitted.1 h), fun h => hsub (q.admitted.2 h)⟩
  teamColumn := fun h r hr => q.teamColumn h r (List.mem_of_mem_filter hr)
  projectColumn := fun h r hr => q.projectColumn h r (List.mem_of_mem_filter hr)

/-- `CREATE UNIQUE INDEX IF NOT EXISTS idx_sync_queue_entity_team_project`。 -/
def createIdentityIndex : Except SqlError StoredQueue :=
  if q.shape.identityIndex then .ok q
  else if h : UniqueOn StoredRow.identityKey q.rows then
    .ok
      { q with
        shape := { q.shape with identityIndex := true }
        admitted := ⟨q.admitted.1, fun _ => h⟩ }
  else .error .uniqueConstraint

/-- 列を足し、足した表を作り直す。 -/
def addColumns : StoredQueue :=
  let added := if q.shape.hasTeamId then q else q.addTeamId
  let added := if q.shape.hasProjectId then added else added.addProjectId
  if q.shape.hasTeamId && q.shape.hasProjectId then added else added.rebuild

/-- `migrate_team_id`。 -/
def migrateTeamId : Except SqlError StoredQueue := do
  let q := q.addColumns
  let hasNullTeam := q.hasNullTeam
  let hasIdentityIndex := q.shape.identityIndex
  let q ← if hasNullTeam then q.normalizeTeamIds else .ok q
  let q := if hasNullTeam || !hasIdentityIndex then q.dropDuplicates else q
  q.createIdentityIndex

end StoredQueue

end Cassy
