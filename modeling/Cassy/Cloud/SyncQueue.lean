import Cassy.Infra.Json
import Cassy.Infra.Table
import Cassy.Store.Types
import Cassy.Cloud.ProjectId

/-!
# 送信待ちの列

`cloud/sync_queue/` の `queue_ops.rs` と `maintenance.rs`。手元の変更は `sync_queue` の行として待ち、push が読んで
cloud に送る。

行の素性は `(entity_type, entity_id, team_id, project_id)` で、同じ素性の変更は行を増やさず、その行の中身を
置き換える。番号 `id` は置き換えでは変わらず、消えた行の番号は二度と使われない。この三つを `SyncQueue` の
field に持たせる。

payload の JSON を読む関数と、手元の project に登録された別名は `QueueEnv` が与える。
-/

namespace Cassy

open Infra

/-! ## 行 -/

/-- `EntityType`。 -/
inductive EntityType where
  | entry | task | rule | skill | session | verification | event | prompt | fileChange
  | commitLink | agent | worktree | taskDependency | knowledgePage
  deriving DecidableEq, Repr

/-- `SyncOperation`。 -/
inductive SyncOperation where
  | upsert | delete
  deriving DecidableEq, Repr

/-- `sync_queue` の行。`team_id` は個人の行で空である。 -/
structure QueueRow where
  id : Nat
  entityType : EntityType
  entityId : String
  operation : SyncOperation
  payload : Option String := none
  teamId : String := ""
  projectId : Option String := none
  createdAt : Time
  retryCount : Nat := 0
  lastError : Option String := none
  lastOutcome : Option String := none
  lastReason : Option String := none
  deriving DecidableEq, Repr

/-- `idx_sync_queue_entity_team_project` の見る素性。 -/
structure QueueIdentity where
  entityType : EntityType
  entityId : String
  teamId : String
  projectId : String
  deriving DecidableEq, Repr

/-- 行の素性。`COALESCE(project_id, '')`。 -/
def QueueRow.identity (r : QueueRow) : QueueIdentity where
  entityType := r.entityType
  entityId := r.entityId
  teamId := r.teamId
  projectId := r.projectId.getD ""

/-- 行の中身。 -/
def QueueRow.content (r : QueueRow) : SyncOperation × Option String := (r.operation, r.payload)

/-- `QueuedSync`。読み出した行の写し。 -/
structure QueuedSync where
  id : Nat
  entityType : EntityType
  entityId : String
  operation : SyncOperation
  payload : Option String
  teamId : Option String
  projectId : Option String
  createdAt : Time
  retryCount : Nat
  lastError : Option String
  lastOutcome : Option String
  lastReason : Option String
  deriving DecidableEq, Repr

/-- 写しの中身。 -/
def QueuedSync.content (item : QueuedSync) : SyncOperation × Option String :=
  (item.operation, item.payload)

/-- `SyncQueue::map_row`。空の `team_id` と空白だけの `project_id` は無いものとして読む。 -/
def QueueRow.mapRow (r : QueueRow) : QueuedSync where
  id := r.id
  entityType := r.entityType
  entityId := r.entityId
  operation := r.operation
  payload := r.payload
  teamId := if r.teamId = "" then none else some r.teamId
  projectId := r.projectId.filter nonBlank
  createdAt := r.createdAt
  retryCount := r.retryCount
  lastError := r.lastError
  lastOutcome := r.lastOutcome
  lastReason := r.lastReason

/-! ## 表 -/

/-- `sync_queue` の表。`nextId` は `AUTOINCREMENT` の次の番号。 -/
structure SyncQueue where
  table : Table QueueRow.id
  nextId : Nat
  unique : (table.rows.map QueueRow.identity).Nodup
  fresh : ∀ r ∈ table.rows, r.id < nextId

namespace SyncQueue

/-- 行の列。 -/
abbrev rows (q : SyncQueue) : List QueueRow := q.table.rows

/-- 行の無い表。 -/
def empty : SyncQueue where
  table := Table.empty
  nextId := 1
  unique := List.nodup_nil
  fresh := by simp [Table.empty]

instance : Inhabited SyncQueue := ⟨empty⟩

/-- `UPDATE sync_queue SET f WHERE p`。番号も素性も変えない。 -/
def update (q : SyncQueue) (p : QueueRow → Bool) (f : QueueRow → QueueRow)
    (hid : ∀ r, (f r).id = r.id) (hident : ∀ r, p r → (f r).identity = r.identity) :
    SyncQueue where
  table := q.table.update p f hid
  nextId := q.nextId
  unique := by
    have hmap : (q.table.update p f hid).rows.map QueueRow.identity
        = q.table.rows.map QueueRow.identity := by
      rw [Table.update, List.map_map]
      refine List.map_congr_left fun r _ => ?_
      by_cases hr : p r
      · simp [hr, hident r hr]
      · simp [hr]
    rw [hmap]
    exact q.unique
  fresh := by
    intro r hr
    obtain ⟨r₀, hr₀, rfl⟩ := List.mem_map.mp hr
    split
    · rw [hid]
      exact q.fresh r₀ hr₀
    · exact q.fresh r₀ hr₀

/-- `DELETE FROM sync_queue WHERE p`。 -/
def delete (q : SyncQueue) (p : QueueRow → Bool) : SyncQueue where
  table := q.table.delete p
  nextId := q.nextId
  unique := (List.Sublist.map QueueRow.identity List.filter_sublist).nodup q.unique
  fresh := fun r hr => q.fresh r (List.mem_of_mem_filter hr)

/-- 新しい番号で一行を足す。 -/
def insert (q : SyncQueue) (row : Nat → QueueRow) (hid : ∀ n, (row n).id = n)
    (hident : ∀ r ∈ q.rows, r.identity ≠ (row q.nextId).identity) : SyncQueue where
  table :=
    { rows := q.rows ++ [row q.nextId]
      nodup := by
        rw [List.map_append, List.map_singleton]
        refine List.nodup_append.mpr ⟨q.table.nodup, List.nodup_singleton _, ?_⟩
        intro a ha b hb
        obtain ⟨r, hr, rfl⟩ := List.mem_map.mp ha
        rw [List.mem_singleton.mp hb, hid]
        exact Nat.ne_of_lt (q.fresh r hr) }
  nextId := q.nextId + 1
  unique := by
    rw [List.map_append, List.map_singleton]
    refine List.nodup_append.mpr ⟨q.unique, List.nodup_singleton _, ?_⟩
    intro a ha b hb
    obtain ⟨r, hr, rfl⟩ := List.mem_map.mp ha
    rw [List.mem_singleton.mp hb]
    exact hident r hr
  fresh := by
    intro r hr
    rcases List.mem_append.mp hr with hr | hr
    · exact Nat.lt_succ_of_lt (q.fresh r hr)
    · rw [List.mem_singleton.mp hr, hid]
      exact Nat.lt_succ_self _

/-- 番号の等しい二行は同じ行である。 -/
theorem eq_of_id {q : SyncQueue} {r r' : QueueRow} (hr : r ∈ q.rows) (hr' : r' ∈ q.rows)
    (h : r.id = r'.id) : r = r' :=
  Table.eq_of_key hr hr' h

theorem mem_delete {q : SyncQueue} {p : QueueRow → Bool} {r : QueueRow} :
    r ∈ (q.delete p).rows ↔ r ∈ q.rows ∧ p r = false := by
  show r ∈ q.table.rows.filter (fun r => !p r) ↔ _
  simp

theorem mem_update {q : SyncQueue} {p : QueueRow → Bool} {f : QueueRow → QueueRow}
    {hid : ∀ r, (f r).id = r.id} {hident : ∀ r, p r → (f r).identity = r.identity}
    {r : QueueRow} :
    r ∈ (q.update p f hid hident).rows ↔ ∃ r₀ ∈ q.rows, (if p r₀ then f r₀ else r₀) = r :=
  List.mem_map

end SyncQueue

/-! ## 書き込み -/

/-- 積む変更。 -/
structure QueueWrite where
  entityType : EntityType
  entityId : String
  operation : SyncOperation
  payload : Option String := none
  teamId : String := ""
  projectId : Option String := none
  now : Time
  deriving DecidableEq, Repr

namespace QueueWrite

/-- 変更の素性。 -/
def identity (w : QueueWrite) : QueueIdentity where
  entityType := w.entityType
  entityId := w.entityId
  teamId := w.teamId
  projectId := w.projectId.getD ""

/-- 新しい行。 -/
def row (w : QueueWrite) (id : Nat) : QueueRow where
  id := id
  entityType := w.entityType
  entityId := w.entityId
  operation := w.operation
  payload := w.payload
  teamId := w.teamId
  projectId := w.projectId
  createdAt := w.now

/-- `ON CONFLICT DO UPDATE`。前の結末 `last_outcome` と `last_reason` は残る。 -/
def onto (w : QueueWrite) (r : QueueRow) : QueueRow :=
  { r with
    operation := w.operation
    payload := w.payload
    createdAt := w.now
    projectId := w.projectId
    retryCount := 0
    lastError := none }

theorem onto_identity {w : QueueWrite} {r : QueueRow} (h : r.identity = w.identity) :
    (w.onto r).identity = r.identity := by
  have hproject : r.projectId.getD "" = w.projectId.getD "" :=
    congrArg QueueIdentity.projectId h
  simp [QueueRow.identity, onto, hproject]

end QueueWrite

namespace SyncQueue

/-- `upsert_queue_row`。 -/
def upsertQueueRow (q : SyncQueue) (w : QueueWrite) : SyncQueue :=
  if h : ∃ r ∈ q.rows, r.identity = w.identity then
    q.update (fun r => r.identity = w.identity) w.onto (fun _ => rfl)
      fun _ hr => QueueWrite.onto_identity (of_decide_eq_true hr)
  else
    q.insert w.row (fun _ => rfl) fun r hr hident => h ⟨r, hr, hident⟩

/-- `remove_legacy_team_upsert_row`。 -/
def removeLegacyTeamUpsertRow (q : SyncQueue) (entityType : EntityType) (entityId teamId : String) :
    SyncQueue :=
  q.delete fun r => r.entityType = entityType ∧ r.entityId = entityId ∧ r.operation = .upsert
    ∧ r.teamId = teamId ∧ r.projectId = none

/-- `enqueue_team_move_rows`。古い project の鍵を消す行と、新しい project に書く行を並べて積む。 -/
def enqueueTeamMoveRows (q : SyncQueue) (entityType : EntityType)
    (entityId oldProjectId newProjectId payload teamId : String) (now : Time) : SyncQueue :=
  let q := q.removeLegacyTeamUpsertRow entityType entityId teamId
  let q := q.upsertQueueRow
    { entityType, entityId, operation := .delete, teamId, projectId := some oldProjectId, now }
  q.upsertQueueRow
    { entityType, entityId, operation := .upsert, payload := some payload, teamId
      projectId := some newProjectId, now }

/-! ## 行の後始末 -/

/-- 番号の行を書き換える。 -/
def updateRow (q : SyncQueue) (id : Nat) (f : QueueRow → QueueRow) (hid : ∀ r, (f r).id = r.id)
    (hident : ∀ r, (f r).identity = r.identity) : SyncQueue :=
  q.update (fun r => r.id = id) f hid fun r _ => hident r

/-- `mark_synced`。 -/
def markSynced (q : SyncQueue) (id : Nat) : SyncQueue := q.delete fun r => r.id = id

/-- `mark_failed`。 -/
def markFailed (q : SyncQueue) (id : Nat) (error : String) : SyncQueue :=
  q.updateRow id (fun r => { r with retryCount := r.retryCount + 1, lastError := some error })
    (fun _ => rfl) fun _ => rfl

/-- `park_failed`。 -/
def parkFailed (q : SyncQueue) (id : Nat) (error : String) (maxRetries : Nat) : SyncQueue :=
  q.updateRow id
    (fun r => { r with retryCount := max r.retryCount maxRetries, lastError := some error })
    (fun _ => rfl) fun _ => rfl

/-- `record_row_outcome`。 -/
def recordRowOutcome (q : SyncQueue) (id : Nat) (outcome : String) (reason : Option String) :
    SyncQueue :=
  q.updateRow id (fun r => { r with lastOutcome := some outcome, lastReason := reason })
    (fun _ => rfl) fun _ => rfl

end SyncQueue

/-! ## 手元の store と持ち主 -/

/-- `Value::get`。object でなければ無い。 -/
def Infra.Json.get? (key : String) : Json → Option Json
  | .object members => members.lookup key
  | _ => none

/-- `Value::as_str`。 -/
def Infra.Json.asStr : Json → Option String
  | .string s => some s
  | _ => none

/-- `get(key).and_then(as_str)`。 -/
def Infra.Json.getStr (key : String) (v : Json) : Option String := (v.get? key).bind Json.asStr

/-- 手元の store にある一件。 -/
structure StoredEntity where
  entityType : EntityType
  entityId : String
  originProject : Option String := none
  deriving DecidableEq, Repr

/-- 手元の store。 -/
abbrev LocalStore := List StoredEntity

namespace LocalStore

/-- `SELECT … FROM table WHERE id = ?1`。 -/
def lookupEntity (store : LocalStore) (entityType : EntityType) (entityId : String) :
    Option StoredEntity :=
  store.find? fun e => e.entityType = entityType ∧ e.entityId = entityId

end LocalStore

/-- 列が外から受け取るもの。 -/
structure QueueEnv where
  /-- `serde_json::from_str` -/
  parse : String → Option Json
  /-- 設定に登録された別名 -/
  aliasClass : List Text := []

namespace QueueEnv

variable (env : QueueEnv)

/-- payload の JSON。 -/
def payloadValue (payload : Option String) : Option Json := payload.bind env.parse

/-- `SyncQueue::queued_origin`。手元の行の持ち主が、payload の語る持ち主より先である。 -/
def queuedOrigin (store : LocalStore) (entityType : EntityType) (entityId : String)
    (payload : Option String) : Option String :=
  let stored :=
    match entityType with
    | .entry | .rule | .task =>
      (store.lookupEntity entityType entityId).bind StoredEntity.originProject
    | _ => none
  stored.or ((env.payloadValue payload).bind (Json.getStr "origin_project"))

/-- `scope` が `global` の payload。 -/
def globalScope (payload : Option String) : Bool :=
  (env.payloadValue payload).any fun v => v.getStr "scope" = some "global"

/-- 別の project に宛てた変更。 -/
def foreignTarget (projectId : Option String) (localProject : String) : Bool :=
  projectId.any fun id => !projectIdsMatch env.aliasClass id localProject

/-- 別の project が書いた変更。持ち主の分からないものを含む。 -/
def foreignOrigin (origin : Option String) (localProject : String) : Bool :=
  origin.any fun o => o = "unknown" || !projectIdsMatch env.aliasClass o localProject

/-- `enqueue_with_team_project`。手元の project のものでない変更は積まない。 -/
def enqueueWithTeamProject (store : LocalStore) (localProject : Option String) (q : SyncQueue)
    (w : QueueWrite) : SyncQueue :=
  match localProject with
  | none => q.upsertQueueRow w
  | some project =>
    if env.globalScope w.payload then q.upsertQueueRow w
    else if env.foreignTarget w.projectId project
        || env.foreignOrigin (env.queuedOrigin store w.entityType w.entityId w.payload) project then
      q
    else q.upsertQueueRow w

end QueueEnv

/-! ## push の前の掃除 -/

namespace SyncQueue

/-- `drop_queued_user_prompts`。 -/
def dropQueuedUserPrompts (env : QueueEnv) (q : SyncQueue) : SyncQueue :=
  q.delete fun r => r.entityType = .entry && (env.payloadValue r.payload).any fun v =>
    match v.get? "tags" with
    | some (.array tags) => tags.any fun tag => tag.asStr = some "user-prompt"
    | _ => false

/-- `drop_queued_pushes_for_unauthored_pulls`。帳簿は種類と名前の組の列である。 -/
def dropQueuedPushesForUnauthoredPulls (ledger : List (EntityType × String)) (q : SyncQueue) :
    SyncQueue :=
  q.delete fun r => (r.entityType, r.entityId) ∈ ledger

/--
`drop_queued_rows_with_foreign_origin`。

削除の行は、宛先だけを見る。手元の task を別の project に移した後でも、元の project の鍵を消す行は正しいからである。
-/
def dropQueuedRowsWithForeignOrigin (env : QueueEnv) (store : LocalStore) (localProject : String)
    (q : SyncQueue) : SyncQueue :=
  q.delete fun r =>
    (match r.entityType with
      | .entry | .rule | .task | .taskDependency => true
      | _ => false)
    && !env.globalScope r.payload
    && (env.foreignTarget r.projectId localProject
      || (r.operation ≠ .delete
        && env.foreignOrigin (env.queuedOrigin store r.entityType r.entityId r.payload)
          localProject))

/-- `drop_unauthored_queued_pushes`。 -/
def dropUnauthoredQueuedPushes (env : QueueEnv) (store : LocalStore)
    (ledger : List (EntityType × String)) (localProject : String) (q : SyncQueue) : SyncQueue :=
  (q.dropQueuedPushesForUnauthoredPulls ledger).dropQueuedRowsWithForeignOrigin env store
    localProject

/--
`neutralize_delete_if_local_entity_exists`。

手元に現物のある task と entry の削除の行を捨てる。ほかの種類は調べない。
-/
def neutralizeDeleteIfLocalEntityExists (store : LocalStore) (q : SyncQueue) (item : QueuedSync) :
    Bool × SyncQueue :=
  match item.entityType with
  | .entry | .task =>
    if (store.lookupEntity item.entityType item.entityId).isSome then
      (true, q.delete fun r => r.id = item.id ∧ r.operation = .delete)
    else (false, q)
  | _ => (false, q)

/-! ## 送る行の選択 -/

/-- `ORDER BY created_at ASC, id ASC`。 -/
def oldestFirst (r r' : QueueRow) : Bool :=
  r.createdAt < r'.createdAt || (r.createdAt = r'.createdAt && r.id ≤ r'.id)

/-- `EDGE_AWAITS_PENDING_ENDPOINT`。端の task がまだ待っている辺。 -/
def edgeAwaitsPendingEndpoint (env : QueueEnv) (q : SyncQueue) (maxRetries : Nat) (r : QueueRow) :
    Bool :=
  r.entityType = .taskDependency && q.rows.any fun endpoint =>
    endpoint.entityType = .task && endpoint.teamId = r.teamId
      && endpoint.retryCount < maxRetries
      && (env.payloadValue r.payload).any fun v =>
        v.getStr "from_id" = some endpoint.entityId || v.getStr "to_id" = some endpoint.entityId

/-- `pushable_pending_for_entity_type`。 -/
def pushablePendingForEntityType (env : QueueEnv) (q : SyncQueue) (entityType : Option EntityType)
    (limit maxRetries : Nat) : List QueuedSync :=
  (((q.rows.filter fun r =>
    r.retryCount < maxRetries && r.teamId = "" && r.entityType ≠ .knowledgePage
      && entityType.all (r.entityType = ·)
      && !q.edgeAwaitsPendingEndpoint env maxRetries r).mergeSort oldestFirst).take limit).map
    QueueRow.mapRow

/-- `pending_for_team`。 -/
def pendingForTeam (q : SyncQueue) (teamId : String) (limit maxRetries : Nat) : List QueuedSync :=
  (((q.rows.filter fun r => r.retryCount < maxRetries && r.teamId = teamId).mergeSort
    oldestFirst).take limit).map QueueRow.mapRow

theorem exists_row_of_mem_pushable {env : QueueEnv} {q : SyncQueue} {entityType : Option EntityType}
    {limit maxRetries : Nat} {item : QueuedSync}
    (h : item ∈ q.pushablePendingForEntityType env entityType limit maxRetries) :
    ∃ r ∈ q.rows, r.teamId = "" ∧ r.mapRow = item := by
  obtain ⟨r, hr, rfl⟩ := List.mem_map.mp h
  have hsel := List.mem_mergeSort.mp (List.mem_of_mem_take hr)
  rw [List.mem_filter] at hsel
  simp only [Bool.and_eq_true, decide_eq_true_eq] at hsel
  exact ⟨r, hsel.1, hsel.2.1.1.1.2, rfl⟩

theorem exists_row_of_mem_pendingForTeam {q : SyncQueue} {teamId : String} {limit maxRetries : Nat}
    {item : QueuedSync} (h : item ∈ q.pendingForTeam teamId limit maxRetries) :
    ∃ r ∈ q.rows, r.teamId = teamId ∧ r.mapRow = item := by
  obtain ⟨r, hr, rfl⟩ := List.mem_map.mp h
  have hsel := List.mem_mergeSort.mp (List.mem_of_mem_take hr)
  rw [List.mem_filter] at hsel
  simp only [Bool.and_eq_true, decide_eq_true_eq] at hsel
  exact ⟨r, hsel.1, hsel.2.2, rfl⟩

end SyncQueue

end Cassy
