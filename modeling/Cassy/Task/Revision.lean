import Cassy.Task.Dependency
import Cassy.Notes.Ops

/-!
# task の版と受領書

`task_store.rs` は task の id ごとに版 `task_mutation_revisions` を持つ。版を進めるのは
Rust の関数ではなく、`tasks` の挿入・更新・削除に付いた三つの trigger である。版の行は
task が消えても残るので、id を使い回しても前の版には戻らない。

受領書 `task_mutation_receipts` は、書き込みと同じ transaction の中で版を読み返して作る。

task の行を書く操作はどれも一つの transaction で、その中で `tasks` に触る文は高々一つ、
触る行も一つである。操作の本体は前からあるものを使い、trigger の分だけを足す。
画面向けの event と `task_execution_states` は版に関わらないので省く。
-/

namespace Cassy

open Infra

/-- `task_mutation_revisions` の行。版は 1 から始まり、一度の書き込みで 1 進む。 -/
structure MutationRevision where
  entityId : String
  revision : Nat
  present : Bool
  deriving DecidableEq, Repr

/-- `task_mutation_receipts` の行。 -/
structure MutationReceipt where
  receiptId : String
  entityId : String
  revision : Nat
  createdAt : Time
  deriving DecidableEq, Repr

/-- 版と受領書まで含めた database。 -/
structure RevisionDb where
  proof : ProofDb := {}
  revisions : Table MutationRevision.entityId := .empty
  receipts : Table MutationReceipt.receiptId := .empty

/-- `task_with_default_origin`。 -/
def taskWithDefaultOrigin (origin : Option String) (task : Task) : Task :=
  { task with originProject := task.originProject.or origin }

/-- `id.trim()` のうち空でないもの。 -/
def trimmedId? (id : String) : Option String :=
  if nonBlank id then some (String.ofList (trim id.toList)) else none

namespace RevisionDb

variable (s : RevisionDb)

/-- task の行。 -/
def row? (id : String) : Option Task := s.proof.base.tasks.find? id

/-- 記録されている版。まだ一度も書かれていない id は 0 とする。 -/
def revision (id : String) : Nat := ((s.revisions.find? id).map MutationRevision.revision).getD 0

/-- 記録されている在否。 -/
def present (id : String) : Bool := (s.revisions.find? id).any MutationRevision.present

/-! ## trigger -/

/-- `INSERT INTO task_mutation_revisions … ON CONFLICT(entity_id) DO UPDATE`。 -/
def bump (id : String) (present : Bool) : RevisionDb :=
  match s.revisions.find? id with
  | none =>
    { s with revisions := s.revisions.insertOrIgnore { entityId := id, revision := 1, present } }
  | some _ =>
    { s with
      revisions := s.revisions.update (fun r => r.entityId = id) fun r =>
        { r with revision := r.revision + 1, present } }

/-- `task_mutation_revision_after_insert`。 -/
def afterInsert (id : String) : RevisionDb := s.bump id true

/-- `task_mutation_revision_after_update`。 -/
def afterUpdate (id : String) : RevisionDb := s.bump id true

/-- `task_mutation_revision_after_delete`。 -/
def afterDelete (id : String) : RevisionDb := s.bump id false

/-- `init` が流す `TASK_REVISION_BACKFILL`。版の無い task に版を与える。 -/
def backfill : RevisionDb :=
  { s with
    revisions := s.proof.base.tasks.rows.foldl
      (fun t task => t.insertOrIgnore { entityId := task.id, revision := 1, present := true })
      s.revisions }

/-! ## 受領書 -/

/-- `record_mutation_receipt_with_conn`。 -/
def recordMutationReceipt (receiptId taskId : String) (now : Time) :
    Except StoreError RevisionDb := do
  let r ← okOr ((s.revisions.find? taskId).filter MutationRevision.present)
    (.other s!"task mutation receipt {receiptId} could not bind to {taskId}")
  let receipts ← okOr
    (s.receipts.insert?
      { receiptId, entityId := taskId, revision := r.revision, createdAt := now })
    (uniqueFailed "task_mutation_receipts.receipt_id")
  pure { s with receipts }

/-- 受領書の id があれば作る。 -/
def recordIfSome (receiptId : Option String) (taskId : String) (now : Time) :
    Except StoreError RevisionDb :=
  match receiptId with
  | none => .ok s
  | some receiptId => s.recordMutationReceipt receiptId taskId now

/-- 空の id は受領書を求めていない印である。 -/
def nonEmptyId? (receiptId : String) : Option String :=
  if receiptId.isEmpty then none else some receiptId

/-! ## 作成 -/

/-- `add_with_conn`。 -/
def addWithConn (task : Task) : Except StoreError RevisionDb := do
  let (_, proof) ← s.proof.addTask task
  pure (afterInsert { s with proof } task.id)

/-- `add` と `add_with_mutation_receipt`。 -/
def add (origin : Option String) (task : Task) (receiptId : Option String) (now : Time) :
    Except StoreError (Option Time × RevisionDb) := do
  let s ← s.addWithConn (taskWithDefaultOrigin origin task)
  let s ← s.recordIfSome receiptId task.id now
  pure (none, s)

/-- 親にする task が epic であることの検査。 -/
def checkEpic (epicId : String) : Except StoreError Unit := do
  let epic ← okOr (s.row? epicId) (.taskNotFound epicId)
  let taskType := epic.taskType.toString
  ensure (taskType = "epic") (.parse s!"Task {epicId} is not an epic (type: {taskType})")

/-- 閉路を検査しない `add_dependency_with_conn`。 -/
def addDependencyUnchecked (dep : Dependency) : Except StoreError RevisionDb := do
  s.proof.base.validateTaskExists dep.fromId
  s.proof.base.validateTaskExists dep.toId
  pure { s with proof := { s.proof with base := s.proof.base.insertDependency dep } }

/-- 作った task の依存を順に挿す。 -/
def addDependencies (s : RevisionDb) : List Dependency → Except StoreError RevisionDb
  | [] => .ok s
  | dep :: deps => do
    let s ← s.addDependencyUnchecked dep
    s.addDependencies deps

/-- `create_atomic_with_optional_receipt` が挿す依存。先に `blocks`、後に親。 -/
def createdDependencies (taskId : String) (blockedBy : List String) (epicId : Option String)
    (createdBy : Option String) (now : Time) : List Dependency :=
  let dep := fun depType toId =>
    { fromId := taskId, toId, depType, createdAt := now, createdBy : Dependency }
  (blockedBy.filterMap trimmedId?).map (dep .blocks)
    ++ epicId.toList.map (dep .parentChild)

/-- `create_atomic_with_optional_receipt`。 -/
def createAtomic (origin : Option String) (task : Task) (blockedBy : List String)
    (epicId createdBy receiptId : Option String) (now : Time) :
    Except StoreError (Option Time × RevisionDb) := do
  let epicId := epicId.bind trimmedId?
  epicId.forM s.checkEpic
  let s ← s.addWithConn (taskWithDefaultOrigin origin task)
  let s ← s.addDependencies (createdDependencies task.id blockedBy epicId createdBy now)
  let s ← s.recordIfSome receiptId task.id now
  pure (none, s)

/-! ## 更新 -/

/-- task の行を一つ書き換える操作に、trigger と受領書を足す。`none` は断られた更新である。 -/
def updating (body : Except StoreError (Option Time × ProofDb)) (taskId : String)
    (receiptId : Option String) (now : Time) : Except StoreError (Option Time × RevisionDb) := do
  match ← body with
  | (none, proof) => pure (none, { s with proof })
  | (some stamp, proof) =>
    let s ← (afterUpdate { s with proof } taskId).recordIfSome receiptId taskId now
    pure (some stamp, s)

/-- `update_with_mutation_receipt`。 -/
def update (task : Task) (receiptId : String) (now : Time) :
    Except StoreError (Option Time × RevisionDb) :=
  s.updating (s.proof.updateChecked task none false now now) task.id (nonEmptyId? receiptId) now

/-- `update_if_current_with_mutation_receipt`。 -/
def updateIfCurrent (task expected : Task) (receiptId : String) (now : Time) :
    Except StoreError (Option Time × RevisionDb) :=
  s.updating (s.proof.updateIfCurrent task expected now) task.id (nonEmptyId? receiptId) now

/-- `update_from_sync`。受領書は作らない。 -/
def updateFromSync (task expected : Task) (leaseAt now : Time) :
    Except StoreError (Option Time × RevisionDb) :=
  s.updating (s.proof.updateFromSync task expected leaseAt now) task.id none now

/-- `reopen_exact_with_conn`。呼び出し側の transaction の中で流れ、受領書は作らない。 -/
def reopenExact (task : Task) (expectedStatus : TaskStatus) (expectedUpdatedAt : Time) :
    Except StoreError (Option Time × RevisionDb) := do
  let (_, proof) ← s.proof.reopenExact task expectedStatus expectedUpdatedAt
  pure (none, afterUpdate { s with proof } task.id)

/-- `append_note_with_mutation_receipt`。 -/
def appendNote (taskId : String) (note : Text) (receiptId : String) (now : Time) :
    Except StoreError (Option Time × RevisionDb) :=
  s.updating (mapResult some (s.proof.appendNote taskId note now)) taskId
    (nonEmptyId? receiptId) now

/-- 信用された追記の文が、notes にもう立っているか。 -/
def trustedNoteStands (parseTimestamp : Text → Bool) (notes note : Text) : Bool :=
  match ProofDb.trustedReplacement parseTimestamp notes note with
  | .ok replacement => replacement = some notes
    ∨ (replacement = none ∧ containsCompleteLines notes note)
  | .error _ => false

/-- `append_trusted_note_with_mutation_receipt`。もう立っている文は書かないが、受領書は作る。 -/
def appendTrustedNote (parseTimestamp : Text → Bool) (taskId : String) (note : Text)
    (receiptId : String) (now : Time) : Except StoreError (Option Time × RevisionDb) := do
  let (stamp, proof) ← s.proof.appendTrustedNote parseTimestamp taskId note now
  let stands := (s.row? taskId).any fun t => trustedNoteStands parseTimestamp t.notes note
  let s := if stands then { s with proof } else afterUpdate { s with proof } taskId
  let s ← s.recordIfSome (nonEmptyId? receiptId) taskId now
  pure (some stamp, s)

/-! ## 削除 -/

/-- `delete`。 -/
def delete (id : String) : Except StoreError (Option Time × RevisionDb) := do
  let (_, base) ← s.proof.base.deleteTask id
  pure (none, afterDelete { s with proof := { s.proof with base } } id)

end RevisionDb

/-! ## 操作の一覧 -/

/-- task の行を書く操作。 -/
inductive TaskOp where
  | add (task : Task) (receiptId : Option String) (now : Time)
  | createAtomic (task : Task) (blockedBy : List String)
      (epicId createdBy receiptId : Option String) (now : Time)
  | update (task : Task) (receiptId : String) (now : Time)
  | updateIfCurrent (task expected : Task) (receiptId : String) (now : Time)
  | updateFromSync (task expected : Task) (leaseAt now : Time)
  | reopenExact (task : Task) (expectedStatus : TaskStatus) (expectedUpdatedAt : Time)
  | appendNote (taskId : String) (note : Text) (receiptId : String) (now : Time)
  | appendTrustedNote (taskId : String) (note : Text) (receiptId : String) (now : Time)
  | delete (id : String)

namespace TaskOp

/-- 書く相手の task。 -/
def taskId : TaskOp → String
  | add task _ _ | createAtomic task _ _ _ _ _ | update task _ _ | updateIfCurrent task _ _ _
  | updateFromSync task _ _ _ | reopenExact task _ _ => task.id
  | appendNote taskId _ _ _ | appendTrustedNote taskId _ _ _ => taskId
  | delete id => id

/-- 求められた受領書の id。 -/
def receiptId? : TaskOp → Option String
  | add _ receiptId _ | createAtomic _ _ _ _ receiptId _ => receiptId
  | update _ receiptId _ | updateIfCurrent _ _ receiptId _ | appendNote _ _ receiptId _
  | appendTrustedNote _ _ receiptId _ => RevisionDb.nonEmptyId? receiptId
  | updateFromSync _ _ _ _ | reopenExact _ _ _ | delete _ => none

/-- 操作の本体。`origin` は store を開いたときの project である。 -/
def body (parseTimestamp : Text → Bool) (origin : Option String) (s : RevisionDb) :
    TaskOp → Except StoreError (Option Time × RevisionDb)
  | add task receiptId now => s.add origin task receiptId now
  | createAtomic task blockedBy epicId createdBy receiptId now =>
    s.createAtomic origin task blockedBy epicId createdBy receiptId now
  | update task receiptId now => s.update task receiptId now
  | updateIfCurrent task expected receiptId now => s.updateIfCurrent task expected receiptId now
  | updateFromSync task expected leaseAt now => s.updateFromSync task expected leaseAt now
  | reopenExact task expectedStatus expectedUpdatedAt =>
    s.reopenExact task expectedStatus expectedUpdatedAt
  | appendNote taskId note receiptId now => s.appendNote taskId note receiptId now
  | appendTrustedNote taskId note receiptId now =>
    s.appendTrustedNote parseTimestamp taskId note receiptId now
  | delete id => s.delete id

end TaskOp

/-- 一つの操作を実行する。 -/
def taskStep (parseTimestamp : Text → Bool) (origin : Option String) (s : RevisionDb)
    (op : TaskOp) : Except StoreError (Option Time) × RevisionDb :=
  commit s (op.body parseTimestamp origin s)

end Cassy
