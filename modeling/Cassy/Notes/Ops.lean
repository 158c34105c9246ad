import Cassy.Infra.Run
import Cassy.Delivery.Correction

/-!
# notes を書く操作

`task_store.rs` の、`tasks.notes` を書く操作。task を丸ごと書く操作（`add`・`update`・
`update_from_sync`・`reopen_exact`）と `append_note` は信用されず、書く前に
`neutralize_new_markers` を通す。`append_trusted_note` だけが予約行をそのまま書ける。

丸ごとの更新は、書く notes に予約行があるときだけ、前の notes を読んで突き合わせる。
-/

namespace Cassy

open Infra

/-- `Task::is_terminal`。 -/
def Task.isTerminal (t : Task) : Bool := t.status = .closed ∨ t.status = .cancelled

/-- `Option<Value>` の `==`。 -/
def sameValue : Option Json → Option Json → Bool
  | some v, some w => v.same w
  | none, none => true
  | _, _ => false

/--
二つの deliverables を `to_value` した JSON の `==`。

`Value` の項目だけは JSON としての等しさで比べ、残りは値の等しさと一致する。
-/
def TaskDeliverables.sameJson (d other : TaskDeliverables) : Bool :=
  sameValue d.modelEval other.modelEval ∧ sameValue d.phaseOutcome other.phaseOutcome
    ∧ { d with modelEval := none, phaseOutcome := none }
      = { other with modelEval := none, phaseOutcome := none }

/-- `Task::lifecycle_matches`。 -/
def Task.lifecycleMatches (t other : Task) : Bool :=
  t.status = other.status ∧ t.closedAt = other.closedAt ∧ t.closeReason = other.closeReason
    ∧ t.assignee = other.assignee ∧ t.branch = other.branch ∧ t.worktreeId = other.worktreeId
    ∧ t.pendingVerification = other.pendingVerification
    ∧ t.pendingWorktreeMerge = other.pendingWorktreeMerge
    ∧ t.terminalOutcome = other.terminalOutcome
    ∧ (t.deliverables.getD {}).sameJson (other.deliverables.getD {})

/-- 終わった task を終わっていない状態に戻すか。`prior` は状態が変わるときの前の状態。 -/
def reopensTerminal (prior : Option TaskStatus) (t : Task) : Bool :=
  (prior = some .closed ∨ prior = some .cancelled) ∧ ¬ t.isTerminal

/-- `update_checked` が書く deliverables。 -/
def persistedDeliverables (prior : Option TaskStatus) (t : Task) : TaskDeliverables :=
  let d := t.deliverables.getD {}
  let reopening := reopensTerminal prior t
  -- merge 待ちから作業に戻るときは、止めていた branch の印も落とす。
  let resuming := prior = some .awaitingMerge ∧ t.status = .inProgress
  let leaving := (prior = some .awaitingMerge ∨ prior = some .blocked)
    ∧ ¬ (t.status = .closed ∨ t.status = .blocked ∨ t.status = .awaitingMerge)
  let d := if reopening ∨ resuming then d.retainFactoryBranchAnchorAsHistory else d
  let d := if reopening then { d with negativeResult := none, evidenceOnly := none } else d
  let d := if resuming then { d with parkedBranch := none, mergeConflicted := false } else d
  if reopening ∨ leaving then
    { d with parkedCloseReason := none, greenMergeCommit := none, mergeCiAdmission := none }
  else d

/-- `UPDATE tasks SET …` が書く行。行の作成時刻は変わらず、空の由来は前の由来を残す。 -/
def writtenTask (task stored : Task) : Task :=
  { task with
    id := stored.id, scope := stored.scope, createdAt := stored.createdAt
    originProject := task.originProject.or stored.originProject }

/-- 丸ごとの更新が書く notes。 -/
def safeNotes (notes : Text) (stored : Option Text) : Text :=
  neutralizeNewMarkers notes (if (lines notes).any isReservedLine then stored else none)

/-- `update_checked` が `stored` の行に書く行。 -/
def persistedTask (task stored : Task) (stamp : Time) : Task :=
  let prior := if stored.status = task.status then none else some stored.status
  { writtenTask task stored with
    notes := safeNotes task.notes (some stored.notes)
    deliverables := some (persistedDeliverables prior task)
    terminalOutcome := if reopensTerminal prior task then none else task.terminalOutcome
    updatedAt := stamp }

namespace ProofDb

variable (parseTimestamp : Text → Bool) (db : ProofDb)

/-- task の行を書き換える。 -/
def updateTask (id : String) (f : Task → Task)
    (hf : ∀ t, (f t).id = t.id := by exact fun _ => rfl) : ProofDb :=
  { db with base := { db.base with tasks := db.base.tasks.update (fun t => t.id = id) f hf } }

/-! ## 丸ごとの書き込み -/

/-- `add`。 -/
def addTask (task : Task) : Except StoreError (Unit × ProofDb) := do
  let tasks ← okOr (db.base.tasks.insert?
      { task with notes := neutralizeNewMarkers task.notes none }) (uniqueFailed "tasks.id")
  pure ((), { db with base := { db.base with tasks } })

/-- `delivery_owns_task_lifecycle`。 -/
def deliveryOwnsTaskLifecycle (taskId : String) : Bool :=
  (firstBest (fun x y => decide (y.2.createdAt < x.2.createdAt
      ∨ (x.2.createdAt = y.2.createdAt ∧ y.2.id < x.2.id)))
    (db.transactions.rows.filterMap fun t =>
      if t.taskId = taskId then (db.receipts.find? t.receiptId).map fun r => (t, r)
      else none)).any fun x => x.1.state ≠ .delivered

/-- 進行中の task の持ち主が、期限内の lease を握っているか。 -/
def leaseProtects (taskId : String) (assignee : Option String) (now : Time) : Bool :=
  (db.base.taskLeases.find? taskId).any fun l => l.status = .active && now < l.expiresAt
    && (db.base.agents.find? l.agentId).any fun a => assignee = some a.id ∨ assignee = some a.name

/-- `update_checked` が、期待と合わない更新を断るか。 -/
def updateRefused (task : Task) (expected : Option Task) (fromSync : Bool) (leaseAt : Time) :
    Except StoreError Bool :=
  match expected with
  | none => .ok false
  | some expected => do
    ensure (expected.id = task.id) (.parse "task expectation names a different task")
    let current ← okOr (db.base.tasks.find? task.id) (.taskNotFound task.id)
    pure (decide (current.updatedAt ≠ expected.updatedAt ∨ current.status ≠ expected.status
      ∨ (fromSync ∧ ¬ task.lifecycleMatches expected ∧ db.deliveryOwnsTaskLifecycle task.id)
      ∨ (fromSync ∧ expected.status = .inProgress ∧ ¬ task.isTerminal
        ∧ (task.status = .open ∨ task.assignee ≠ expected.assignee)
        ∧ db.leaseProtects task.id expected.assignee leaseAt)))

/-- 更新が刻む時刻。sync は届いた時計を使い、local の時計は戻さない。 -/
def updateStamp (task : Task) (expected : Option Task) (fromSync : Bool) (now : Time) : Time :=
  match fromSync, expected with
  | true, some e => max task.updatedAt e.updatedAt
  | _, _ => now

/-- `update_checked`。断られたら `none`。 -/
def updateChecked (task : Task) (expected : Option Task) (fromSync : Bool)
    (leaseAt now : Time) : Except StoreError (Option Time × ProofDb) := do
  let refused ← db.updateRefused task expected fromSync leaseAt
  if refused then pure (none, db)
  else
    ensure (db.base.tasks.find? task.id).isSome (.taskNotFound task.id)
    let stamp := updateStamp task expected fromSync now
    pure (some stamp, db.updateTask task.id fun t => persistedTask task t stamp)

/-- `update_from_sync`。 -/
def updateFromSync (task expected : Task) (leaseAt now : Time) :
    Except StoreError (Option Time × ProofDb) :=
  db.updateChecked task (some expected) true leaseAt now

/-- `update_if_current_with_mutation_receipt`。断られたら落ちる。 -/
def updateIfCurrent (task expected : Task) (now : Time) :
    Except StoreError (Option Time × ProofDb) := do
  let (stamp, db) ← db.updateChecked task (some expected) false now now
  let id := task.id
  let stamp ← okOr stamp (.other s!"task changed since close snapshot for {id}; park refused (request_changes or another task update may have won). Reload the task before retrying close")
  pure (some stamp, db)

/-- `reopen_exact_with_conn`。 -/
def reopenExact (task : Task) (expectedStatus : TaskStatus) (expectedUpdatedAt : Time) :
    Except StoreError (Unit × ProofDb) := do
  let current ← okOr ((db.base.tasks.find? task.id).filter fun t =>
      t.status = expectedStatus ∧ t.updatedAt = expectedUpdatedAt)
    (.parse "exact task reopen raced with another task mutation")
  pure ((), db.updateTask task.id fun t =>
    { writtenTask task t with
      notes := safeNotes task.notes (some current.notes)
      deliverables := some (task.deliverables.getD {}) })

/-! ## 追記 -/

/-- `CASE WHEN notes = '' THEN ? ELSE notes || char(10) || char(10) || ? END`。 -/
def appendedNotes (notes note : Text) : Text :=
  if notes.isEmpty then note else notes ++ '\n' :: '\n' :: note

/-- `append_note`。 -/
def appendNote (taskId : String) (note : Text) (now : Time) :
    Except StoreError (Time × ProofDb) := do
  let current ← okOr (db.base.tasks.find? taskId) (.taskNotFound taskId)
  pure (now, db.updateTask taskId fun t =>
    { t with
      notes := appendedNotes current.notes (neutralizeNewMarkers note none), updatedAt := now })

/-- 信用された追記が notes を置き換えるか。`.ok none` なら末尾に足す。 -/
def trustedReplacement (notes note : Text) : Except StoreError (Option Text) :=
  if beginServerAttested.isPrefixOf note then .ok (some (replaceRenderedProvenance notes note))
  else
    match replaceRawArtifactNote parseTimestamp notes note with
    | .ok replacement => .ok replacement
    | .error () => .error (.other "byte index is not a char boundary")

/-- `append_trusted_note`。既に行として残っているものは書かない。 -/
def appendTrustedNote (taskId : String) (note : Text) (now : Time) :
    Except StoreError (Time × ProofDb) := do
  let current ← okOr (db.base.tasks.find? taskId) (.taskNotFound taskId)
  let replacement ← trustedReplacement parseTimestamp current.notes note
  -- 同じものを二度追記しても、notes も時刻も変わらない。
  if replacement = some current.notes
      ∨ (replacement = none ∧ containsCompleteLines current.notes note) then
    pure (current.updatedAt, db)
  else
    pure (now, db.updateTask taskId fun t =>
      { t with
        notes := replacement.getD (appendedNotes current.notes note), updatedAt := now })

end ProofDb

/-! ## 操作の一覧 -/

/-- notes を書く操作。 -/
inductive NoteOp where
  | add (task : Task)
  | update (task : Task) (now : Time)
  | updateIfCurrent (task expected : Task) (now : Time)
  | updateFromSync (task expected : Task) (leaseAt now : Time)
  | reopenExact (task : Task) (expectedStatus : TaskStatus) (expectedUpdatedAt : Time)
  | appendNote (taskId : String) (note : Text) (now : Time)
  | appendTrustedNote (taskId : String) (note : Text) (now : Time)

/-- 操作の本体。 -/
def NoteOp.body (parseTimestamp : Text → Bool) (db : ProofDb) :
    NoteOp → Except StoreError (Option Time × ProofDb)
  | add task => mapResult (fun _ => none) (db.addTask task)
  | update task now => db.updateChecked task none false now now
  | updateIfCurrent task expected now => db.updateIfCurrent task expected now
  | updateFromSync task expected leaseAt now =>
    db.updateFromSync task expected leaseAt now
  | reopenExact task expectedStatus expectedUpdatedAt =>
    mapResult (fun _ => none) (db.reopenExact task expectedStatus expectedUpdatedAt)
  | appendNote taskId note now => mapResult some (db.appendNote taskId note now)
  | appendTrustedNote taskId note now =>
    mapResult some (db.appendTrustedNote parseTimestamp taskId note now)

/-- 一つの操作を実行する。 -/
def noteStep (parseTimestamp : Text → Bool) (db : ProofDb) (op : NoteOp) :
    Except StoreError (Option Time) × ProofDb := commit db (op.body parseTimestamp db)

end Cassy
