import Cassy.Notes.Ops

/-!
# sync の書き込みと local の作業

`update_from_sync` は、届いた task を書くか、何も変えないかのどちらかである。

断る理由は三つある。行が snapshot から動いている、配達が task の進行を握っている、進行中の
task の持ち主が期限内の lease を握っている。三つ目は snapshot の担当者で判定され、届いた task が
終わっているときは問われない。持ち主自身の close が別の host から届くのを通すためである。
-/

namespace Cassy

open Infra

namespace ProofDb

variable (db : ProofDb)

/-- `assignee` と名乗る agent が、task の期限内の lease を握っている。 -/
def HoldsLease (taskId : String) (assignee : Option String) (now : Time) : Prop :=
  ∃ l a, db.base.taskLeases.find? taskId = some l ∧ l.status = .active ∧ now < l.expiresAt
    ∧ db.base.agents.find? l.agentId = some a ∧ (assignee = some a.id ∨ assignee = some a.name)

theorem leaseProtects_iff {taskId : String} {assignee : Option String} {now : Time} :
    db.leaseProtects taskId assignee now = true ↔ db.HoldsLease taskId assignee now := by
  unfold leaseProtects HoldsLease
  simp only [Option.any_eq_true, Bool.and_eq_true, decide_eq_true_eq]
  constructor
  · rintro ⟨l, hl, ⟨hs, he⟩, a, ha, hid⟩
    exact ⟨l, a, hl, hs, he, ha, hid⟩
  · rintro ⟨l, a, hl, hs, he, ha, hid⟩
    exact ⟨l, hl, ⟨hs, he⟩, a, ha, hid⟩

/-- sync の書き込みを断る理由。 -/
def SyncBlocked (task expected : Task) (leaseAt : Time) : Prop :=
  (∃ stored, db.base.tasks.find? task.id = some stored
      ∧ (stored.updatedAt ≠ expected.updatedAt ∨ stored.status ≠ expected.status))
    ∨ (db.deliveryOwnsTaskLifecycle task.id = true ∧ task.lifecycleMatches expected = false)
    ∨ (expected.status = .inProgress ∧ task.isTerminal = false
      ∧ (task.status = .open ∨ task.assignee ≠ expected.assignee)
      ∧ db.HoldsLease task.id expected.assignee leaseAt)

/-- 検査の式は、理由の有無を判定している。 -/
theorem updateRefused_of_sync {task expected stored : Task} (leaseAt : Time)
    (hid : expected.id = task.id) (hstored : db.base.tasks.find? task.id = some stored) :
    ∃ refused, db.updateRefused task (some expected) true leaseAt = .ok refused
      ∧ (refused = true ↔ db.SyncBlocked task expected leaseAt) := by
  refine ⟨_, by simp only [updateRefused, ensure_of hid, hstored, okOr_some, ok_bind]; rfl, ?_⟩
  rw [SyncBlocked, ← leaseProtects_iff, hstored]
  simp only [decide_eq_true_eq, true_and, Option.some.injEq, exists_eq_left', Bool.not_eq_true]
  tauto

/-- `update_from_sync` のすることの全部。 -/
theorem updateFromSync_cases (task expected : Task) (leaseAt now : Time) :
    (∃ e, db.updateFromSync task expected leaseAt now = .error e)
      ∨ db.updateFromSync task expected leaseAt now = .ok (none, db)
      ∨ ∃ stored, db.base.tasks.find? task.id = some stored
        ∧ ¬ db.SyncBlocked task expected leaseAt
        ∧ db.updateFromSync task expected leaseAt now
          = .ok (some (max task.updatedAt expected.updatedAt), db.updateTask task.id fun t =>
            persistedTask task t (max task.updatedAt expected.updatedAt)) := by
  unfold updateFromSync updateChecked
  by_cases hid : expected.id = task.id
  · cases hstored : db.base.tasks.find? task.id with
    | none =>
      refine Or.inl ⟨.taskNotFound task.id, ?_⟩
      simp only [updateRefused, ensure_of hid, hstored, ok_bind]
      rfl
    | some stored =>
      obtain ⟨refused, heq, hiff⟩ := db.updateRefused_of_sync leaseAt hid hstored
      rw [heq, ok_bind]
      cases refused with
      | true => exact Or.inr (Or.inl rfl)
      | false =>
        refine Or.inr (Or.inr ⟨stored, rfl, fun h => by simpa using hiff.mpr h, ?_⟩)
        rw [if_neg (by simp), ensure_of (by simp), ok_bind]
        rfl
  · refine Or.inl ⟨.parse "task expectation names a different task", ?_⟩
    simp only [updateRefused, ensure, if_neg hid]
    rfl

/-- 書かれた行を引く。 -/
theorem find?_updateTask_self {id : String} {f : Task → Task} {hf : ∀ t, (f t).id = t.id}
    {stored : Task} (h : db.base.tasks.find? id = some stored) :
    (db.updateTask id f hf).base.tasks.find? id = some (f stored) := by
  have hk : stored.id = id := Table.key_of_find? h
  simp [updateTask, h, hk]

/--
**sync の書き込みは、書くか、何も変えないかのどちらかである。**

書くときの時計は、届いた時計と snapshot の時計のどちらよりも前にならない。断る理由があれば、
必ず後者になる。
-/
theorem updateFromSync_outcome (task expected : Task) (leaseAt now : Time) :
    let r := commit db (db.updateFromSync task expected leaseAt now)
    ((∃ stored stamp, db.base.tasks.find? task.id = some stored
          ∧ expected.updatedAt ≤ stamp ∧ task.updatedAt ≤ stamp
          ∧ r.1 = .ok (some stamp)
          ∧ r.2 = db.updateTask task.id (fun t => persistedTask task t stamp)
          ∧ r.2.base.tasks.find? task.id = some (persistedTask task stored stamp))
        ∨ ((r.1 = .ok none ∨ ∃ e, r.1 = .error e) ∧ r.2 = db))
      ∧ (db.SyncBlocked task expected leaseAt →
        (r.1 = .ok none ∨ ∃ e, r.1 = .error e) ∧ r.2 = db) := by
  intro r
  rcases db.updateFromSync_cases task expected leaseAt now with ⟨e, h⟩ | h | ⟨stored, hs, hb, h⟩
  · have hr : r = (.error e, db) := by
      show commit db _ = _
      rw [h, commit_error]
    rw [hr]
    exact ⟨Or.inr ⟨Or.inr ⟨e, rfl⟩, rfl⟩, fun _ => ⟨Or.inr ⟨e, rfl⟩, rfl⟩⟩
  · have hr : r = (.ok none, db) := by
      show commit db _ = _
      rw [h, commit_ok]
    rw [hr]
    exact ⟨Or.inr ⟨Or.inl rfl, rfl⟩, fun _ => ⟨Or.inl rfl, rfl⟩⟩
  · have hr : r = (.ok (some (max task.updatedAt expected.updatedAt)), db.updateTask task.id
        fun t => persistedTask task t (max task.updatedAt expected.updatedAt)) := by
      show commit db _ = _
      rw [h, commit_ok]
    refine ⟨Or.inl ⟨stored, _, hs, Int.le_max_right _ _, Int.le_max_left _ _, ?_, ?_, ?_⟩,
      fun hblocked => absurd hblocked hb⟩
    · rw [hr]
    · rw [hr]
    · rw [hr]
      exact db.find?_updateTask_self hs

end ProofDb

/-! ## 生きている lease を越えて替わる担当 -/

/-- 届いた task が、期限内の lease を握っている担当者から task を取り上げる。 -/
def ProofDb.ReassignsHeld (db : ProofDb) (task expected : Task) (now : Time) : Prop :=
  db.base.tasks.find? task.id = some expected
    ∧ db.HoldsLease task.id expected.assignee now
    ∧ task.assignee ≠ expected.assignee
    ∧ (commit db (db.updateFromSync task expected now now)).1 = .ok (some task.updatedAt)
    ∧ ((commit db (db.updateFromSync task expected now now)).2.base.tasks.find? task.id).map
      Task.assignee = some task.assignee

/-- `w1` が担当する task。 -/
def workersTask (status : TaskStatus) : Task :=
  { id := "cas-a1b2", status, assignee := some "w1", updatedAt := 5 }

/-- `w1` がその task の lease を握っている。 -/
def leasedDb (status : TaskStatus) : ProofDb where
  base := {
    agents := ⟨[{ id := "w1", name := "swift-fox", registeredAt := 0, lastHeartbeat := 0 }],
      by decide⟩
    tasks := Table.empty.insertOrIgnore (workersTask status)
    taskLeases := ⟨[{ taskId := "cas-a1b2", agentId := "w1", status := .active, acquiredAt := 5
                      expiresAt := 1000, renewedAt := 5, renewalCount := 0, epoch := 1
                      claimReason := none }], by decide⟩ }

/-- 別の担当者のものとして届いた task。 -/
def foreignTask (status : TaskStatus) : Task :=
  { id := "cas-a1b2", status, assignee := some "w2", updatedAt := 7 }

/--
持ち主の lease が生きていても、担当は書き換わる。

終わった task として届いたときと、手元の task が進行中でないときである。
-/
theorem foreignClose_reassigns :
    (leasedDb .inProgress).ReassignsHeld (foreignTask .closed) (workersTask .inProgress) 10
      ∧ (leasedDb .blocked).ReassignsHeld (foreignTask .blocked) (workersTask .blocked) 10 := by
  refine ⟨⟨by decide, ?_, by decide, by decide, by decide⟩,
    ⟨by decide, ?_, by decide, by decide, by decide⟩⟩
  · rw [← ProofDb.leaseProtects_iff]
    decide
  · rw [← ProofDb.leaseProtects_iff]
    decide

end Cassy
