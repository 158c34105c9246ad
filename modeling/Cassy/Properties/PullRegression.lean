import Cassy.Cloud.PullTask
import Cassy.Properties.NotesMerge
import Cassy.Properties.SyncGuard

/-!
# pull は終わった task を勝手に戻さない

四つの取り込みのどれを、どの方針で呼んでも、終わった task が終わっていない状態に、merge 待ちの task が
作業中に戻るのは、届いた notes に新しい明示の記録があるときだけである。

どの入口も、同じ手元の行に対して同じ番人を通ってから書く。書けるのは届いた行の状態だけなので、後退は
番人が通した行でしか起きない。
-/

namespace Cassy

open Infra

/-! ## 明示の記録 -/

/-- 作業に戻すことを許す記録の形。 -/
inductive AuthorizingEvent (remote : TaskStatus) (event : Text) : Prop where
  | reopen (p rest actor reason : Text)
      (hp : p ∈ [Audit.reopened, Audit.reviewScopeReset, Audit.unblocked]) (heq : event = p ++ rest)
      (hrest : trim rest = "actor=".toList ++ (actor ++ (" reason=".toList ++ reason)))
      (hactor : nonBlankText actor = true) (hreason : nonBlankText reason = true)
  | requestChanges (reason : Text) (heq : event = requestChangesAuditPrefix ++ reason)
      (hreason : nonBlankText reason = true)
  | reset (prior assignee reason : Text)
      (heq : event = Audit.reset ++ (prior ++ ("→Open (prior assignee: ".toList
        ++ (assignee ++ (") — ".toList ++ reason)))))
      (hreason : nonBlankText reason = true)
  | scopeFix (decision : Text) (heq : event = Audit.proofScopeFix ++ decision)
      (hdecision : nonBlankText decision = true)
  | mergeRecovery (decision : Text) (hstatus : remote = .inProgress)
      (heq : event = Audit.mergeRecovery ++ decision) (hdecision : nonBlankText decision = true)

theorem isReopenEvent_cases {remote : TaskStatus} {event : Text} (h : isReopenEvent event = true) :
    AuthorizingEvent remote event := by
  rw [isReopenEvent, Option.any_eq_true] at h
  obtain ⟨r, hr, hblank⟩ := h
  rw [Option.bind_eq_some_iff] at hr
  obtain ⟨audit, haudit, hsplit⟩ := hr
  rw [Option.bind_eq_some_iff] at haudit
  obtain ⟨rest, hfind, hactor⟩ := haudit
  obtain ⟨p, hp, hstrip⟩ := List.exists_of_findSome?_eq_some hfind
  rw [Bool.and_eq_true] at hblank
  refine .reopen p rest r.1 r.2 hp (stripPrefix_eq_some hstrip) ?_ hblank.1 hblank.2
  rw [stripPrefix_eq_some hactor, splitOnce_eq_some hsplit]

theorem isResetEvent_cases {remote : TaskStatus} {event : Text} (h : isResetEvent event = true) :
    AuthorizingEvent remote event := by
  rw [isResetEvent, Option.any_eq_true] at h
  obtain ⟨r, hr, hblank⟩ := h
  rw [Option.bind_eq_some_iff] at hr
  obtain ⟨q, hq, hr⟩ := hr
  rw [Option.bind_eq_some_iff] at hq
  obtain ⟨rest, hstrip, hq⟩ := hq
  refine .reset q.1 r.1 r.2 ?_ hblank
  rw [stripPrefix_eq_some hstrip, splitOnce_eq_some hq, splitOnce_eq_some hr]

/-- 頭の決まった記録。 -/
theorem any_stripPrefix {pat event : Text} (h : (stripPrefix pat event).any nonBlankText = true) :
    ∃ rest, event = pat ++ rest ∧ nonBlankText rest = true := by
  rw [Option.any_eq_true] at h
  obtain ⟨rest, hstrip, hblank⟩ := h
  exact ⟨rest, stripPrefix_eq_some hstrip, hblank⟩

theorem authorizingEvent_of {remote : TaskStatus} {event : Text}
    (h : isAuthorizingEvent remote event = true) : AuthorizingEvent remote event := by
  simp only [isAuthorizingEvent, Bool.or_eq_true, Bool.and_eq_true, decide_eq_true_eq] at h
  obtain (((h | h) | h) | h) | ⟨hstatus, h⟩ := h
  · exact isReopenEvent_cases h
  · obtain ⟨reason, heq, hblank⟩ := any_stripPrefix h
    exact .requestChanges reason heq hblank
  · exact isResetEvent_cases h
  · obtain ⟨decision, heq, hblank⟩ := any_stripPrefix h
    exact .scopeFix decision heq hblank
  · obtain ⟨decision, heq, hblank⟩ := any_stripPrefix h
    exact .mergeRecovery decision hstatus heq hblank

section Guard

variable (parse : Text → Option Time)

/--
届いた notes の `block` が、手元の `task` を作業に戻すことを許す。

形の整った記録で、手元の notes には無く、手元の節目より後の分か、同じ分なら届いた notes の中で節目の記録より
後にある。
-/
structure Authorizes (task remote : Task) (block : Text) : Prop where
  mem : block ∈ splitParagraphs remote.notes
  fresh : ∀ known ∈ splitParagraphs task.notes, trim known ≠ trim block
  event : ∃ stamp rest at_, trim block = '[' :: (stamp ++ ']' :: rest) ∧ parse stamp = some at_
    ∧ AuthorizingEvent remote.status (trimStart rest)
    ∧ (minuteOf (boundaryTime parse task) < minuteOf at_
      ∨ (minuteOf at_ = minuteOf (boundaryTime parse task) ∧ ∃ b i j,
        localBoundary parse task = some b ∧ find b.2 remote.notes = some i
        ∧ find (trim block) remote.notes = some j ∧ i < j))

variable {parse}

theorem lifecycleAuditNote_eq_some {note event : Text} {at_ : Time}
    (h : lifecycleAuditNote parse note = some (at_, event)) :
    ∃ stamp rest, trim note = '[' :: (stamp ++ ']' :: rest) ∧ parse stamp = some at_
      ∧ event = trimStart rest := by
  simp only [lifecycleAuditNote, Option.bind_eq_bind, Option.bind_eq_some_iff] at h
  obtain ⟨body, hstrip, r, hsplit, t, hparse, heq⟩ := h
  rw [Option.pure_def, Option.some.injEq, Prod.mk.injEq] at heq
  refine ⟨r.1, r.2, ?_, by rw [hparse, heq.1], heq.2.symm⟩
  rw [stripPrefix_eq_some hstrip, splitOnce_eq_some hsplit]
  rfl

theorem isAfterBoundary_cases {task remote : Task} {at_ : Time} {block : Text}
    (h : isAfterBoundary parse task remote at_ block = true) :
    minuteOf (boundaryTime parse task) < minuteOf at_
      ∨ (minuteOf at_ = minuteOf (boundaryTime parse task) ∧ ∃ b i j,
        localBoundary parse task = some b ∧ find b.2 remote.notes = some i
        ∧ find (trim block) remote.notes = some j ∧ i < j) := by
  unfold isAfterBoundary at h
  split at h
  · next hlt => exact .inl hlt
  · split at h
    · simp at h
    · next hge hle =>
      right
      refine ⟨le_antisymm (not_lt.mp hge) (not_lt.mp hle), ?_⟩
      rw [Option.any_eq_true] at h
      obtain ⟨b, hb, hpos⟩ := h
      split at hpos
      · next i j hi hj => exact ⟨b, i, j, hb, hi, hj, of_decide_eq_true hpos⟩
      · simp at hpos

/-- 番人が通す後退には、許しの記録がある。 -/
theorem exists_authorizes {task remote : Task} (h : hasExplicitRemoteReopen parse task remote = true) :
    ∃ block, Authorizes parse task remote block := by
  rw [hasExplicitRemoteReopen, List.any_eq_true] at h
  obtain ⟨block, hmem, h⟩ := h
  split at h
  · simp at h
  · next at_ event hnote =>
    split at h
    · simp at h
    · next hknown =>
      rw [Bool.and_eq_true] at h
      obtain ⟨stamp, rest, htrim, hparse, rfl⟩ := lifecycleAuditNote_eq_some hnote
      refine ⟨block, hmem, fun known hk heq => hknown ?_, stamp, rest, at_, htrim, hparse,
        authorizingEvent_of h.1, isAfterBoundary_cases h.2⟩
      rw [List.any_eq_true]
      exact ⟨known, hk, decide_eq_true heq⟩

end Guard

/-! ## 取り込みの結果 -/

namespace PullState

variable {env : PullEnv} {s : PullState}
variable {task remote : Task}

@[simp] theorem journalLocalOverwrite_db (id : String) (row : Task) (winnerSide strategy : String) :
    (s.journalLocalOverwrite env id row winnerSide strategy).db = s.db := by
  unfold journalLocalOverwrite
  split
  · rfl
  · rfl

@[simp] theorem recordDeliveryRegressionConflict_db (task remote : Task) :
    (s.recordDeliveryRegressionConflict task remote).db = s.db := by
  unfold recordDeliveryRegressionConflict
  split
  · rfl
  · rfl

/-- 手元の `task` に対して届いた `remote` を取り込んだ後の表。元のままか、番人を通った行が書かれている。 -/
def Applied (env : PullEnv) (task remote : Task) (db db' : ProofDb) : Prop :=
  db' = db
    ∨ (rejectsDeliveryRegression env.parse task remote = false
      ∧ ∃ written stamp, written.id = remote.id ∧ written.status = remote.status
        ∧ db' = db.updateTask remote.id fun t => persistedTask written t stamp)

theorem mergedTask_id (env : PullEnv) (task remote : Task) : (mergedTask env task remote).id = remote.id := by
  unfold mergedTask appendSyncStatusProvenance
  split
  · split
    · rfl
    · rfl
  · split
    · rfl
    · rfl

theorem mergedTask_status (task remote : Task) :
    (mergedTask env task remote).status = remote.status := by
  unfold mergedTask appendSyncStatusProvenance
  split
  · split
    · rfl
    · rfl
  · split
    · rfl
    · rfl

/-- 番人を通った後の書き込み。 -/
theorem applied_applyTaskFromSync (hguard : rejectsDeliveryRegression env.parse task remote = false)
    (winnerSide strategy : String) :
    Applied env task remote s.db
      (s.applyTaskFromSync env (mergedTask env task remote) task winnerSide strategy).2.db := by
  have hid := mergedTask_id env task remote
  unfold applyTaskFromSync
  rcases s.db.updateFromSync_cases (mergedTask env task remote) task env.leaseAt env.now with
    ⟨e, h⟩ | h | ⟨stored, -, -, h⟩
  · rw [h]
    exact .inl rfl
  · rw [h]
    left
    simp only
    split
    · rfl
    · rfl
  · rw [h, hid]
    refine .inr ⟨hguard, mergedTask env task remote,
      max (mergedTask env task remote).updatedAt task.updatedAt, hid,
      mergedTask_status task remote, ?_⟩
    rw [journalLocalOverwrite_db]

/-- 番人が止めれば何も書かれず、通せばその先に従う。 -/
theorem applied_guardLifecycle {next : Unit → Except StoreError UpsertResult × PullState}
    (hnext : rejectsDeliveryRegression env.parse task remote = false →
      Applied env task remote s.db (next ()).2.db) :
    Applied env task remote s.db (s.guardLifecycle env task remote next).2.db := by
  unfold guardLifecycle
  split
  · left
    rw [recordDeliveryRegressionConflict_db]
  · next hguard =>
    split
    · exact .inl rfl
    · exact hnext (by simpa using hguard)

theorem applied_upsertOwnerTask (h : s.get remote.id = some task) :
    Applied env task remote s.db (s.upsertOwnerTask env remote).2.db := by
  unfold upsertOwnerTask
  rw [h]
  exact applied_guardLifecycle fun hguard => applied_applyTaskFromSync hguard _ _

theorem applied_upsertTask (h : s.get remote.id = some task) :
    Applied env task remote s.db (s.upsertTask env remote).2.db := by
  unfold upsertTask
  rw [h]
  refine applied_guardLifecycle fun hguard => ?_
  simp only
  split
  · exact applied_applyTaskFromSync hguard _ _
  · exact .inl rfl

theorem applied_upsertTaskWithStrategy (h : s.get remote.id = some task)
    (strategy : ConflictResolution) :
    Applied env task remote s.db (s.upsertTaskWithStrategy env remote strategy).2.db := by
  unfold upsertTaskWithStrategy
  rw [h]
  refine applied_guardLifecycle fun hguard => ?_
  simp only [resolveConflict]
  split
  · exact applied_applyTaskFromSync hguard _ _
  · exact .inl rfl
  · exact .inl rfl

theorem applied_upsertByStrategy (h : s.get remote.id = some task)
    (strategy : Option ConflictResolution) :
    Applied env task remote s.db (s.upsertByStrategy env remote strategy).2.db := by
  unfold upsertByStrategy
  cases strategy with
  | some strategy => exact applied_upsertTaskWithStrategy h strategy
  | none => exact applied_upsertTask h

theorem applied_run (env : PullEnv) (h : s.get remote.id = some task) (call : UpsertCall) :
    Applied env task remote s.db (call.run env s remote).2.db := by
  cases call with
  | task => exact applied_upsertTask h
  | taskWithStrategy strategy => exact applied_upsertTaskWithStrategy h strategy
  | ownerTask => exact applied_upsertOwnerTask h
  | taskWithOwnerPreference incomingIsOwner strategy =>
    simp only [UpsertCall.run, upsertTaskWithOwnerPreference, h]
    split
    · exact applied_upsertOwnerTask h
    · split
      · split
        · exact applied_upsertByStrategy h strategy
        · exact .inl rfl
      · exact applied_upsertByStrategy h strategy

end PullState

/-- 終わった task が終わっていない状態に、merge 待ちの task が作業に戻る。 -/
def Regresses (before after : Task) : Prop :=
  (before.isTerminal = true ∧ after.isTerminal = false)
    ∨ (before.status = .awaitingMerge ∧ (after.status = .open ∨ after.status = .inProgress))

theorem isTerminal_congr {t t' : Task} (h : t.status = t'.status) : t.isTerminal = t'.isTerminal := by
  unfold Task.isTerminal
  rw [h]

/-- 後退する行を番人が通すのは、明示の再開があるときだけである。 -/
theorem hasExplicitRemoteReopen_of_regresses {parse : Text → Option Time} {task remote : Task}
    (hreg : Regresses task remote) (h : rejectsDeliveryRegression parse task remote = false) :
    hasExplicitRemoteReopen parse task remote = true := by
  have hregresses : ((task.isTerminal && !remote.isTerminal)
      || (task.status = .awaitingMerge && (remote.status = .open || remote.status = .inProgress)))
      = true := by
    rcases hreg with ⟨hb, ha⟩ | ⟨hb, ha | ha⟩
    · simp [hb, ha]
    · simp [hb, ha]
    · simp [hb, ha]
  simp only [rejectsDeliveryRegression, hregresses, Bool.true_and, Bool.not_eq_false'] at h
  exact h

/--
**pull が終わった task や merge 待ちの task を戻すのは、届いた notes に新しい許しの記録があるときだけである。**

どの入口、どの方針、どちらが持ち主でも成り立つ。
-/
theorem upsert_regression_authorized (env : PullEnv) (call : UpsertCall) (s : PullState)
    {task remote stored : Task} (htask : s.db.base.tasks.find? remote.id = some task)
    (hstored : (call.run env s remote).2.db.base.tasks.find? remote.id = some stored)
    (hreg : Regresses task stored) : ∃ block, Authorizes env.parse task remote block := by
  have hself : ¬ Regresses task task := by
    rintro (⟨hb, ha⟩ | ⟨hb, ha | ha⟩)
    · simp [hb] at ha
    · simp [hb] at ha
    · simp [hb] at ha
  rcases PullState.applied_run env htask call with hdb | ⟨hguard, written, stamp, -, hst, hdb⟩
  · rw [hdb, htask, Option.some.injEq] at hstored
    exact absurd (hstored ▸ hreg) hself
  · have hwritten : (s.db.updateTask remote.id fun t => persistedTask written t stamp).base.tasks.find?
        remote.id = some (persistedTask written task stamp) := s.db.find?_updateTask_self htask
    rw [hdb] at hstored
    have hrow : persistedTask written task stamp = stored :=
      Option.some.inj (hwritten.symm.trans hstored)
    have hstatus : stored.status = remote.status := by
      rw [← hrow, ← hst]
      rfl
    have hreg' : Regresses task remote := by
      rwa [Regresses, isTerminal_congr hstatus, hstatus] at hreg
    exact exists_authorizes (hasExplicitRemoteReopen_of_regresses hreg' hguard)

/-- 閉じた task だけの表。 -/
def closedTaskState : PullState where
  db := { base := {
    tasks := ⟨[{ id := "cas-a1b2", status := .closed, updatedAt := seconds 1786271400
                 closedAt := some (seconds 1786271400)
                 notes := "[2026-08-09 10:30] Closed: done".toList }], by decide⟩ } }

/-- 一分後に再開した task。 -/
def reopenedRemote : Task :=
  { id := "cas-a1b2", status := .open, updatedAt := seconds 1786271460
    notes := "[2026-08-09 10:30] Closed: done\n\n[2026-08-09 10:31] Reopened: actor=sup (s1) reason=missed case".toList }

/-- 例の pull。 -/
def examplePullEnv : PullEnv :=
  { parse := fixedTimestamp, syncId := "sync-1", source := "personal_pull"
    stamp := "2026-08-09 10:32", leaseAt := seconds 1786271520, now := seconds 1786271520 }

theorem upsert_regression_authorized_reopened :
    ∃ block, Authorizes examplePullEnv.parse
      { id := "cas-a1b2", status := .closed, updatedAt := seconds 1786271400
        closedAt := some (seconds 1786271400)
        notes := "[2026-08-09 10:30] Closed: done".toList } reopenedRemote block := by
  have hrun : ∃ stored, (UpsertCall.task.run examplePullEnv closedTaskState reopenedRemote).2.db.base.tasks.find?
      reopenedRemote.id = some stored ∧ stored.isTerminal = false := by
    refine ⟨_, rfl, ?_⟩
    decide
  obtain ⟨stored, hstored, hopen⟩ := hrun
  exact upsert_regression_authorized examplePullEnv .task closedTaskState rfl hstored
    (.inl ⟨rfl, hopen⟩)

end Cassy
