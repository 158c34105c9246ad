import Cassy.Properties.IntentStep

/-!
# 果たした意図の payload と、古い一覧での照合

* 果たしたと報告された意図の payload は、同じ write transaction で確かめた版の行から作られている
* 照合は、一覧を写した後に立てられた意図を消さない

前者はどの実行でも成り立つ。占有の前に読んだものは版を添えて持ち越され、版が同じなら行も同じだからである。

後者は、追い越された意図を見つけた照合が `retire_task_sync_evidence` でその task の意図を全部消すので、いつもは
成り立たない。写した意図がまだ残っているかは確かめるが、新しい意図が増えていないかは確かめない。立てた処理が
stripe を手放さないうちは照合が先送りになるので、危ないのは、立てた処理が意図を残して去ったときである。
-/

namespace Cassy

open Infra RevisionDb

variable {env : IntentEnv} {s s' m : IntentState} {act : IntentAct} {pid : Nat} {pc : SyncPc}
variable {intent : TaskSyncIntent} {preloaded : Option (Nat × Option TaskSyncPayload)}

/-! ## 占有の前に読んだもの -/

/-- 占有の前に読んだ版は今の版を超えず、版が変わっていなければ、読んだ行は今の行である。 -/
def FulfillPc.Sound (env : IntentEnv) (db : RevisionDb) (intent : TaskSyncIntent) :
    FulfillPc → Prop
  | .start => True
  | .revisionRead current => ∀ r ∈ current, r.1 ≤ db.revision intent.entityId
  | .classified preloaded => ∀ revision ∈ preloaded, revision ≤ db.revision intent.entityId
  | .loaded preloaded => ∀ loaded ∈ preloaded, loaded.1 ≤ db.revision intent.entityId
      ∧ (loaded.1 = db.revision intent.entityId → loaded.2 = env.loadCanonical db intent)

theorem FulfillPc.Sound.advances {db db' : RevisionDb} {pc : FulfillPc} (h : pc.Sound env db intent)
    (hdb : RevisionDb.Advances db db') : pc.Sound env db' intent := by
  have hle := hdb.revision_le intent.entityId
  cases pc with
  | start => trivial
  | revisionRead current => exact fun r hr => Nat.le_trans (h r hr) hle
  | classified preloaded => exact fun r hr => Nat.le_trans (h r hr) hle
  | loaded preloaded =>
    intro loaded hloaded
    obtain ⟨hrev, hrow⟩ := h loaded hloaded
    refine ⟨Nat.le_trans hrev hle, fun heq => ?_⟩
    have hsame : db'.revision intent.entityId = db.revision intent.entityId := by omega
    rw [hrow (heq.trans hsame)]
    unfold IntentEnv.loadCanonical
    rw [hdb.row_eq _ hsame]

theorem FulfillRead.sound {db : RevisionDb} {pc pc' : FulfillPc}
    (hread : FulfillRead env db intent pc pc') (h : pc.Sound env db intent) :
    pc'.Sound env db intent := by
  cases hread with
  | revision =>
    intro r hr
    exact Nat.le_of_eq (revision_of_currentRevision hr).1
  | proceed current revision hcurrent =>
    rintro _ ⟨⟩
    exact h _ hcurrent
  | other => exact fun _ h => nomatch h
  | load revision =>
    rintro _ ⟨⟩
    exact ⟨h revision rfl, fun _ => rfl⟩

/-- どの処理が占有の前に読んだものも `Sound` である。 -/
def PayloadsSound (env : IntentEnv) (s : IntentState) : Prop :=
  ∀ pid intent pc, (s.pc pid).fulfilment = some (intent, pc) → pc.Sound env s.db intent

theorem PayloadsSound.update (h : PayloadsSound env s) (pid : Nat) (pc : SyncPc)
    (hdb : RevisionDb.Advances s.db s'.db) (hpc : s'.pc = Function.update s.pc pid pc)
    (hnew : ∀ intent f, pc.fulfilment = some (intent, f) → f.Sound env s'.db intent) :
    PayloadsSound env s' := by
  intro p intent f hf
  rw [hpc] at hf
  by_cases hp : p = pid
  · rw [hp, Function.update_self] at hf
    exact hnew intent f hf
  · rw [Function.update_of_ne hp] at hf
    exact (h p intent f hf).advances hdb

theorem PayloadsSound.advances (h : PayloadsSound env s) (hdb : RevisionDb.Advances s.db s'.db)
    (hpc : s'.pc = s.pc) : PayloadsSound env s' := by
  intro p intent f hf
  rw [hpc] at hf
  exact (h p intent f hf).advances hdb

/-! ## write transaction の後 -/

/-- write transaction は、処理の位置にも stripe にも触れず、意図を減らすことしかしない。 -/
structure Retires (s m : IntentState) : Prop where
  pc : m.pc = s.pc
  stripe : m.stripe = s.stripe
  nextIntent : m.nextIntent = s.nextIntent
  intents : m.intents ⊆ s.intents
  db : RevisionDb.Advances s.db m.db
  recorded : s.db.Recorded → m.db.Recorded

theorem Retires.refl (s : IntentState) : Retires s s :=
  ⟨rfl, rfl, rfl, List.Subset.refl _, RevisionDb.Advances.refl _, id⟩

theorem retireTaskSyncEvidence_retires (s : IntentState) : Retires s s.retireTaskSyncEvidence :=
  ⟨rfl, rfl, rfl, List.nil_subset _, dropReceipts_advances _ _, id⟩

theorem retireOne_retires (s : IntentState) (intent : TaskSyncIntent) :
    Retires s (s.retireOneTaskSyncIntent intent) :=
  ⟨rfl, rfl, rfl, List.filter_sublist.subset, dropReceipts_advances _ _, id⟩

theorem recordBlocked_retires (s : IntentState) (intent : TaskSyncIntent) (diagnostic : String) :
    Retires s (s.recordBlocked intent diagnostic) := by
  unfold IntentState.recordBlocked
  split
  · exact Retires.refl s
  · exact ⟨rfl, rfl, rfl, List.Subset.refl _, RevisionDb.Advances.refl _, id⟩

theorem FulfillCase.retires {mode : TaskSyncFulfillMode} {now : Time} {outcome : FulfillOutcome}
    (h : FulfillCase env s mode intent preloaded now outcome m) : Retires s m := by
  cases h with
  | superseded => exact retireTaskSyncEvidence_retires s
  | provenPreCommit => exact retireOne_retires s intent
  | blocked diagnostic => exact recordBlocked_retires s intent diagnostic
  | deferred | retry | refused | missing => exact Retires.refl s
  | fulfilled =>
    exact ⟨rfl, rfl, rfl, List.nil_subset _, dropReceipts_advances _ _, id⟩

/-- どの一手も、占有の前に読んだものを `Sound` に保つ。 -/
theorem Transition.payloadsSound (ht : Transition env s act s') (h : PayloadsSound env s) :
    PayloadsSound env s' := by
  cases ht with
  | stay | enqueue => exact h
  | acquire | stage | refuse | keepRefused | crash | defer =>
    exact h.update _ _ (RevisionDb.Advances.refl _) rfl fun _ _ hf => nomatch hf
  | commit pid intent origin op db hpc hout =>
    refine h.update _ _ hout.advances rfl ?_
    rintro _ _ ⟨⟩
    trivial
  | cancel => exact h.update _ _ (dropReceipts_advances _ _) rfl fun _ _ hf => nomatch hf
  | readMutation _ pid intent attempt pc pc' hpc hread =>
    refine h.update _ _ (RevisionDb.Advances.refl _) rfl ?_
    rintro _ _ ⟨⟩
    exact hread.sound (h pid intent pc (by rw [hpc]; rfl))
  | readReconcile _ pid next intent rest attempt pc pc' hpc hread =>
    refine h.update _ _ (RevisionDb.Advances.refl _) rfl ?_
    rintro _ _ ⟨⟩
    exact hread.sound (h pid intent pc (by rw [hpc]; rfl))
  | mutation pid intent attempt preloaded busy now outcome m hpc hcase =>
    have hm := hcase.retires
    refine h.update pid .idle hm.db ?_ fun _ _ hf => nomatch hf
    show Function.update m.pc pid .idle = _
    rw [hm.pc]
  | mutationRetry =>
    refine h.update _ _ (RevisionDb.Advances.refl _) rfl ?_
    rintro _ _ ⟨⟩
    trivial
  | reconcile pid next intent rest attempt preloaded busy now outcome m pc hpc _ _ hcase hnext =>
    have hm := hcase.retires
    refine h.update pid pc hm.db ?_ ?_
    · show Function.update m.pc pid pc = _
      rw [hm.pc]
    · -- 次の意図に進むときは、読み直すところから始まる
      intro intent f hf
      obtain rfl | ⟨-, rfl⟩ | ⟨-, rfl⟩ := hnext
      · cases hf
      · rw [SyncPc.reconcileRest_fulfilment hf]
        trivial
      · cases hf
        trivial
  | snapshot pid hpc =>
    refine h.update _ _ (RevisionDb.Advances.refl _) rfl fun intent f hf => ?_
    rw [SyncPc.reconcileRest_fulfilment hf]
    trivial
  | write origin op => exact h.advances (taskStep_outcome s.db op).advances rfl
  | mergeAdmission mergeCommit admission now =>
    refine h.advances ?_ rfl
    rcases recordMergeAdmission_touched s.db env.entityId mergeCommit admission now with
      heq | htouched
    · show RevisionDb.Advances s.db (s.db.recordMergeAdmission _ _ _ _)
      rw [heq]
      exact RevisionDb.Advances.refl _
    · exact htouched.advances

theorem Transition.recorded (ht : Transition env s act s') (h : s.db.Recorded) :
    s'.db.Recorded := by
  cases ht with
  | commit _ _ _ _ _ _ hout => exact hout.recorded h
  | mutation _ _ _ _ _ _ _ _ _ hcase => exact hcase.retires.recorded h
  | reconcile _ _ _ _ _ _ _ _ _ _ _ _ _ _ hcase => exact hcase.retires.recorded h
  | write origin op => exact (taskStep_outcome s.db op).recorded h
  | mergeAdmission mergeCommit admission now =>
    rcases recordMergeAdmission_touched s.db env.entityId mergeCommit admission now with
      heq | htouched
    · show (s.db.recordMergeAdmission _ _ _ _).Recorded
      rw [heq]
      exact h
    · exact htouched.recorded h
  | _ => exact h

/-! ## 果たした意図 -/

/-- 版を確かめた payload は、今の行から作り直したものと同じである。 -/
theorem loadCanonical_of_proceed {revision : Nat} {canonical : Option TaskSyncPayload}
    (hclass : s.db.classifyTaskSyncIntent intent = .proceed revision)
    (hload : preloaded = some (revision, canonical) ∨ env.loadCanonical s.db intent = canonical)
    (hsound : (FulfillPc.loaded preloaded).Sound env s.db intent) :
    env.loadCanonical s.db intent = canonical := by
  rcases hload with rfl | hload
  · exact ((hsound _ rfl).2 (committed_of_proceed hclass).2.1).symm
  · exact hload

/-- 果たしたと報告されたとき、payload は今の行のものである。 -/
theorem FulfillCase.canonical {mode : TaskSyncFulfillMode} {now : Time} {event : FulfillEvent}
    (h : FulfillCase env s mode intent preloaded now (.report event) m)
    (hsound : (FulfillPc.loaded preloaded).Sound env s.db intent)
    (hevent : event.result = .fulfilled) :
    event.intent = intent ∧ ∃ task revision, s.db.row? intent.entityId = some task
      ∧ s.db.classifyTaskSyncIntent intent = .proceed revision
      ∧ event.queued = some (revision, env.canonicalPayload intent.globalScope task)
      ∧ m = s.finish env intent revision (env.canonicalPayload intent.globalScope task) now := by
  cases h with
  | fulfilled revision canonical hclass hload =>
    obtain ⟨task, hrow, rfl⟩ :=
      Option.map_eq_some_iff.mp (loadCanonical_of_proceed hclass hload hsound)
    exact ⟨rfl, task, revision, hrow, hclass, rfl, rfl⟩
  | superseded | provenPreCommit | blocked | deferred => cases hevent

/-- 果たしたという報告は、write transaction からしか出ない。 -/
theorem fulfilled_event {event : FulfillEvent} (h : (intentStep env s act).1 = some event)
    (hevent : event.result = .fulfilled) :
    ∃ pid mode intent preloaded now m,
      (s.pc pid).fulfilment = some (intent, .loaded preloaded)
        ∧ FulfillCase env s mode intent preloaded now (.report event) m
        ∧ (intentStep env s act).2.queue = m.queue
        ∧ (intentStep env s act).2.lastQueued = m.lastQueued := by
  cases act with
  | transact pid busy now =>
    dsimp only [intentStep] at h ⊢
    split at h
    next intent attempt preloaded hpc =>
      have hcase := fulfillTx_case env s .mutation intent attempt preloaded now
      refine ⟨pid, .mutation, intent, preloaded, now, ?_⟩
      unfold IntentState.transactMutation at h ⊢
      generalize s.fulfillTx env .mutation intent attempt preloaded now = tx at h hcase
      obtain ⟨outcome, m⟩ := tx
      cases outcome with
      | report => cases h; exact ⟨m, by rw [hpc]; rfl, hcase, rfl, rfl⟩
      | retry | failed => cases h
    next next intent rest attempt preloaded hpc =>
      have hcase := fulfillTx_case env s .reconcile intent attempt preloaded now
      refine ⟨pid, .reconcile, intent, preloaded, now, ?_⟩
      unfold IntentState.transactReconcile at h ⊢
      split at h
      · cases h
        cases hevent
      next hfree =>
      split at h
      · cases h
        cases hevent
      next hpending =>
      rw [if_neg hfree, if_neg hpending]
      generalize s.fulfillTx env .reconcile intent attempt preloaded now = tx at h hcase
      obtain ⟨outcome, m⟩ := tx
      cases outcome with
      | report =>
        cases h
        dsimp only
        rw [hevent]
        exact ⟨m, by rw [hpc]; rfl, hcase, rfl, rfl⟩
      | retry | failed => cases h
    next => cases h
  | acquire | stage | commit | cancel | snapshot | write | mergeAdmission =>
    dsimp only [intentStep] at h
    (repeat' split at h) <;> cases h
  | readRevision | readReceipt | load | crash | enqueue => cases h

/-! ## 一覧を写した後の意図 -/

/-- 立てた処理が、意図を残したまま去る手。果たせずに落ちる write transaction も含む。 -/
def IntentState.abandonedBy (s : IntentState) : IntentAct → Option TaskSyncIntent
  | .crash pid => (s.pc pid).held
  | .cancel pid false =>
    match s.pc pid with
    | .refused intent => some intent
    | _ => none
  | .transact pid _ _ =>
    match s.pc pid with
    | .fulfilling intent _ (.loaded _) =>
      match s.db.classifyTaskSyncIntent intent with
      | .blocked _ => some intent
      | _ => none
    | _ => none
  | _ => none

/-- 意図を残して去る処理があるとき、進んでいるどの照合も、その意図が立った後に一覧を写している。 -/
def AbandonsObserved (s : IntentState) (act : IntentAct) : Prop :=
  ∀ intent ∈ s.abandonedBy act, ∀ pid next, (s.pc pid).snapshot? = some next → intent.id < next

/-- 照合の一覧より新しい意図は、それを立てた処理がまだ占有している。 -/
structure SnapshotInv (s : IntentState) : Prop where
  fresh : ∀ i ∈ s.intents, i.id < s.nextIntent
  owner : ∀ pid, (s.pc pid).owns = true → s.stripe = some pid
  bound : ∀ pid next, (s.pc pid).snapshot? = some next → next ≤ s.nextIntent
  newer : ∀ pid next, (s.pc pid).snapshot? = some next →
    ∀ i ∈ s.intents, next ≤ i.id → ∃ p, (s.pc p).held = some i

theorem SnapshotInv.update (h : SnapshotInv s) (pid : Nat) (pc : SyncPc)
    (hpc : s'.pc = Function.update s.pc pid pc) (hnext : s.nextIntent ≤ s'.nextIntent)
    (hintents : ∀ i ∈ s'.intents,
      i ∈ s.intents ∨ (pc.held = some i ∧ i.id < s'.nextIntent))
    (howner : ∀ p, p ≠ pid → (s.pc p).owns = true → s'.stripe = some p)
    (hself : pc.owns = true → s'.stripe = some pid)
    (hsnap : ∀ next, pc.snapshot? = some next →
      (s.pc pid).snapshot? = some next ∨ next = s.nextIntent)
    (hheld : ∀ i ∈ s'.intents, (s.pc pid).held = some i → pc.held = some i
      ∨ ∀ p next, (s.pc p).snapshot? = some next → i.id < next) : SnapshotInv s' := by
  have hat : s'.pc pid = pc := by rw [hpc, Function.update_self]
  have hne : ∀ {p}, p ≠ pid → s'.pc p = s.pc p := fun hp => by rw [hpc, Function.update_of_ne hp]
  refine ⟨fun i hi => ?_, fun p hp => ?_, fun p next hp => ?_, fun p next hp i hi hle => ?_⟩
  · rcases hintents i hi with hold | hnew
    · exact Nat.lt_of_lt_of_le (h.fresh i hold) hnext
    · exact hnew.2
  · by_cases heq : p = pid
    · rw [heq, hat] at hp
      rw [heq]
      exact hself hp
    · rw [hne heq] at hp
      exact howner p heq hp
  · by_cases heq : p = pid
    · rw [heq, hat] at hp
      rcases hsnap next hp with hold | rfl
      · exact Nat.le_trans (h.bound pid next hold) hnext
      · exact hnext
    · rw [hne heq] at hp
      exact Nat.le_trans (h.bound p next hp) hnext
  · rcases hintents i hi with hold | hnew
    · -- 前からある意図は、写したばかりの一覧より古いか、前から占有されている
      obtain ⟨p', hp'⟩ : ∃ p', (s.pc p').snapshot? = some next := by
        by_cases heq : p = pid
        · rw [heq, hat] at hp
          rcases hsnap next hp with hsame | rfl
          · exact ⟨pid, hsame⟩
          · exact absurd (h.fresh i hold) (Nat.not_lt.mpr hle)
        · rw [hne heq] at hp
          exact ⟨p, hp⟩
      obtain ⟨q, hq⟩ := h.newer p' next hp' i hold hle
      by_cases heq : q = pid
      · rw [heq] at hq
        rcases hheld i hi hq with hkeep | hobserved
        · exact ⟨pid, by rw [hat]; exact hkeep⟩
        · exact absurd (hobserved p' next hp') (Nat.not_lt.mpr hle)
      · exact ⟨q, by rw [hne heq]; exact hq⟩
    · exact ⟨pid, by rw [hat]; exact hnew.1⟩

/-- 位置だけを変え、占有を変えない手。 -/
theorem SnapshotInv.setPc (h : SnapshotInv s) (hm : Retires s m)
    (hself : pc.owns = true → (s.pc pid).owns = true)
    (hsnap : ∀ next, pc.snapshot? = some next →
      (s.pc pid).snapshot? = some next ∨ next = s.nextIntent)
    (hheld : pc.held = (s.pc pid).held) : SnapshotInv (m.setPc pid pc) := by
  refine h.update pid pc ?_ (Nat.le_of_eq hm.nextIntent.symm) (fun i hi => .inl (hm.intents hi))
    (fun p _ hp => ?_) (fun hp => ?_) hsnap (fun i _ hi => .inl (hheld.trans hi))
  · show Function.update m.pc pid pc = _
    rw [hm.pc]
  · show m.stripe = _
    rw [hm.stripe]
    exact h.owner p hp
  · show m.stripe = _
    rw [hm.stripe]
    exact h.owner pid (hself hp)

/-- 処理が去る手。残った意図は、どの照合の一覧よりも古くなければならない。 -/
theorem SnapshotInv.leave (h : SnapshotInv s) (hm : Retires s m)
    (hheld : ∀ i ∈ m.intents, (s.pc pid).held = some i →
      ∀ p next, (s.pc p).snapshot? = some next → i.id < next) : SnapshotInv (m.leave pid) := by
  refine h.update pid .idle ?_ (Nat.le_of_eq hm.nextIntent.symm)
    (fun i hi => .inl (hm.intents hi)) (fun p hp howns => ?_) (fun hp => nomatch hp)
    (fun _ hp => nomatch hp) (fun i hi hp => .inr (hheld i hi hp))
  · show Function.update m.pc pid .idle = _
    rw [hm.pc]
  · have hstripe := h.owner p howns
    show (if m.stripe = some pid then none else m.stripe) = some p
    rw [hm.stripe, hstripe, if_neg fun heq => hp (Option.some.inj heq)]

/-- 受領書が今の版を指す意図の行は、読めている。 -/
theorem FulfillCase.not_missing {revision : Nat}
    (hclass : s.db.classifyTaskSyncIntent intent = .proceed revision)
    (hload : preloaded = some (revision, none) ∨ env.loadCanonical s.db intent = none)
    (hrec : s.db.Recorded) (hsound : (FulfillPc.loaded preloaded).Sound env s.db intent) :
    False := by
  have hpresent := (committed_of_proceed hclass).2.2
  have hnone := loadCanonical_of_proceed hclass hload hsound
  rw [hrec, Option.map_eq_none_iff.mp hnone] at hpresent
  cases hpresent

theorem Transition.snapshotInv (ht : Transition env s act s') (hrec : s.db.Recorded)
    (hsound : PayloadsSound env s) (hg : AbandonsObserved s act) (h : SnapshotInv s) :
    SnapshotInv s' := by
  cases ht with
  | stay | enqueue | write | mergeAdmission => exact ⟨h.fresh, h.owner, h.bound, h.newer⟩
  | acquire pid hpc hstripe =>
    refine h.update pid .locked rfl (Nat.le_refl _) (fun i hi => .inl hi) (fun p _ hp => ?_)
      (fun _ => rfl) (fun _ hp => nomatch hp) (fun i _ hi => ?_)
    · rw [h.owner p hp] at hstripe
      cases hstripe
    · rw [hpc] at hi
      cases hi
  | stage _ pid intent hpc hid =>
    refine h.update pid (.staged intent) rfl (Nat.le_succ _) (fun i hi => ?_)
      (fun p _ hp => h.owner p hp) (fun _ => h.owner pid (by rw [hpc]; rfl))
      (fun _ hp => nomatch hp) (fun i _ hi => ?_)
    · rcases List.mem_append.mp hi with hold | hnew
      · exact .inl hold
      · rw [List.mem_singleton.mp hnew]
        exact .inr ⟨rfl, by rw [hid]; exact Nat.lt_succ_self _⟩
    · rw [hpc] at hi
      cases hi
  | commit pid intent origin op db hpc =>
    have hset : SnapshotInv (s.setPc pid (.fulfilling intent 1 .start)) :=
      h.setPc (Retires.refl s) (fun _ => by rw [hpc]; rfl) (fun _ hp => nomatch hp)
        (by rw [hpc]; rfl)
    exact ⟨hset.fresh, hset.owner, hset.bound, hset.newer⟩
  | refuse _ pid intent hpc =>
    exact h.setPc (Retires.refl s) (fun _ => by rw [hpc]; rfl) (fun _ hp => nomatch hp)
      (by rw [hpc]; rfl)
  | cancel pid intent hpc =>
    refine h.leave (retireOne_retires s intent) fun i hi hheld => ?_
    rw [hpc] at hheld
    obtain rfl : intent = i := Option.some.inj hheld
    exact absurd rfl (of_decide_eq_true (List.mem_filter.mp hi).2)
  | keepRefused pid intent hpc =>
    refine h.leave (Retires.refl s) fun i _ hheld => hg i ?_
    rw [hpc] at hheld
    obtain rfl : intent = i := Option.some.inj hheld
    simp [IntentState.abandonedBy, hpc]
  | readMutation _ pid intent attempt f f' hpc =>
    exact h.setPc (Retires.refl s) (fun _ => by rw [hpc]; rfl) (fun _ hp => nomatch hp)
      (by rw [hpc]; rfl)
  | readReconcile _ pid next intent rest attempt f f' hpc =>
    exact h.setPc (Retires.refl s) (fun hp => nomatch hp) (fun _ hp => .inl (by rw [hpc]; exact hp))
      (by rw [hpc]; rfl)
  | mutation pid intent attempt preloaded busy now outcome m hpc hcase hretry =>
    refine h.leave hcase.retires fun i hi hheld => ?_
    rw [hpc] at hheld
    obtain rfl : intent = i := Option.some.inj hheld
    -- 果たした transaction は意図を消す。残るのは、分類できずに落ちたときだけである
    cases hcase with
    | superseded | fulfilled => cases hi
    | provenPreCommit => exact absurd rfl (of_decide_eq_true (List.mem_filter.mp hi).2)
    | blocked _ _ hmode | deferred hmode => cases hmode
    | retry => exact absurd rfl hretry
    | refused diagnostic hclass =>
      refine hg intent ?_
      simp [IntentState.abandonedBy, hpc, hclass]
    | missing revision hclass hload =>
      exact (FulfillCase.not_missing hclass hload hrec
        (hsound pid intent _ (by rw [hpc]; rfl))).elim
  | mutationRetry _ pid intent attempt f hpc =>
    exact h.setPc (Retires.refl s) (fun _ => by rw [hpc]; rfl) (fun _ hp => nomatch hp)
      (by rw [hpc]; rfl)
  | reconcile pid next intent rest attempt preloaded busy now outcome m pc hpc _ _ hcase hnext =>
    refine h.setPc hcase.retires (fun hp => ?_) (fun n hp => ?_) ?_
    · obtain rfl | ⟨-, rfl⟩ | ⟨-, rfl⟩ := hnext
      · cases hp
      · rw [SyncPc.reconcileRest_owns] at hp
        cases hp
      · cases hp
    · rw [hpc]
      obtain rfl | ⟨-, rfl⟩ | ⟨-, rfl⟩ := hnext
      · cases hp
      · rw [SyncPc.reconcileRest_snapshot? hp]
        exact .inl rfl
      · exact .inl hp
    · rw [hpc]
      obtain rfl | ⟨-, rfl⟩ | ⟨-, rfl⟩ := hnext
      · rfl
      · exact SyncPc.reconcileRest_held _ _
      · rfl
  | defer _ pid next rest attempt f hpc =>
    exact h.setPc (Retires.refl s) (fun hp => nomatch hp) (fun _ hp => nomatch hp)
      (by rw [hpc]; rfl)
  | crash pid => exact h.leave (Retires.refl s) fun i _ hheld => hg i hheld
  | snapshot pid hpc =>
    refine h.setPc (Retires.refl s) (fun hp => ?_) (fun n hp => ?_) ?_
    · rw [SyncPc.reconcileRest_owns] at hp
      cases hp
    · exact .inr (SyncPc.reconcileRest_snapshot? hp)
    · rw [hpc]
      exact SyncPc.reconcileRest_held _ _

/-- 照合は占有されている意図に手を出せないので、一覧より新しい意図を消さない。 -/
theorem Transition.keeps_newer {pid : Nat} {busy : Bool} {now : Time}
    (ht : Transition env s (.transact pid busy now) s') (h : SnapshotInv s) {next : Nat}
    (hsnap : (s.pc pid).snapshot? = some next) :
    ∀ i ∈ s.intents, next ≤ i.id → i ∈ s'.intents := by
  intro i hi hle
  cases ht with
  | reconcile _ _ _ _ _ _ _ _ _ _ _ _ hstripe =>
    obtain ⟨p, hp⟩ := h.newer pid next hsnap i hi hle
    rw [h.owner p (SyncPc.owns_of_held hp)] at hstripe
    cases hstripe
  | mutation _ _ _ _ _ _ _ _ hpc =>
    rw [hpc] at hsnap
    cases hsnap
  | stage => exact List.mem_append_left _ hi
  | stay | refuse | readMutation | readReconcile | mutationRetry | defer => exact hi

/-! ## 実行の全体 -/

/-- 処理がまだ一つも進んでいない状態。前からの意図は残っていてよい。 -/
structure IntentState.Started (s : IntentState) : Prop where
  recorded : s.db.Recorded
  idle : ∀ pid, s.pc pid = .idle
  fresh : ∀ i ∈ s.intents, i.id < s.nextIntent

/-- 実行のどこでも成り立つこと。 -/
structure PayloadInv (env : IntentEnv) (s : IntentState) : Prop where
  recorded : s.db.Recorded
  sound : PayloadsSound env s

theorem IntentState.Started.payloadInv (h : s.Started) : PayloadInv env s where
  recorded := h.recorded
  sound pid intent pc hf := by
    rw [h.idle pid] at hf
    cases hf

theorem IntentState.Started.snapshotInv (h : s.Started) : SnapshotInv s where
  fresh := h.fresh
  owner pid hp := by
    rw [h.idle pid] at hp
    cases hp
  bound pid next hp := by
    rw [h.idle pid] at hp
    cases hp
  newer pid next hp := by
    rw [h.idle pid] at hp
    cases hp

theorem PayloadInv.step (h : PayloadInv env s) (act : IntentAct) :
    PayloadInv env (intentStep env s act).2 :=
  have ht := intentStep_transition env s act
  ⟨ht.recorded h.recorded, ht.payloadsSound h.sound⟩

/--
意図の果たし方の仕様。

処理の一つも進んでいない状態から、変更・照合・直接の書き込みをどう織り交ぜて実行しても、果たしたと報告された意図に
ついて、列に載せた payload は、同じ transaction で確かめた版の行から作ったものである。その版は受領書の指す版で
もある。

意図を残して去る処理が、進んでいるどの照合よりも前に意図を立てていたなら、照合は、一覧を写した後に立てられた意図を
消さない。`next` は一覧を写したときの次の番号である。
-/
theorem fulfilled_payload_canonical (env : IntentEnv) (s : IntentState) (acts : List IntentAct)
    (hs : s.Started) :
    (∀ e ∈ trace (intentStep env) s acts, ∀ event ∈ e.result, event.result = .fulfilled →
      let db := e.before.db
      let id := event.intent.entityId
      ∃ task, db.row? id = some task
        ∧ db.committedRevision event.intent = some (db.revision id)
        ∧ event.queued
          = some (db.revision id, env.canonicalPayload event.intent.globalScope task)
        ∧ ∃ now, (intentStep env e.before e.op).2.queue
          = env.queueCanonical (some task) event.intent
            (env.canonicalPayload event.intent.globalScope task) now e.before.queue)
      ∧ (Guarded (intentStep env) AbandonsObserved s acts →
        ∀ e ∈ trace (intentStep env) s acts, ∀ pid busy now, e.op = .transact pid busy now →
          ∀ next, (e.before.pc pid).snapshot? = some next →
            ∀ i ∈ e.before.intents, next ≤ i.id → i ∈ (intentStep env e.before e.op).2.intents) := by
  constructor
  · intro e he event hevent hfulfilled
    obtain ⟨pre, post, rfl, hbefore, hresult⟩ := exists_split_of_mem_trace he
    have hinv : PayloadInv env e.before := by
      rw [hbefore]
      exact run_invariant' (fun _ act h => h.step act) hs.payloadInv
    rw [hresult] at hevent
    obtain ⟨pid, mode, intent, preloaded, now, m, hpc, hcase, hqueue, -⟩ :=
      fulfilled_event hevent hfulfilled
    obtain ⟨rfl, task, revision, hrow, hclass, hqueued, rfl⟩ :=
      hcase.canonical (hinv.sound pid intent _ hpc) hfulfilled
    obtain ⟨hcommitted, rfl, -⟩ := committed_of_proceed hclass
    refine ⟨task, hrow, hcommitted, hqueued, now, ?_⟩
    rw [hqueue, ← hrow]
    rfl
  · intro hguard e he pid busy now hop next hsnap
    obtain ⟨pre, post, rfl, hbefore, -⟩ := exists_split_of_mem_trace he
    have hinv : PayloadInv env e.before ∧ SnapshotInv e.before := by
      rw [hbefore]
      refine run_invariant (I := fun s => PayloadInv env s ∧ SnapshotInv s)
        (fun s act h hg => ⟨h.1.step act, ?_⟩) ⟨hs.payloadInv, hs.snapshotInv⟩
        (guarded_append.mp hguard).1
      exact (intentStep_transition env s act).snapshotInv h.1.recorded h.1.sound hg h.2
    have ht := intentStep_transition env e.before e.op
    rw [hop] at ht ⊢
    exact ht.keeps_newer hinv.2 hsnap

/-! ## 実行の例 -/

/-- 題だけの task。 -/
def titledTask (title : String) : Task where
  id := "cas-1"
  title := title

/-- 題を payload に書く store。 -/
def titleStore : IntentEnv where
  parse _ := none
  entityId := "cas-1"
  parseTimestamp _ := false
  toJson task := "\x7b\"id\":\"" ++ task.id ++ "\",\"title\":\"" ++ task.title ++ "\"\x7d"

/-- 書きかけの題を書き換え、列に載せる前に倒れた store。意図と受領書が残っている。 -/
def leftover : IntentState where
  db := (taskStep titleStore.parseTimestamp none
    (opened { base := { tasks := Table.empty.insertOrIgnore (titledTask "draft") } })
    (.update (titledTask "first") "m1" 5)).2
  queue := SyncQueue.empty
  intents :=
    [{ id := 1, mutationId := "m1", entityId := "cas-1", operation := "update"
       previousRevision := 1 }]
  nextIntent := 2

theorem leftover_started : leftover.Started where
  recorded := (taskStep_outcome _ _).recorded (opened_recorded _)
  idle _ := rfl
  fresh i hi := by
    obtain rfl := List.mem_singleton.mp hi
    exact Nat.lt_succ_self 1

/-- 変更する側が意図を立て、書き込むまで。 -/
def editTitle (pid : Nat) (mutationId title : String) (now : Time) : List IntentAct :=
  [.acquire pid, .stage pid mutationId "update" none none none none false,
    .commit pid none (.update (titledTask title) mutationId now)]

/-- 意図を果たすまで。 -/
def fulfill (pid : Nat) (now : Time) : List IntentAct :=
  [.readRevision pid, .readReceipt pid, .load pid, .transact pid false now]

/-- 照合が一覧を写した後で題が変わる。占有されているので照合は先送りになり、変更した側が果たす。 -/
def editWhileReconciling : List IntentAct :=
  .snapshot 1 :: editTitle 0 "m2" "second" 7 ++ fulfill 1 8 ++ fulfill 0 9

theorem fulfilled_payload_canonical_leftover :
    leftover.Started
      ∧ (trace (intentStep titleStore) leftover editWhileReconciling).any (fun e =>
        e.result.any fun event => event.result = .fulfilled) = true
      ∧ (∀ e ∈ trace (intentStep titleStore) leftover editWhileReconciling,
        ∀ event ∈ e.result, event.result = .fulfilled →
        ∃ task, e.before.db.row? event.intent.entityId = some task
          ∧ event.queued.map Prod.snd
            = some (titleStore.canonicalPayload event.intent.globalScope task))
      ∧ ∀ e ∈ trace (intentStep titleStore) leftover editWhileReconciling,
        ∀ pid busy now, e.op = .transact pid busy now →
        ∀ next, (e.before.pc pid).snapshot? = some next → ∀ i ∈ e.before.intents, next ≤ i.id →
          i ∈ (intentStep titleStore e.before e.op).2.intents := by
  have hspec := fulfilled_payload_canonical titleStore leftover editWhileReconciling leftover_started
  -- この実行では、意図を残して去る処理が無い
  have hkept : Guarded (intentStep titleStore) (fun s act => (s.abandonedBy act).isNone = true)
      leftover editWhileReconciling := by
    decide
  refine ⟨leftover_started, by decide, fun e he event hevent hfulfilled => ?_,
    hspec.2 (hkept.imp fun s act hnone intent hintent => ?_)⟩
  · obtain ⟨task, hrow, -, hqueued, -⟩ := hspec.1 e he event hevent hfulfilled
    exact ⟨task, hrow, by rw [hqueued]; rfl⟩
  · rw [Option.mem_def.mp hintent] at hnone
    cases hnone

/-- 照合が一覧を写した後で、意図を立てた処理が書き込んでから倒れる。 -/
def crashWhileReconciling : List IntentAct :=
  .snapshot 1 :: editTitle 0 "m2" "second" 7
    ++ [.crash 0, .readRevision 1, .readReceipt 1, .load 1]

/-- 照合が、一覧を写した後に立てられた意図を消す。二番目の題は、どこにも載らないまま意図が無くなる。 -/
theorem reconcile_retires_newer_intent :
    let s := run (intentStep titleStore) leftover crashWhileReconciling
    leftover.Started ∧ (s.pc 1).snapshot? = some 2 ∧ s.intents.map TaskSyncIntent.id = [1, 2]
      ∧ (intentStep titleStore s (.transact 1 false 9)).2.intents = []
      ∧ (intentStep titleStore s (.transact 1 false 9)).2.queue.table.rows = [] :=
  ⟨leftover_started, by decide⟩

end Cassy
