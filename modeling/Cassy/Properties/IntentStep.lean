import Cassy.Cloud.TaskIntents
import Cassy.Properties.TaskRevision

/-!
# 意図の機械の一手

意図の機械が一手でしうることを `Transition` として一度だけ言い、どの手もその一つであることを示す。意図を果たす
write transaction の終わり方は `FulfillCase` が言う。

database の側では、どの書き込みも版を戻さず、版が同じなら行も同じである。
-/

namespace Cassy

open Infra

namespace RevisionDb

variable {db db' db'' : RevisionDb} {op : TaskOp} {id : String}
variable {intent : TaskSyncIntent}

/-! ## database の進み方 -/

/-- 版は戻らず、版が同じなら行も同じである。 -/
structure Advances (db db' : RevisionDb) : Prop where
  revision_le : ∀ id, db.revision id ≤ db'.revision id
  row_eq : ∀ id, db'.revision id = db.revision id → db'.row? id = db.row? id

theorem Advances.refl (db : RevisionDb) : Advances db db :=
  ⟨fun _ => Nat.le_refl _, fun _ _ => rfl⟩

theorem Outcome.advances (h : Outcome db db' op) : Advances db db' where
  revision_le id := (h.revision_le id).1
  row_eq id heq := by
    by_contra hne
    exact absurd heq (Nat.ne_of_gt ((h.revision_le id).2 hne))

theorem Touched.advances (h : Touched db db' id) : Advances db db' where
  revision_le id' := by
    by_cases hid : id' = id
    · rw [hid, h.revision_self]
      exact Nat.le_succ _
    · exact Nat.le_of_eq (h.revision_other hid).symm
  row_eq id' heq := by
    by_cases hid : id' = id
    · rw [hid, h.revision_self] at heq
      exact absurd heq (Nat.succ_ne_self _)
    · exact h.others id' hid

/-- 受領書を消しても、行も版も変わらない。 -/
theorem dropReceipts_advances (db : RevisionDb) (ids : List String) :
    Advances db (db.dropReceipts ids) :=
  ⟨fun _ => Nat.le_refl _, fun _ _ => rfl⟩

/-- `record_merge_admission` は、断られなければ task の行を書き換える。 -/
theorem recordMergeAdmission_touched (db : RevisionDb) (taskId mergeCommit : String)
    (admission : MergeCiAdmission) (now : Time) :
    db.recordMergeAdmission taskId mergeCommit admission now = db
      ∨ Touched db (db.recordMergeAdmission taskId mergeCommit admission now) taskId := by
  unfold recordMergeAdmission
  split
  · exact .inl rfl
  next t ht =>
    split
    · exact .inr (UpdatesRow.touched ⟨_, _, t, ht, rfl⟩)
    · exact .inl rfl

/-- 版の行があれば、その版が今の版である。 -/
theorem revision_of_currentRevision {r : Nat × Bool} (h : db.currentRevision id = some r) :
    r.1 = db.revision id ∧ r.2 = db.present id := by
  unfold currentRevision at h
  obtain ⟨row, hrow, rfl⟩ := Option.map_eq_some_iff.mp h
  unfold revision present
  rw [hrow]
  exact ⟨rfl, rfl⟩

/-! ## 分類 -/

theorem classifyWith_proceed {committed : Option Nat} {current : Option (Nat × Bool)}
    {revision : Nat} (h : intent.classifyWith committed current = .proceed revision) :
    committed = some revision ∧ current = some (revision, true) := by
  unfold TaskSyncIntent.classifyWith at h
  split at h
  next c r p =>
    split at h
    next hcond =>
      obtain ⟨rfl, hp⟩ := hcond
      cases h
      exact ⟨rfl, by rw [hp]⟩
    next =>
      split at h <;> cases h
  next =>
    split at h <;> cases h
  next =>
    split at h <;> cases h
  next => cases h

theorem classifyWith_superseded {committed : Option Nat} {current : Option (Nat × Bool)}
    (h : intent.classifyWith committed current = .superseded) :
    ∃ c r, committed = some c ∧ current = some r ∧ c < r.1 := by
  unfold TaskSyncIntent.classifyWith at h
  split at h
  next c r p =>
    split at h
    · cases h
    · split at h
      next hlt => exact ⟨c, (r, p), rfl, rfl, hlt⟩
      next => cases h
  next =>
    split at h <;> cases h
  next =>
    split at h <;> cases h
  next => cases h

theorem classifyWith_provenPreCommit {committed : Option Nat} {current : Option (Nat × Bool)}
    (h : intent.classifyWith committed current = .provenPreCommit) : committed = none := by
  unfold TaskSyncIntent.classifyWith at h
  split at h
  next =>
    split at h
    · cases h
    · split at h <;> cases h
  next => rfl
  next => rfl
  next => cases h

/-- 果たしてよい意図は、受領書が今の版を指している。 -/
theorem committed_of_proceed {revision : Nat}
    (h : db.classifyTaskSyncIntent intent = .proceed revision) :
    db.committedRevision intent = some revision ∧ revision = db.revision intent.entityId
      ∧ db.present intent.entityId = true := by
  obtain ⟨hcommitted, hcurrent⟩ := classifyWith_proceed h
  obtain ⟨hrev, hpresent⟩ := revision_of_currentRevision hcurrent
  exact ⟨hcommitted, hrev, hpresent.symm⟩

/-- 追い越された意図は、受領書が今より前の版を指している。 -/
theorem committed_of_superseded (h : db.classifyTaskSyncIntent intent = .superseded) :
    ∃ c, db.committedRevision intent = some c ∧ c < db.revision intent.entityId := by
  obtain ⟨c, r, hcommitted, hcurrent, hlt⟩ := classifyWith_superseded h
  rw [(revision_of_currentRevision hcurrent).1] at hlt
  exact ⟨c, hcommitted, hlt⟩

/-- 書き込みが起きなかったと分かる意図は、受領書を持たない。 -/
theorem committed_of_provenPreCommit (h : db.classifyTaskSyncIntent intent = .provenPreCommit) :
    db.committedRevision intent = none :=
  classifyWith_provenPreCommit h

end RevisionDb

/-! ## 処理の位置 -/

namespace SyncPc

/-- 占有している処理が立てた意図。 -/
def held : SyncPc → Option TaskSyncIntent
  | staged intent | refused intent | fulfilling intent _ _ => some intent
  | _ => none

/-- stripe を占有しているか。 -/
def owns : SyncPc → Bool
  | idle | reconciling _ _ _ _ => false
  | _ => true

/-- 照合が一覧を写したときの、次の番号。 -/
def snapshot? : SyncPc → Option Nat
  | reconciling next _ _ _ => some next
  | _ => none

/-- 果たしている最中の意図と、その手順の位置。 -/
def fulfilment : SyncPc → Option (TaskSyncIntent × FulfillPc)
  | fulfilling intent _ pc | reconciling _ (intent :: _) _ pc => some (intent, pc)
  | _ => none

theorem owns_of_held {pc : SyncPc} {intent : TaskSyncIntent} (h : pc.held = some intent) :
    pc.owns = true := by
  cases pc with
  | idle | locked | reconciling => cases h
  | staged | refused | fulfilling => rfl

theorem reconcileRest_snapshot? {next n : Nat} {rest : List TaskSyncIntent}
    (h : (reconcileRest next rest).snapshot? = some n) : n = next := by
  cases rest with
  | nil => cases h
  | cons => exact (Option.some.inj h).symm

@[simp] theorem reconcileRest_held (next : Nat) (rest : List TaskSyncIntent) :
    (reconcileRest next rest).held = none := by
  cases rest <;> rfl

@[simp] theorem reconcileRest_owns (next : Nat) (rest : List TaskSyncIntent) :
    (reconcileRest next rest).owns = false := by
  cases rest <;> rfl

theorem reconcileRest_fulfilment {next : Nat} {rest : List TaskSyncIntent}
    {intent : TaskSyncIntent} {pc : FulfillPc}
    (h : (reconcileRest next rest).fulfilment = some (intent, pc)) : pc = .start := by
  cases rest with
  | nil => cases h
  | cons =>
    simp only [reconcileRest, fulfilment, Option.some.injEq, Prod.mk.injEq] at h
    exact h.2.symm

end SyncPc

/-! ## write transaction の終わり方 -/

/-- `fulfill_task_sync_intent` の write transaction の終わり方。 -/
inductive FulfillCase (env : IntentEnv) (s : IntentState) (mode : TaskSyncFulfillMode)
    (intent : TaskSyncIntent) (preloaded : Option (Nat × Option TaskSyncPayload)) (now : Time) :
    FulfillOutcome → IntentState → Prop
  | superseded (h : s.db.classifyTaskSyncIntent intent = .superseded) :
    FulfillCase env s mode intent preloaded now
      (.report { intent, mode, result := .superseded }) s.retireTaskSyncEvidence
  | provenPreCommit (h : s.db.classifyTaskSyncIntent intent = .provenPreCommit) :
    FulfillCase env s mode intent preloaded now
      (.report { intent, mode, result := .provenPreCommit }) (s.retireOneTaskSyncIntent intent)
  | blocked (diagnostic : String) (firstReport : Bool) (hmode : mode = .reconcile) :
    FulfillCase env s mode intent preloaded now
      (.report { intent, mode, result := .blocked diagnostic firstReport })
      (s.recordBlocked intent diagnostic)
  | deferred (hmode : mode = .reconcile) :
    FulfillCase env s mode intent preloaded now (.report { intent, mode, result := .deferred }) s
  | retry : FulfillCase env s mode intent preloaded now .retry s
  | refused (diagnostic : String) (h : s.db.classifyTaskSyncIntent intent = .blocked diagnostic) :
    FulfillCase env s mode intent preloaded now .failed s
  | missing (revision : Nat) (h : s.db.classifyTaskSyncIntent intent = .proceed revision)
      (hload : preloaded = some (revision, none) ∨ env.loadCanonical s.db intent = none) :
    FulfillCase env s mode intent preloaded now .failed s
  | fulfilled (revision : Nat) (canonical : TaskSyncPayload)
      (h : s.db.classifyTaskSyncIntent intent = .proceed revision)
      (hload : preloaded = some (revision, some canonical)
        ∨ env.loadCanonical s.db intent = some canonical) :
    FulfillCase env s mode intent preloaded now
      (.report { intent, mode, result := .fulfilled, queued := some (revision, canonical) })
      (s.finish env intent revision canonical now)

theorem fulfillTx_case (env : IntentEnv) (s : IntentState) (mode : TaskSyncFulfillMode)
    (intent : TaskSyncIntent) (attempt : Nat)
    (preloaded : Option (Nat × Option TaskSyncPayload)) (now : Time) :
    FulfillCase env s mode intent preloaded now
      (s.fulfillTx env mode intent attempt preloaded now).1
      (s.fulfillTx env mode intent attempt preloaded now).2 := by
  unfold IntentState.fulfillTx
  cases h : s.db.classifyTaskSyncIntent intent with
  | superseded => exact .superseded h
  | provenPreCommit => exact .provenPreCommit h
  | blocked diagnostic =>
    cases mode with
    | mutation => exact .refused diagnostic h
    | reconcile => exact .blocked diagnostic _ rfl
  | proceed revision =>
    dsimp only
    split
    next loaded hloaded =>
      obtain ⟨hpre, hrev⟩ := Option.filter_eq_some_iff.mp hloaded
      obtain ⟨loadedRevision, canonical⟩ := loaded
      obtain rfl : loadedRevision = revision := of_decide_eq_true hrev
      cases canonical with
      | none => exact .missing _ h (.inl hpre)
      | some canonical => exact .fulfilled _ canonical h (.inl hpre)
    next =>
      split
      · exact .retry
      cases mode with
      | reconcile => exact .deferred rfl
      | mutation =>
        dsimp only
        cases hload : env.loadCanonical s.db intent with
        | none => exact .missing _ h (.inr hload)
        | some canonical => exact .fulfilled _ canonical h (.inr hload)

/-! ## 一手でしうること -/

/-- 占有の前の読み取り一つ。 -/
inductive FulfillRead (env : IntentEnv) (db : RevisionDb) (intent : TaskSyncIntent) :
    FulfillPc → FulfillPc → Prop
  | revision : FulfillRead env db intent .start
      (.revisionRead (db.currentRevision intent.entityId))
  | proceed (current : Option (Nat × Bool)) (revision : Nat)
      (h : current = some (revision, true)) :
    FulfillRead env db intent (.revisionRead current) (.classified (some revision))
  | other (current : Option (Nat × Bool)) :
    FulfillRead env db intent (.revisionRead current) (.loaded none)
  | load (revision : Nat) :
    FulfillRead env db intent (.classified (some revision))
      (.loaded (some (revision, env.loadCanonical db intent)))

/-- 機械の一手がしうること。 -/
inductive Transition (env : IntentEnv) (s : IntentState) : IntentAct → IntentState → Prop
  | stay (act : IntentAct) : Transition env s act s
  | acquire (pid : Nat) (hpc : s.pc pid = .idle) (hstripe : s.stripe = none) :
    Transition env s (.acquire pid) { s.setPc pid .locked with stripe := some pid }
  | stage (act : IntentAct) (pid : Nat) (intent : TaskSyncIntent) (hpc : s.pc pid = .locked)
      (hid : intent.id = s.nextIntent) (hentity : intent.entityId = env.entityId)
      (hreceipt : s.db.receipts.find? intent.mutationId = none)
      (hintents : ∀ i ∈ s.intents, i.mutationId ≠ intent.mutationId)
      (hrecovery : ∀ r ∈ s.recovery, r.mutationId ≠ intent.mutationId) :
    Transition env s act
      { s.setPc pid (.staged intent) with
        intents := s.intents ++ [intent]
        nextIntent := s.nextIntent + 1 }
  | commit (pid : Nat) (intent : TaskSyncIntent) (origin : Option String) (op : TaskOp)
      (db : RevisionDb) (hpc : s.pc pid = .staged intent) (hout : RevisionDb.Outcome s.db db op)
      (hrequest : op.receiptId? = some intent.mutationId) (htask : op.taskId = env.entityId)
      (hreceipt : (db.receipts.find? intent.mutationId).isSome) :
    Transition env s (.commit pid origin op)
      { s.setPc pid (.fulfilling intent 1 .start) with
        db
        committed := some (db.revision env.entityId) }
  | refuse (act : IntentAct) (pid : Nat) (intent : TaskSyncIntent)
      (hpc : s.pc pid = .staged intent) : Transition env s act (s.setPc pid (.refused intent))
  | cancel (pid : Nat) (intent : TaskSyncIntent) (hpc : s.pc pid = .refused intent) :
    Transition env s (.cancel pid true) ((s.retireOneTaskSyncIntent intent).leave pid)
  | keepRefused (pid : Nat) (intent : TaskSyncIntent) (hpc : s.pc pid = .refused intent) :
    Transition env s (.cancel pid false) (s.leave pid)
  | readMutation (act : IntentAct) (pid : Nat) (intent : TaskSyncIntent) (attempt : Nat)
      (pc pc' : FulfillPc) (hpc : s.pc pid = .fulfilling intent attempt pc)
      (hread : FulfillRead env s.db intent pc pc') :
    Transition env s act (s.setPc pid (.fulfilling intent attempt pc'))
  | readReconcile (act : IntentAct) (pid next : Nat) (intent : TaskSyncIntent)
      (rest : List TaskSyncIntent) (attempt : Nat) (pc pc' : FulfillPc)
      (hpc : s.pc pid = .reconciling next (intent :: rest) attempt pc)
      (hread : FulfillRead env s.db intent pc pc') :
    Transition env s act (s.setPc pid (.reconciling next (intent :: rest) attempt pc'))
  | mutation (pid : Nat) (intent : TaskSyncIntent) (attempt : Nat)
      (preloaded : Option (Nat × Option TaskSyncPayload)) (busy : Bool) (now : Time)
      (outcome : FulfillOutcome) (m : IntentState)
      (hpc : s.pc pid = .fulfilling intent attempt (.loaded preloaded))
      (hcase : FulfillCase env s .mutation intent preloaded now outcome m)
      (hretry : outcome ≠ .retry) :
    Transition env s (.transact pid busy now) (m.leave pid)
  | mutationRetry (act : IntentAct) (pid : Nat) (intent : TaskSyncIntent) (attempt : Nat)
      (pc : FulfillPc) (hpc : s.pc pid = .fulfilling intent attempt pc) :
    Transition env s act (s.setPc pid (.fulfilling intent (attempt + 1) .start))
  | reconcile (pid next : Nat) (intent : TaskSyncIntent) (rest : List TaskSyncIntent)
      (attempt : Nat) (preloaded : Option (Nat × Option TaskSyncPayload)) (busy : Bool)
      (now : Time) (outcome : FulfillOutcome) (m : IntentState) (pc : SyncPc)
      (hpc : s.pc pid = .reconciling next (intent :: rest) attempt (.loaded preloaded))
      (hstripe : s.stripe = none) (hpending : s.stillPending intent = true)
      (hcase : FulfillCase env s .reconcile intent preloaded now outcome m)
      (hnext : pc = .idle
        ∨ (m = s.retireOneTaskSyncIntent intent ∧ pc = SyncPc.reconcileRest next rest)
        ∨ (m = s ∧ pc = .reconciling next (intent :: rest) (attempt + 1) .start)) :
    Transition env s (.transact pid busy now) (m.setPc pid pc)
  | defer (act : IntentAct) (pid next : Nat) (rest : List TaskSyncIntent) (attempt : Nat)
      (pc : FulfillPc) (hpc : s.pc pid = .reconciling next rest attempt pc) :
    Transition env s act (s.setPc pid .idle)
  | crash (pid : Nat) : Transition env s (.crash pid) (s.leave pid)
  | snapshot (pid : Nat) (hpc : s.pc pid = .idle) :
    Transition env s (.snapshot pid)
      (s.setPc pid (SyncPc.reconcileRest s.nextIntent s.pendingTaskSyncIntents.reverse))
  | write (origin : Option String) (op : TaskOp) (hrequest : op.receiptId? = none) :
    Transition env s (.write origin op)
      { s with db := (taskStep env.parseTimestamp origin s.db op).2 }
  | mergeAdmission (mergeCommit : String) (admission : MergeCiAdmission) (now : Time)
      (hstripe : s.stripe = none) :
    Transition env s (.mergeAdmission mergeCommit admission now)
      { s with db := s.db.recordMergeAdmission env.entityId mergeCommit admission now }
  | enqueue (w : QueueWrite) :
    Transition env s (.enqueue w) { s with queue := s.queue.upsertQueueRow w }

section Steps

variable {env : IntentEnv} {s : IntentState} {act : IntentAct} {pid : Nat}

/-- 位置を変えない書き込みは何もしない。 -/
theorem setPc_self {pc : SyncPc} (h : s.pc pid = pc) : s.setPc pid pc = s := by
  unfold IntentState.setPc
  rw [← h, Function.update_eq_self]

theorem readRevision_read (env : IntentEnv) (db : RevisionDb) (intent : TaskSyncIntent)
    (pc : FulfillPc) :
    pc.readRevision db intent.entityId = pc
      ∨ FulfillRead env db intent pc (pc.readRevision db intent.entityId) := by
  cases pc with
  | start => exact .inr .revision
  | revisionRead | classified | loaded => exact .inl rfl

theorem readReceipt_read (env : IntentEnv) (db : RevisionDb) (intent : TaskSyncIntent)
    (pc : FulfillPc) :
    pc.readReceipt db intent = pc ∨ FulfillRead env db intent pc (pc.readReceipt db intent) := by
  cases pc with
  | revisionRead current =>
    right
    dsimp only [FulfillPc.readReceipt]
    split
    next revision hclass =>
      exact .proceed current revision (RevisionDb.classifyWith_proceed hclass).2
    next => exact .other current
  | start | classified | loaded => exact .inl rfl

theorem load_read (env : IntentEnv) (db : RevisionDb) (intent : TaskSyncIntent) (pc : FulfillPc) :
    pc.load env db intent = pc ∨ FulfillRead env db intent pc (pc.load env db intent) := by
  cases pc with
  | classified preloaded =>
    cases preloaded with
    | none => exact .inl rfl
    | some revision => exact .inr (.load revision)
  | start | revisionRead | loaded => exact .inl rfl

theorem advance_transition {f : TaskSyncIntent → FulfillPc → FulfillPc}
    (hf : ∀ intent pc, f intent pc = pc ∨ FulfillRead env s.db intent pc (f intent pc)) :
    Transition env s act (s.advance pid f) := by
  unfold IntentState.advance
  split
  next intent attempt pc hpc =>
    rcases hf intent pc with heq | hread
    · rw [heq, setPc_self hpc]
      exact .stay act
    · exact .readMutation act pid intent attempt pc _ hpc hread
  next next intent rest attempt pc hpc =>
    rcases hf intent pc with heq | hread
    · rw [heq, setPc_self hpc]
      exact .stay act
    · exact .readReconcile act pid next intent rest attempt pc _ hpc hread
  next => exact .stay act

theorem transactMutation_transition {intent : TaskSyncIntent} {attempt : Nat}
    {preloaded : Option (Nat × Option TaskSyncPayload)} (busy : Bool) (now : Time)
    (hpc : s.pc pid = .fulfilling intent attempt (.loaded preloaded)) :
    Transition env s (.transact pid busy now)
      (s.transactMutation env pid intent attempt preloaded now).2 := by
  have hcase := fulfillTx_case env s .mutation intent attempt preloaded now
  unfold IntentState.transactMutation
  generalize s.fulfillTx env .mutation intent attempt preloaded now = tx at hcase
  obtain ⟨outcome, m⟩ := tx
  cases outcome with
  | report event => exact .mutation pid intent attempt preloaded busy now _ m hpc hcase nofun
  | failed => exact .mutation pid intent attempt preloaded busy now _ m hpc hcase nofun
  | retry =>
    cases hcase
    exact .mutationRetry _ pid intent attempt _ hpc

theorem transactReconcile_transition {next : Nat} {intent : TaskSyncIntent}
    {rest : List TaskSyncIntent} {attempt : Nat}
    {preloaded : Option (Nat × Option TaskSyncPayload)} (busy : Bool) (now : Time)
    (hpc : s.pc pid = .reconciling next (intent :: rest) attempt (.loaded preloaded)) :
    Transition env s (.transact pid busy now)
      (s.transactReconcile env pid next intent rest attempt preloaded busy now).2 := by
  have hcase := fulfillTx_case env s .reconcile intent attempt preloaded now
  unfold IntentState.transactReconcile
  split
  · exact .defer _ pid next _ attempt _ hpc
  next hfree =>
  have hstripe : s.stripe = none := by
    cases hs : s.stripe with
    | none => rfl
    | some => exact absurd (.inr (by rw [hs]; rfl)) hfree
  split
  · exact .defer _ pid next _ attempt _ hpc
  next hpending =>
  have hpending : s.stillPending intent = true := by simpa using hpending
  generalize s.fulfillTx env .reconcile intent attempt preloaded now = tx at hcase
  obtain ⟨outcome, m⟩ := tx
  have hdone := fun pc => @Transition.reconcile env s pid next intent rest attempt preloaded
    busy now outcome m pc hpc hstripe hpending hcase
  cases outcome with
  | report event =>
    dsimp only
    split
    next hevent =>
      cases hcase with
      | provenPreCommit => exact hdone _ (.inr (.inl ⟨rfl, rfl⟩))
      | _ => cases hevent
    next => exact hdone _ (.inl rfl)
  | failed => exact hdone _ (.inl rfl)
  | retry =>
    cases hcase
    exact hdone _ (.inr (.inr ⟨rfl, rfl⟩))

/-- どの手も `Transition` の一つである。 -/
theorem intentStep_transition (env : IntentEnv) (s : IntentState) (act : IntentAct) :
    Transition env s act (intentStep env s act).2 := by
  cases act with
  | acquire pid =>
    dsimp only [intentStep]
    split
    next hpc hstripe => exact .acquire pid hpc hstripe
    next => exact .stay _
  | stage pid mutationId operation previousUpdatedAt teamId fallbackTeamId fallbackProjectId
      globalScope =>
    dsimp only [intentStep]
    split
    next hpc =>
      split
      next hfresh =>
        obtain ⟨-, hreceipt, hintents, hrecovery⟩ := hfresh
        exact .stage _ pid _ hpc rfl rfl hreceipt hintents hrecovery
      next => exact .stay _
    next => exact .stay _
  | commit pid origin op =>
    dsimp only [intentStep]
    split
    next intent hpc =>
      split
      next hop =>
        unfold IntentState.commit
        dsimp only
        split
        next hreceipt =>
          exact .commit pid intent origin op _ hpc (taskStep_outcome s.db op) hop.1 hop.2 hreceipt
        next => exact .refuse _ pid intent hpc
      next => exact .stay _
    next => exact .stay _
  | cancel pid ok =>
    dsimp only [intentStep]
    split
    next intent hpc =>
      cases ok with
      | true => exact .cancel pid intent hpc
      | false => exact .keepRefused pid intent hpc
    next => exact .stay _
  | readRevision pid => exact advance_transition fun _ => readRevision_read env _ _
  | readReceipt pid => exact advance_transition fun _ => readReceipt_read env _ _
  | load pid => exact advance_transition fun _ => load_read env _ _
  | transact pid busy now =>
    dsimp only [intentStep]
    split
    next intent attempt preloaded hpc => exact transactMutation_transition busy now hpc
    next next intent rest attempt preloaded hpc => exact transactReconcile_transition busy now hpc
    next => exact .stay _
  | crash pid => exact .crash pid
  | snapshot pid =>
    dsimp only [intentStep]
    split
    next hpc => exact .snapshot pid hpc
    next => exact .stay _
  | write origin op =>
    dsimp only [intentStep]
    split
    next hrequest => exact .write origin op hrequest
    next => exact .stay _
  | mergeAdmission mergeCommit admission now =>
    dsimp only [intentStep]
    split
    next hstripe => exact .mergeAdmission mergeCommit admission now hstripe
    next => exact .stay _
  | enqueue w => exact .enqueue w

end Steps

end Cassy
