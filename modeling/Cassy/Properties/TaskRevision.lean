import Cassy.Task.Revision

/-!
# 版は戻らない

task の行を書く操作をどう並べても、次が成り立つことを示す。

* 行が変われば版は進む。消してから作り直しても、前の版には戻らない
* 記録されている在否は、行があるかどうかと一致する
* 受領書は、それを作った transaction が進めた版を指す

`append_trusted_note` だけは、書こうとした文がもう立っているときに何も書かずに受領書を作る。
その受領書は今の版を指す。

証明は、操作が版の表と受領書の表に何をしうるかを `Outcome` として一度だけ言い、残りを
そこから引き出す。
-/

namespace Cassy

open Infra

/-- 信用された追記か。 -/
def TaskOp.isTrusted : TaskOp → Bool
  | appendTrustedNote _ _ _ _ => true
  | _ => false

namespace RevisionDb

variable {s m s' : RevisionDb} {id : String}

/-! ## trigger の効果 -/

@[simp] theorem bump_proof (s : RevisionDb) (id : String) (p : Bool) :
    (s.bump id p).proof = s.proof := by
  unfold bump
  split <;> rfl

@[simp] theorem bump_receipts (s : RevisionDb) (id : String) (p : Bool) :
    (s.bump id p).receipts = s.receipts := by
  unfold bump
  split <;> rfl

/-- trigger の後の版の行。 -/
theorem find?_bump (s : RevisionDb) (id : String) (p : Bool) (id' : String) :
    (s.bump id p).revisions.find? id' =
      if id = id' then some { entityId := id, revision := s.revision id + 1, present := p }
      else s.revisions.find? id' := by
  unfold bump revision
  cases h : s.revisions.find? id with
  | none =>
    rw [Table.find?_insertOrIgnore]
    split
    · next he =>
      subst he
      rw [h]
      rfl
    · rw [Option.or_none]
  | some r =>
    rw [Table.find?_update]
    split
    · next he =>
      subst he
      have hk := Table.key_of_find? h
      simp [h, hk]
    · next he =>
      have hne : ∀ r', s.revisions.find? id' = some r' → r'.entityId ≠ id :=
        fun r' hr' hk => he (hk.symm.trans (Table.key_of_find? hr'))
      cases h' : s.revisions.find? id' with
      | none => rfl
      | some r' => simp [hne r' h']

/-- 版を進める書き込み。行が変わるのは `id` だけで、版はその在否とともに一つ進む。 -/
structure Touched (s m : RevisionDb) (id : String) : Prop where
  others : ∀ id', id' ≠ id → m.row? id' = s.row? id'
  revisions : m.revisions = (s.bump id (m.row? id).isSome).revisions
  receipts : m.receipts = s.receipts

theorem Touched.revision_self (h : Touched s m id) : m.revision id = s.revision id + 1 := by
  unfold revision
  rw [h.revisions, find?_bump, if_pos rfl]
  rfl

theorem Touched.revision_other (h : Touched s m id) {id' : String} (hne : id' ≠ id) :
    m.revision id' = s.revision id' := by
  unfold revision
  rw [h.revisions, find?_bump, if_neg hne.symm]

theorem Touched.present_self (h : Touched s m id) : m.present id = (m.row? id).isSome := by
  unfold present
  rw [h.revisions, find?_bump, if_pos rfl]
  rfl

theorem Touched.present_other (h : Touched s m id) {id' : String} (hne : id' ≠ id) :
    m.present id' = s.present id' := by
  unfold present
  rw [h.revisions, find?_bump, if_neg hne.symm]

/-- 行を書いた後に trigger を流したもの。 -/
theorem touched_bump {proof : ProofDb} {p : Bool}
    (hself : (proof.base.tasks.find? id).isSome = p)
    (hother : ∀ id', id' ≠ id → proof.base.tasks.find? id' = s.row? id') :
    Touched s (bump { s with proof } id p) id where
  others id' hne := by
    unfold row?
    rw [bump_proof]
    exact hother id' hne
  revisions := by
    have hrow : ((bump { s with proof } id p).row? id).isSome = p := by
      unfold row?
      rw [bump_proof]
      exact hself
    rw [hrow]
    unfold bump
    cases s.revisions.find? id <;> rfl
  receipts := bump_receipts _ _ _

/-! ## 受領書の効果 -/

/-- 受領書を作る文が書くもの。 -/
theorem recordIfSome_ok {receiptId : Option String} {taskId : String} {now : Time}
    (h : s.recordIfSome receiptId taskId now = .ok s') :
    s'.proof = s.proof ∧ s'.revisions = s.revisions
      ∧ (s'.receipts = s.receipts ∨ ∃ r, s.receipts.insert? r = some s'.receipts
        ∧ receiptId = some r.receiptId ∧ r.entityId = taskId ∧ r.revision = s.revision taskId
        ∧ s.present taskId = true) := by
  cases receiptId with
  | none =>
    simp only [recordIfSome, Except.ok.injEq] at h
    subst h
    exact ⟨rfl, rfl, .inl rfl⟩
  | some receiptId =>
    simp only [recordIfSome, recordMutationReceipt, bind_eq_ok, okOr_eq_ok, pure_eq_ok,
      Option.filter_eq_some_iff] at h
    obtain ⟨r, ⟨hr, hp⟩, receipts, hins, rfl⟩ := h
    refine ⟨rfl, rfl, .inr ⟨_, hins, rfl, rfl, ?_, ?_⟩⟩
    · simp [revision, hr]
    · simpa [present, hr] using hp

/-! ## 操作の効果 -/

/-- 操作が版と受領書の表に残すもの。 -/
inductive Outcome (s s' : RevisionDb) (op : TaskOp) : Prop
  /-- 落ちたか断られて、何も変わらない。 -/
  | refused (h : s' = s)
  /-- 行を書き、版を進めてから、求められていれば受領書を作る。 -/
  | wrote (m : RevisionDb) (now : Time) (hw : Touched s m op.taskId)
      (hr : m.recordIfSome op.receiptId? op.taskId now = .ok s')
  /-- 信用された追記の文がもう立っていて、受領書だけを作る。 -/
  | stood (now : Time) (ht : op.isTrusted = true)
      (hr : s.recordIfSome op.receiptId? op.taskId now = .ok s')

theorem addWithConn_touched {task : Task} (h : s.addWithConn task = .ok m) :
    Touched s m task.id := by
  simp only [addWithConn, ProofDb.addTask, bind_eq_ok, okOr_eq_ok, pure_eq_ok] at h
  obtain ⟨_, ⟨tasks, hins, rfl⟩, rfl⟩ := h
  refine touched_bump ?_ fun id' hne => ?_
  · have hf := Table.find?_insert? hins task.id
    simp only [if_true] at hf
    rw [hf]
    rfl
  · have hf := Table.find?_insert? hins id'
    simp only [if_neg hne.symm] at hf
    exact hf

theorem addDependencies_frame : ∀ {deps : List Dependency} {s m : RevisionDb},
    s.addDependencies deps = .ok m →
    (∀ id, m.row? id = s.row? id) ∧ m.revisions = s.revisions ∧ m.receipts = s.receipts
  | [], _, _, h => by
    rw [← Except.ok.inj h]
    exact ⟨fun _ => rfl, rfl, rfl⟩
  | dep :: deps, s, m, h => by
    simp only [addDependencies, addDependencyUnchecked, bind_eq_ok, pure_eq_ok] at h
    obtain ⟨_, ⟨_, _, _, _, rfl⟩, h⟩ := h
    obtain ⟨hrow, hrev, hrec⟩ := addDependencies_frame h
    exact ⟨hrow, hrev, hrec⟩

/-- 依存の挿入は task の行と版に触れない。 -/
theorem Touched.addDependencies {deps : List Dependency} (h : Touched s m id)
    (hd : m.addDependencies deps = .ok s') : Touched s s' id := by
  obtain ⟨hrow, hrev, hrec⟩ := addDependencies_frame hd
  exact
    { others := fun id' hne => (hrow id').trans (h.others id' hne)
      revisions := by rw [hrev, hrow, h.revisions]
      receipts := hrec.trans h.receipts }

/-- 主キーで選んだ、ある行を書き換える。 -/
def UpdatesRow (db proof : ProofDb) (id : String) : Prop :=
  ∃ (f : Task → Task) (hf : ∀ t, (f t).id = t.id) (t : Task),
    db.base.tasks.find? id = some t ∧ proof = db.updateTask id f hf

theorem UpdatesRow.touched {proof : ProofDb} (h : UpdatesRow s.proof proof id) :
    Touched s (afterUpdate { s with proof } id) id := by
  obtain ⟨f, hf, t, ht, rfl⟩ := h
  refine touched_bump ?_ fun id' hne => ?_
  · simp [ProofDb.updateTask, ht]
  · unfold row?
    rw [ProofDb.updateTask, Table.find?_update]
    cases h : s.proof.base.tasks.find? id' with
    | none => rfl
    | some t' =>
      have hk : t'.id ≠ id := fun he => hne ((Table.key_of_find? h).symm.trans he)
      simp [hk]

/-- 断られなかった更新は、主キーで選んだ行を書き換える。 -/
theorem updateChecked_row {db proof : ProofDb} {task : Task} {expected : Option Task}
    {fromSync : Bool} {leaseAt now : Time} {stamp : Option Time}
    (h : db.updateChecked task expected fromSync leaseAt now = .ok (stamp, proof)) :
    (stamp = none ∧ proof = db) ∨ (stamp ≠ none ∧ UpdatesRow db proof task.id) := by
  simp only [ProofDb.updateChecked, bind_eq_ok] at h
  obtain ⟨refused, -, h⟩ := h
  split at h
  · simp only [pure_eq_ok, Prod.mk.injEq] at h
    exact .inl ⟨h.1.symm, h.2.symm⟩
  · simp only [bind_eq_ok, ensure_eq_ok, pure_eq_ok, Prod.mk.injEq] at h
    obtain ⟨_, hsome, rfl, rfl⟩ := h
    obtain ⟨t, ht⟩ := Option.isSome_iff_exists.mp hsome
    exact .inr ⟨by simp, _, _, t, ht, rfl⟩

/-- 更新に trigger と受領書を足したもの。 -/
theorem updating_outcome {op : TaskOp} {body : Except StoreError (Option Time × ProofDb)}
    {now : Time} {a : Option Time}
    (hbody : ∀ stamp proof, body = .ok (stamp, proof) →
      (stamp = none ∧ proof = s.proof) ∨ (stamp ≠ none ∧ UpdatesRow s.proof proof op.taskId))
    (h : s.updating body op.taskId op.receiptId? now = .ok (a, s')) : Outcome s s' op := by
  simp only [updating, bind_eq_ok] at h
  obtain ⟨⟨stamp, proof⟩, hb, h⟩ := h
  rcases hbody stamp proof hb with ⟨rfl, rfl⟩ | ⟨hstamp, hrow⟩
  · simp only [pure_eq_ok, Prod.mk.injEq] at h
    exact .refused h.2.symm
  · cases stamp with
    | none => exact absurd rfl hstamp
    | some stamp =>
      simp only [bind_eq_ok, pure_eq_ok, Prod.mk.injEq] at h
      obtain ⟨_, hr, _, rfl⟩ := h
      exact .wrote _ now hrow.touched hr

theorem appendTrustedNote_outcome {parseTimestamp : Text → Bool} {taskId receiptId : String}
    {note : Text} {now : Time} {a : Option Time}
    (h : s.appendTrustedNote parseTimestamp taskId note receiptId now = .ok (a, s')) :
    Outcome s s' (.appendTrustedNote taskId note receiptId now) := by
  simp only [appendTrustedNote, bind_eq_ok, pure_eq_ok, Prod.mk.injEq] at h
  obtain ⟨⟨stamp, proof⟩, hbody, m, hr, -, rfl⟩ := h
  simp only [ProofDb.appendTrustedNote, bind_eq_ok, okOr_eq_ok] at hbody
  obtain ⟨current, hcur, replacement, hrep, hbody⟩ := hbody
  -- 本体の場合分けの条件は `trustedNoteStands` と同じものである。
  have hstands : ((s.row? taskId).any fun t => trustedNoteStands parseTimestamp t.notes note)
      = decide (replacement = some current.notes
        ∨ (replacement = none ∧ containsCompleteLines current.notes note)) := by
    simp [row?, hcur, trustedNoteStands, hrep]
  rw [hstands] at hr
  split at hbody
  · next hs =>
    cases hbody
    simp only [hs, decide_true, if_true] at hr
    exact .stood now rfl hr
  · next hs =>
    cases hbody
    simp only [hs, decide_false, Bool.false_eq_true, if_false] at hr
    exact .wrote _ now (UpdatesRow.touched ⟨_, _, current, hcur, rfl⟩) hr

theorem delete_touched {a : Option Time} (h : s.delete id = .ok (a, s')) : Touched s s' id := by
  simp only [delete, Db.deleteTask, bind_eq_ok, ensure_eq_ok, pure_eq_ok, Prod.mk.injEq] at h
  obtain ⟨_, ⟨_, hsome, rfl⟩, -, rfl⟩ := h
  obtain ⟨t, ht⟩ := Option.isSome_iff_exists.mp hsome
  refine touched_bump ?_ fun id' hne => ?_
  · simp [ht, Option.filter, Table.key_of_find? ht]
  · unfold row?
    rw [Table.find?_delete]
    cases h : s.proof.base.tasks.find? id' with
    | none => rfl
    | some t' =>
      have hk : t'.id ≠ id := fun he => hne ((Table.key_of_find? h).symm.trans he)
      simp [Option.filter, hk]

/-- 成功した操作の効果。 -/
theorem body_outcome {parseTimestamp : Text → Bool} {origin : Option String} {op : TaskOp}
    {a : Option Time} (h : op.body parseTimestamp origin s = .ok (a, s')) : Outcome s s' op := by
  cases op with
  | add task receiptId now =>
    simp only [TaskOp.body, add, bind_eq_ok, pure_eq_ok, Prod.mk.injEq] at h
    obtain ⟨m, hm, _, hr, -, rfl⟩ := h
    have hw := addWithConn_touched hm
    exact .wrote m now hw hr
  | createAtomic task blockedBy epicId createdBy receiptId now =>
    simp only [TaskOp.body, createAtomic, bind_eq_ok, pure_eq_ok, Prod.mk.injEq] at h
    obtain ⟨_, -, m, hm, m', hd, _, hr, -, rfl⟩ := h
    exact .wrote m' now ((addWithConn_touched hm).addDependencies hd) hr
  | update task receiptId now =>
    exact updating_outcome (fun _ _ => updateChecked_row) h
  | updateIfCurrent task expected receiptId now =>
    refine updating_outcome (fun stamp proof hb => ?_) h
    simp only [ProofDb.updateIfCurrent, bind_eq_ok, okOr_eq_ok, pure_eq_ok, Prod.mk.injEq] at hb
    obtain ⟨⟨stamp₁, proof₁⟩, hupdate, t, rfl, rfl, rfl⟩ := hb
    exact updateChecked_row hupdate
  | updateFromSync task expected leaseAt now =>
    exact updating_outcome (fun _ _ => updateChecked_row) h
  | reopenExact task expectedStatus expectedUpdatedAt =>
    simp only [TaskOp.body, reopenExact, ProofDb.reopenExact, bind_eq_ok, okOr_eq_ok, pure_eq_ok,
      Prod.mk.injEq, Option.filter_eq_some_iff] at h
    obtain ⟨_, ⟨current, ⟨hcur, -⟩, rfl⟩, -, rfl⟩ := h
    exact .wrote _ 0 (UpdatesRow.touched ⟨_, _, current, hcur, rfl⟩) rfl
  | appendNote taskId note receiptId now =>
    refine updating_outcome (fun stamp proof hb => ?_) h
    simp only [mapResult_eq_ok, ProofDb.appendNote, bind_eq_ok, okOr_eq_ok, pure_eq_ok,
      Prod.mk.injEq] at hb
    obtain ⟨_, ⟨current, hcur, -, rfl⟩, rfl⟩ := hb
    exact .inr ⟨by simp, _, _, current, hcur, rfl⟩
  | appendTrustedNote taskId note receiptId now => exact appendTrustedNote_outcome h
  | delete id => exact .wrote s' 0 (delete_touched h) rfl

/-! ## 一歩で言えること -/

/-- 在否の記録が行の在否と一致している。 -/
def Recorded (s : RevisionDb) : Prop := ∀ id, s.present id = (s.row? id).isSome

theorem Touched.recorded (h : Touched s m id) (hs : s.Recorded) : m.Recorded := by
  intro id'
  by_cases hid : id' = id
  · rw [hid]
    exact h.present_self
  · rw [h.present_other hid, h.others id' hid]
    exact hs id'

/-- 受領書を作る文は、行にも版にも触れない。 -/
theorem row?_congr (h : s'.proof = s.proof) (id : String) : s'.row? id = s.row? id := by
  unfold row?
  rw [h]

theorem revision_congr (h : s'.revisions = s.revisions) (id : String) :
    s'.revision id = s.revision id := by
  unfold revision
  rw [h]

theorem present_congr (h : s'.revisions = s.revisions) (id : String) :
    s'.present id = s.present id := by
  unfold present
  rw [h]

namespace Outcome

variable {op : TaskOp}

theorem recorded (h : Outcome s s' op) (hs : s.Recorded) : s'.Recorded := by
  intro id
  cases h with
  | refused h =>
    rw [h]
    exact hs id
  | wrote m now hw hr =>
    obtain ⟨hp, hv, -⟩ := recordIfSome_ok hr
    rw [present_congr hv, row?_congr hp]
    exact hw.recorded hs id
  | stood now ht hr =>
    obtain ⟨hp, hv, -⟩ := recordIfSome_ok hr
    rw [present_congr hv, row?_congr hp]
    exact hs id

/-- 版は戻らず、行が変われば進む。 -/
theorem revision_le (h : Outcome s s' op) (id : String) :
    s.revision id ≤ s'.revision id
      ∧ (s'.row? id ≠ s.row? id → s.revision id < s'.revision id) := by
  cases h with
  | refused h =>
    rw [h]
    exact ⟨le_rfl, fun hne => absurd rfl hne⟩
  | wrote m now hw hr =>
    obtain ⟨hp, hv, -⟩ := recordIfSome_ok hr
    rw [revision_congr hv, row?_congr hp]
    by_cases hid : id = op.taskId
    · rw [hid, hw.revision_self]
      exact ⟨Nat.le_succ _, fun _ => Nat.lt_succ_self _⟩
    · rw [hw.revision_other hid, hw.others id hid]
      exact ⟨le_rfl, fun hne => absurd rfl hne⟩
  | stood now ht hr =>
    obtain ⟨hp, hv, -⟩ := recordIfSome_ok hr
    rw [revision_congr hv, row?_congr hp]
    exact ⟨le_rfl, fun hne => absurd rfl hne⟩

end Outcome

/--
`s` から `s'` への操作 `op` が、受領書 `r` を作った。

受領書は操作の後の版を指す。その版は、この操作が一つ進めたものである。信用された追記が
何も書かなかったときだけは、前からの版である。
-/
structure ReceiptOf (s s' : RevisionDb) (op : TaskOp) (r : MutationReceipt) : Prop where
  requested : op.receiptId? = some r.receiptId
  entity : r.entityId = op.taskId
  current : r.revision = s'.revision r.entityId
  produced : s'.revision r.entityId = s.revision r.entityId + 1
    ∨ (op.isTrusted = true ∧ s'.proof = s.proof ∧ s'.revisions = s.revisions)

/-- 受領書は消えず、増えるのはその操作が作ったものだけである。 -/
theorem Outcome.receipts {op : TaskOp} (h : Outcome s s' op) :
    (∀ r ∈ s.receipts.rows, r ∈ s'.receipts.rows)
      ∧ ∀ r ∈ s'.receipts.rows, r ∈ s.receipts.rows ∨ ReceiptOf s s' op r := by
  -- 受領書の文だけを見る。`m` はその直前の状態である。
  have hrec : ∀ {m : RevisionDb} {now : Time},
      m.recordIfSome op.receiptId? op.taskId now = .ok s' → m.receipts = s.receipts →
      (m.revision op.taskId = s.revision op.taskId + 1
        ∨ (op.isTrusted = true ∧ m = s)) →
      (∀ r ∈ s.receipts.rows, r ∈ s'.receipts.rows)
        ∧ ∀ r ∈ s'.receipts.rows, r ∈ s.receipts.rows ∨ ReceiptOf s s' op r := by
    intro m now hr hm hprod
    obtain ⟨hp, hv, hrows | ⟨r, hins, hid, hent, hrev, -⟩⟩ := recordIfSome_ok hr
    · rw [hrows, hm]
      exact ⟨fun _ h => h, fun _ h => .inl h⟩
    · rw [hm] at hins
      refine ⟨fun r' hr' => (Table.mem_insert? hins).mpr (.inl hr'), fun r' hr' => ?_⟩
      rcases (Table.mem_insert? hins).mp hr' with hold | rfl
      · exact .inl hold
      · refine .inr ⟨hid, hent, ?_, ?_⟩
        · rw [hent, revision_congr hv]
          exact hrev
        · rw [hent, revision_congr hv]
          rcases hprod with hprod | ⟨ht, rfl⟩
          · exact .inl hprod
          · exact .inr ⟨ht, hp, hv⟩
  cases h with
  | refused h =>
    rw [h]
    exact ⟨fun _ h => h, fun _ h => .inl h⟩
  | wrote m now hw hr => exact hrec hr hw.receipts (.inl hw.revision_self)
  | stood now ht hr => exact hrec hr rfl (.inr ⟨ht, rfl⟩)

/-! ## store を開く -/

/-- まだ版の表を持たない database を初めて開いた store。 -/
def opened (proof : ProofDb) : RevisionDb := backfill { proof }

/-- 版の無い id だけに、最初の版を与える。 -/
theorem find?_backfill_rows (id : String) :
    ∀ (rows : List Task) (t : Table MutationRevision.entityId),
    (rows.foldl (fun t task => t.insertOrIgnore
      { entityId := task.id, revision := 1, present := true }) t).find? id
      = (t.find? id).or ((rows.find? fun task => task.id = id).map fun _ =>
        { entityId := id, revision := 1, present := true })
  | [], t => by simp
  | task :: rows, t => by
    rw [List.foldl_cons, find?_backfill_rows id rows, Table.find?_insertOrIgnore, Option.or_assoc]
    by_cases h : task.id = id
    · simp [h]
    · simp [h]

theorem opened_recorded (proof : ProofDb) : (opened proof).Recorded := by
  intro id
  have hfind : (opened proof).revisions.find? id
      = ((opened proof).row? id).map fun _ => { entityId := id, revision := 1, present := true } :=
    find?_backfill_rows id proof.base.tasks.rows .empty
  unfold present
  rw [hfind]
  cases (opened proof).row? id <;> rfl

/-- 在否の合っている store を開き直しても、何も変わらない。 -/
theorem backfill_of_recorded (h : s.Recorded) : s.backfill = s := by
  have hrows : ∀ rows : List Task, (∀ task ∈ rows, s.present task.id = true) →
      rows.foldl (fun t task => t.insertOrIgnore
        { entityId := task.id, revision := 1, present := true }) s.revisions = s.revisions := by
    intro rows
    induction rows with
    | nil => exact fun _ => rfl
    | cons task rows ih =>
      intro hp
      obtain ⟨r, hr, -⟩ := Option.any_eq_true _ _ |>.mp (hp task List.mem_cons_self)
      rw [List.foldl_cons, Table.insertOrIgnore_of_find? hr]
      exact ih fun task' ht' => hp task' (List.mem_cons_of_mem _ ht')
  unfold backfill
  rw [hrows _ fun task ht => ?_]
  rw [h task.id, row?, Table.find?_of_mem ht]
  rfl

end RevisionDb

/-! ## 実行の全体 -/

section Runs

open RevisionDb

variable {parseTimestamp : Text → Bool} {origin : Option String}

theorem taskStep_outcome (s : RevisionDb) (op : TaskOp) :
    Outcome s (taskStep parseTimestamp origin s op).2 op := by
  unfold taskStep
  rcases commit_snd_cases s (op.body parseTimestamp origin s) with heq | ⟨a, s', hb, heq⟩
  · exact .refused heq
  · rw [heq]
    exact body_outcome hb

/-- 実行のあいだ、版は戻らない。 -/
theorem revision_le_run (id : String) : ∀ (ops : List TaskOp) (s : RevisionDb),
    s.revision id ≤ (run (taskStep parseTimestamp origin) s ops).revision id
  | [], _ => le_rfl
  | op :: ops, s =>
    ((taskStep_outcome s op).revision_le id).1.trans (revision_le_run id ops _)

/-- 実行の前後で行が違えば、版は進んでいる。 -/
theorem revision_lt_run {id : String} : ∀ {ops : List TaskOp} {s : RevisionDb},
    (run (taskStep parseTimestamp origin) s ops).row? id ≠ s.row? id →
    s.revision id < (run (taskStep parseTimestamp origin) s ops).revision id
  | [], _, h => absurd rfl h
  | op :: ops, s, h => by
    have hle := (@taskStep_outcome parseTimestamp origin s op).revision_le id
    by_cases hrow : (taskStep parseTimestamp origin s op).2.row? id = s.row? id
    · refine hle.1.trans_lt (revision_lt_run ?_)
      rw [hrow]
      exact h
    · exact (hle.2 hrow).trans_le (revision_le_run id ops _)

/-- 受領書はどれも、実行の中のある操作が作ったものである。 -/
theorem receipts_run : ∀ {ops : List TaskOp} {s : RevisionDb} {r : MutationReceipt},
    r ∈ (run (taskStep parseTimestamp origin) s ops).receipts.rows →
    r ∈ s.receipts.rows ∨ ∃ pre op post, ops = pre ++ op :: post
      ∧ ReceiptOf (run (taskStep parseTimestamp origin) s pre)
        (run (taskStep parseTimestamp origin) s (pre ++ [op])) op r
  | [], _, _, h => .inl h
  | op :: ops, s, r, h => by
    rw [run_cons] at h
    rcases receipts_run h with hr | ⟨pre, op', post, rfl, hof⟩
    · rcases (taskStep_outcome s op).receipts.2 r hr with hold | hof
      · exact .inl hold
      · exact .inr ⟨[], op, ops, rfl, hof⟩
    · exact .inr ⟨op :: pre, op', post, rfl, hof⟩

/--
版と受領書の仕様。

どんな task を持つ database を開いて、task の操作をどう並べて実行しても、在否の記録は行の
在否と一致する。途中のどこかで行が変わっていれば、その前の版は最後の版より小さい。間に削除や
再作成が挟まっていてもよい。受領書はどれも実行の中の一つの操作が作ったもので、その操作が
進めた版を指す。
-/
theorem task_revisions_monotone (parseTimestamp : Text → Bool) (origin : Option String)
    (proof : ProofDb) (ops : List TaskOp) :
    let after := run (taskStep parseTimestamp origin) (opened proof)
    (after ops).Recorded
      ∧ (∀ pre mid, pre <+: mid → mid <+: ops → ∀ id, (after mid).row? id ≠ (after pre).row? id →
        (after pre).revision id < (after ops).revision id)
      ∧ (∀ pre, pre <+: ops → ∀ id, (after pre).revision id ≤ (after ops).revision id)
      ∧ ∀ r ∈ (after ops).receipts.rows, ∃ pre op post, ops = pre ++ op :: post
        ∧ ReceiptOf (after pre) (after (pre ++ [op])) op r := by
  intro after
  refine ⟨run_invariant' (fun s op => (taskStep_outcome s op).recorded) (opened_recorded proof),
    ?_, ?_, ?_⟩
  · rintro pre _ ⟨ops₁, rfl⟩ ⟨ops₂, rfl⟩ id hrow
    simp only [after, run_append] at hrow ⊢
    exact (revision_lt_run hrow).trans_le (revision_le_run id ops₂ _)
  · rintro pre ⟨ops₁, rfl⟩ id
    simp only [after, run_append]
    exact revision_le_run id ops₁ _
  · intro r hr
    rcases receipts_run hr with hold | hof
    · simp [opened, backfill, Table.empty] at hold
    · exact hof

end Runs

end Cassy
