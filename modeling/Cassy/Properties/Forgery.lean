import Cassy.Notes.Ops
import Cassy.Properties.Neutralize
import Cassy.Properties.NoteBlocks

/-!
# 予約行は偽造できない

task の notes を書く操作をどう並べて実行しても次が成り立つことを示す。

* 立っている予約行は、行末の空白を除けば、その task への信用された追記の行である
* 丸ごとの更新の後に立つ来歴の行は、更新の前の notes にそのまま残っている塊の行である

信用された追記は書く文字列を調べないので、始まりの行だけを追記すれば、どの塊にも入らない
来歴の行が立つ。また `replace_rendered_provenance` は残す段落の末尾の空白を落とすので、
証跡の行は追記された行と行末の空白まで等しいとは限らない（`loneBeginRun`）。
-/

namespace Cassy

open Infra

/-! ## 一つの操作が書く notes -/

namespace NoteOp

/-- 書く相手の task。 -/
def taskId : NoteOp → String
  | add task => task.id
  | update task _ => task.id
  | updateIfCurrent task _ _ => task.id
  | updateFromSync task _ _ _ => task.id
  | reopenExact task _ _ => task.id
  | appendNote taskId _ _ => taskId
  | appendTrustedNote taskId _ _ => taskId

/-- 前の notes が `prior` の task に書く notes。 -/
def Writes (parseTimestamp : Text → Bool) (prior : Option Text) (notes : Text) : NoteOp → Prop
  | add task => prior = none ∧ notes = neutralizeNewMarkers task.notes none
  | update task _ => ∃ p, prior = some p ∧ notes = safeNotes task.notes (some p)
  | updateIfCurrent task _ _ => ∃ p, prior = some p ∧ notes = safeNotes task.notes (some p)
  | updateFromSync task _ _ _ => ∃ p, prior = some p ∧ notes = safeNotes task.notes (some p)
  | reopenExact task _ _ => ∃ p, prior = some p ∧ notes = safeNotes task.notes (some p)
  | appendNote _ note _ => ∃ p, prior = some p
      ∧ notes = ProofDb.appendedNotes p (neutralizeNewMarkers note none)
  | appendTrustedNote _ note _ => ∃ p r, prior = some p
      ∧ ProofDb.trustedReplacement parseTimestamp p note = .ok r
      ∧ notes = r.getD (ProofDb.appendedNotes p note)

/-- 丸ごとの更新が task を書いたか。断られた更新は `.ok none` を返す。 -/
def rewrites : NoteOp → Except StoreError (Option Time) → Bool
  | update _ _, .ok (some _) => true
  | updateIfCurrent _ _ _, .ok (some _) => true
  | updateFromSync _ _ _ _, .ok (some _) => true
  | reopenExact _ _ _, .ok _ => true
  | _, _ => false

end NoteOp

namespace ProofDb

variable {db db' : ProofDb}

/-- task に入っている notes。 -/
def storedNotes (db : ProofDb) (id : String) : Option Text :=
  (db.base.tasks.find? id).map (·.notes)

/-- `db'` は、task `id` の notes を `notes` に書いたものである。 -/
def NotesSet (db db' : ProofDb) (id : String) (notes : Text) : Prop :=
  ∀ k, db'.storedNotes k = if k = id then some notes else db.storedNotes k

theorem notesSet_updateTask {id : String} {current : Task} {f : Task → Task}
    {hf : ∀ t, (f t).id = t.id} {notes : Text} (hcur : db.base.tasks.find? id = some current)
    (hnotes : (f current).notes = notes) : NotesSet db (db.updateTask id f hf) id notes := by
  intro k
  have hfind : (db.updateTask id f hf).base.tasks.find? k
      = (db.base.tasks.find? k).map fun t => if t.id = id then f t else t := by
    simp [updateTask]
  rw [storedNotes, storedNotes, hfind]
  split
  · next hk =>
    rw [hk, hcur, Option.map_some, Option.map_some, if_pos (Table.key_of_find? hcur), hnotes]
  · next hk =>
    cases ht : db.base.tasks.find? k with
    | none => rfl
    | some t =>
      have hid : t.id ≠ id := fun h => hk ((Table.key_of_find? ht).symm.trans h)
      rw [Option.map_some, if_neg hid]

theorem addTask_notes {task : Task} {r : Unit} (h : db.addTask task = .ok (r, db')) :
    db.storedNotes task.id = none
      ∧ NotesSet db db' task.id (neutralizeNewMarkers task.notes none) := by
  simp only [addTask, bind_eq_ok, okOr_eq_ok, pure_eq_ok, Prod.mk.injEq] at h
  obtain ⟨tasks, hinsert, -, rfl⟩ := h
  refine ⟨?_, fun k => ?_⟩
  · rw [storedNotes, (Table.insert?_eq_some hinsert).1]
    rfl
  · rw [storedNotes, Table.find?_insert? hinsert]
    by_cases hk : k = task.id
    · rw [if_pos hk, if_pos hk.symm]
      rfl
    · rw [if_neg hk, if_neg (Ne.symm hk)]
      rfl

/-- 丸ごとの更新は、断られるか、無効化した notes を書く。 -/
theorem updateChecked_notes {task : Task} {expected : Option Task} {fromSync : Bool}
    {leaseAt now : Time} {r : Option Time}
    (h : db.updateChecked task expected fromSync leaseAt now = .ok (r, db')) :
    (r = none ∧ db' = db) ∨ ∃ p, db.storedNotes task.id = some p
      ∧ NotesSet db db' task.id (safeNotes task.notes (some p)) := by
  simp only [updateChecked, bind_eq_ok] at h
  obtain ⟨refused, -, h⟩ := h
  split at h
  · simp only [pure_eq_ok, Prod.mk.injEq] at h
    exact Or.inl ⟨h.1.symm, h.2.symm⟩
  · simp only [bind_eq_ok, ensure_eq_ok, pure_eq_ok, Prod.mk.injEq] at h
    obtain ⟨-, hsome, -, rfl⟩ := h
    obtain ⟨current, hcur⟩ := Option.isSome_iff_exists.mp hsome
    exact Or.inr ⟨current.notes, by rw [storedNotes, hcur]; rfl,
      notesSet_updateTask hcur rfl⟩

theorem updateIfCurrent_notes {task expected : Task} {now : Time} {r : Option Time}
    (h : db.updateIfCurrent task expected now = .ok (r, db')) :
    ∃ p, db.storedNotes task.id = some p
      ∧ NotesSet db db' task.id (safeNotes task.notes (some p)) := by
  simp only [updateIfCurrent, bind_eq_ok, okOr_eq_ok, pure_eq_ok, Prod.mk.injEq] at h
  obtain ⟨⟨stamp, db₁⟩, hupdate, stamp', hstamp, -, rfl⟩ := h
  rcases updateChecked_notes hupdate with ⟨hnone, -⟩ | hset
  · simp only at hstamp
    rw [hnone] at hstamp
    simp at hstamp
  · exact hset

theorem reopenExact_notes {task : Task} {status : TaskStatus} {updatedAt : Time} {r : Unit}
    (h : db.reopenExact task status updatedAt = .ok (r, db')) :
    ∃ p, db.storedNotes task.id = some p
      ∧ NotesSet db db' task.id (safeNotes task.notes (some p)) := by
  simp only [reopenExact, bind_eq_ok, okOr_eq_ok, pure_eq_ok, Prod.mk.injEq,
    Option.filter_eq_some_iff] at h
  obtain ⟨current, ⟨hcur, -⟩, -, rfl⟩ := h
  exact ⟨current.notes, by rw [storedNotes, hcur]; rfl, notesSet_updateTask hcur rfl⟩

theorem appendNote_notes {taskId : String} {note : Text} {now r : Time}
    (h : db.appendNote taskId note now = .ok (r, db')) :
    ∃ p, db.storedNotes taskId = some p
      ∧ NotesSet db db' taskId (appendedNotes p (neutralizeNewMarkers note none)) := by
  simp only [appendNote, bind_eq_ok, okOr_eq_ok, pure_eq_ok, Prod.mk.injEq] at h
  obtain ⟨current, hcur, -, rfl⟩ := h
  exact ⟨current.notes, by rw [storedNotes, hcur]; rfl, notesSet_updateTask hcur rfl⟩

/-- 信用された追記は、既に残っているなら何もせず、そうでなければ置き換えるか末尾に足す。 -/
theorem appendTrustedNote_notes {parseTimestamp : Text → Bool} {taskId : String} {note : Text}
    {now r : Time} (h : db.appendTrustedNote parseTimestamp taskId note now = .ok (r, db')) :
    db' = db ∨ ∃ p o, db.storedNotes taskId = some p
      ∧ trustedReplacement parseTimestamp p note = .ok o
      ∧ NotesSet db db' taskId (o.getD (appendedNotes p note)) := by
  simp only [appendTrustedNote, bind_eq_ok, okOr_eq_ok] at h
  obtain ⟨current, hcur, o, ho, h⟩ := h
  split at h
  · simp only [pure_eq_ok, Prod.mk.injEq] at h
    exact Or.inl h.2.symm
  · cases h
    exact Or.inr ⟨current.notes, o, by rw [storedNotes, hcur]; rfl, ho,
      notesSet_updateTask hcur rfl⟩

end ProofDb

/-- 操作の本体は、何も書かないか、相手の task の notes を `Writes` の形に書く。 -/
theorem NoteOp.body_notes {parseTimestamp : Text → Bool} {db db' : ProofDb} {op : NoteOp}
    {r : Option Time} (h : op.body parseTimestamp db = .ok (r, db')) :
    (op.rewrites (.ok r) = false ∧ db' = db)
      ∨ ∃ notes, db.NotesSet db' op.taskId notes
        ∧ op.Writes parseTimestamp (db.storedNotes op.taskId) notes := by
  cases op with
  | add task =>
    simp only [body, mapResult_eq_ok] at h
    obtain ⟨u, h, -⟩ := h
    obtain ⟨hnone, hset⟩ := ProofDb.addTask_notes h
    exact Or.inr ⟨_, hset, hnone, rfl⟩
  | update task now =>
    rcases ProofDb.updateChecked_notes h with ⟨rfl, rfl⟩ | ⟨p, hp, hset⟩
    · exact Or.inl ⟨rfl, rfl⟩
    · exact Or.inr ⟨_, hset, p, hp, rfl⟩
  | updateIfCurrent task expected now =>
    obtain ⟨p, hp, hset⟩ := ProofDb.updateIfCurrent_notes h
    exact Or.inr ⟨_, hset, p, hp, rfl⟩
  | updateFromSync task expected leaseAt now =>
    rcases ProofDb.updateChecked_notes h with ⟨rfl, rfl⟩ | ⟨p, hp, hset⟩
    · exact Or.inl ⟨rfl, rfl⟩
    · exact Or.inr ⟨_, hset, p, hp, rfl⟩
  | reopenExact task status updatedAt =>
    simp only [body, mapResult_eq_ok] at h
    obtain ⟨u, h, -⟩ := h
    obtain ⟨p, hp, hset⟩ := ProofDb.reopenExact_notes h
    exact Or.inr ⟨_, hset, p, hp, rfl⟩
  | appendNote id note now =>
    simp only [body, mapResult_eq_ok] at h
    obtain ⟨u, h, -⟩ := h
    obtain ⟨p, hp, hset⟩ := ProofDb.appendNote_notes h
    exact Or.inr ⟨_, hset, p, hp, rfl⟩
  | appendTrustedNote id note now =>
    simp only [body, mapResult_eq_ok] at h
    obtain ⟨u, h, -⟩ := h
    rcases ProofDb.appendTrustedNote_notes h with rfl | ⟨p, o, hp, ho, hset⟩
    · exact Or.inl ⟨rfl, rfl⟩
    · exact Or.inr ⟨_, hset, p, o, hp, ho, rfl⟩

/-! ## 予約行の由来 -/

/-- 成功した信用された追記の文字列。 -/
def trustedNotes (id : String)
    (events : List (Event ProofDb NoteOp (Except StoreError (Option Time)))) : List Text :=
  events.filterMap fun e =>
    match e.op, e.result with
    | .appendTrustedNote taskId note _, .ok _ => if taskId = id then some note else none
    | _, _ => none

/-- task に立っている予約行。 -/
def ProofDb.storedMarks (db : ProofDb) (id : String) : List Text :=
  (db.storedNotes id).elim [] marks

theorem ProofDb.storedMarks_of_mem {db : ProofDb} {t : Task} (ht : t ∈ db.base.tasks.rows) :
    db.storedMarks t.id = marks t.notes := by
  rw [storedMarks, storedNotes, Table.find?_of_mem ht]
  rfl

theorem marks_appendedNotes (notes note : Text) :
    marks (ProofDb.appendedNotes notes note) ⊆ marks note ++ marks notes := by
  unfold ProofDb.appendedNotes
  split
  · exact List.subset_append_left _ _
  · have hblank : marks ('\n' :: note) = marks note := marks_append_newline [] note
    rw [marks_append_newline, hblank]
    exact List.append_subset.mpr ⟨List.subset_append_right .., List.subset_append_left ..⟩

theorem marks_safeNotes (notes prior : Text) :
    marks (safeNotes notes (some prior)) ⊆ marks prior := by
  unfold safeNotes
  split
  · exact marks_neutralizeNewMarkers_subset notes prior
  · rw [marks_neutralizeNewMarkers_none]
    exact List.nil_subset _

theorem marks_trusted {parseTimestamp : Text → Bool} {prior note : Text} {o : Option Text}
    (h : ProofDb.trustedReplacement parseTimestamp prior note = .ok o) :
    marks (o.getD (ProofDb.appendedNotes prior note)) ⊆ marks note ++ marks prior := by
  cases o with
  | none => exact marks_appendedNotes prior note
  | some next =>
    unfold ProofDb.trustedReplacement at h
    split at h
    · simp only [Except.ok.injEq, Option.some.injEq] at h
      rw [← h]
      exact marks_replaceRenderedProvenance prior note
    · split at h
      · next hraw =>
        rw [Except.ok.injEq] at h
        exact marks_replaceRawArtifactNote (h ▸ hraw)
      · simp at h

/-- 信用された追記だけが、書く文字列の予約行を足せる。 -/
theorem NoteOp.Writes.marks_subset {parseTimestamp : Text → Bool} {op : NoteOp}
    {prior : Option Text} {notes : Text} (h : op.Writes parseTimestamp prior notes) :
    marks notes ⊆ prior.elim [] marks
      ∨ ∃ id note now, op = .appendTrustedNote id note now
        ∧ marks notes ⊆ marks note ++ prior.elim [] marks := by
  cases op with
  | add task =>
    obtain ⟨-, rfl⟩ := h
    rw [marks_neutralizeNewMarkers_none]
    exact Or.inl (List.nil_subset _)
  | appendNote id note now =>
    obtain ⟨p, rfl, rfl⟩ := h
    refine Or.inl (List.Subset.trans (marks_appendedNotes p _) ?_)
    rw [marks_neutralizeNewMarkers_none]
    exact List.Subset.refl _
  | appendTrustedNote id note now =>
    obtain ⟨p, o, rfl, ho, rfl⟩ := h
    exact Or.inr ⟨id, note, now, rfl, marks_trusted ho⟩
  | _ =>
    obtain ⟨p, rfl, rfl⟩ := h
    exact Or.inl (marks_safeNotes _ p)

section Runs

variable {parseTimestamp : Text → Bool} {db : ProofDb}

/-- 一つの操作の後に立つ予約行は、前から立っていたか、今の信用された追記のものである。 -/
theorem noteStep_marks (op : NoteOp) (id : String) :
    (noteStep parseTimestamp db op).2.storedMarks id
      ⊆ (trustedNotes id [⟨db, op, (noteStep parseTimestamp db op).1⟩]).flatMap marks
        ++ db.storedMarks id := by
  rcases commit_snd_cases db (op.body parseTimestamp db) with heq | ⟨r, db', hb, heq⟩
  · rw [show (noteStep parseTimestamp db op).2 = db from heq]
    exact List.subset_append_right _ _
  · rw [show (noteStep parseTimestamp db op).2 = db' from heq]
    have hok : (noteStep parseTimestamp db op).1 = .ok r := by
      rw [noteStep, hb]
      rfl
    rcases NoteOp.body_notes hb with ⟨-, rfl⟩ | ⟨notes, hset, hw⟩
    · exact List.subset_append_right _ _
    · rw [ProofDb.storedMarks, hset id]
      by_cases hid : id = op.taskId
      · rw [if_pos hid]
        rw [← hid] at hw
        rcases hw.marks_subset with hsub | ⟨id', note, now, rfl, hsub⟩
        · exact List.Subset.trans hsub (List.subset_append_right _ _)
        · have hnotes : trustedNotes id [⟨db, .appendTrustedNote id' note now,
              (noteStep parseTimestamp db (.appendTrustedNote id' note now)).1⟩] = [note] := by
            simp [trustedNotes, hok, hid, NoteOp.taskId]
          rw [hnotes, List.flatMap_singleton]
          exact hsub
      · rw [if_neg hid]
        exact List.subset_append_right _ _

/-- 実行の全体でも、立つ予約行は始めからあったか、途中の信用された追記のものである。 -/
theorem run_marks (ops : List NoteOp) (id : String) :
    (run (noteStep parseTimestamp) db ops).storedMarks id
      ⊆ (trustedNotes id (trace (noteStep parseTimestamp) db ops)).flatMap marks
        ++ db.storedMarks id := by
  induction ops generalizing db with
  | nil => exact List.subset_append_right _ _
  | cons op ops ih =>
    have hsplit : trustedNotes id (trace (noteStep parseTimestamp) db (op :: ops))
        = trustedNotes id [⟨db, op, (noteStep parseTimestamp db op).1⟩]
          ++ trustedNotes id (trace (noteStep parseTimestamp) (noteStep parseTimestamp db op).2
            ops) := List.filterMap_append (l := [_])
    rw [run_cons, hsplit, List.flatMap_append]
    intro m hm
    simp only [List.mem_append]
    rcases List.mem_append.mp (ih hm) with hm | hm
    · exact Or.inl (Or.inr hm)
    · rcases List.mem_append.mp (noteStep_marks op id hm) with hm | hm
      · exact Or.inl (Or.inl hm)
      · exact Or.inr hm

/-- 予約行の無い notes には、予約行は一つも立っていない。 -/
theorem ProofDb.storedMarks_eq_nil
    (h : ∀ t ∈ db.base.tasks.rows, ∀ l ∈ lines t.notes, isReservedLine l = false) (id : String) :
    db.storedMarks id = [] := by
  unfold ProofDb.storedMarks ProofDb.storedNotes
  cases ht : db.base.tasks.find? id with
  | none => rfl
  | some t =>
    refine List.eq_nil_iff_forall_not_mem.mpr fun m hm => ?_
    obtain ⟨l, hl, hr, -⟩ := exists_mem_lines_of_mem_marks hm
    rw [h t (Table.mem_of_find? ht) l hl] at hr
    simp at hr

/-- 丸ごとの更新が書いた notes の来歴の行は、前の notes に残っている塊の行である。 -/
theorem noteStep_kept {op : NoteOp}
    (h : op.rewrites (noteStep parseTimestamp db op).1 = true) :
    ∃ prior notes, db.storedNotes op.taskId = some prior
      ∧ (noteStep parseTimestamp db op).2.storedNotes op.taskId = some notes
      ∧ ∀ before l after, splitInclusive notes = before ++ l :: after →
        isProvenanceLine l = true → InKeptBlock prior before l after := by
  cases hb : (noteStep parseTimestamp db op).1 with
  | error e =>
    rw [hb] at h
    cases op <;> simp [NoteOp.rewrites] at h
  | ok r =>
    rw [hb] at h
    rcases NoteOp.body_notes (commit_fst_ok hb) with ⟨hfalse, -⟩ | ⟨notes, hset, hw⟩
    · rw [hfalse] at h
      simp at h
    · -- 書いたのは四つの丸ごとの更新のどれかで、notes は `safeNotes` である。
      obtain ⟨prior, text, hprior, rfl⟩ : ∃ prior text, db.storedNotes op.taskId = some prior
          ∧ notes = safeNotes text (some prior) := by
        cases op with
        | add task => simp [NoteOp.rewrites] at h
        | appendNote id note now => simp [NoteOp.rewrites] at h
        | appendTrustedNote id note now => simp [NoteOp.rewrites] at h
        | _ =>
          obtain ⟨p, hp, hnotes⟩ := hw
          exact ⟨p, _, hp, hnotes⟩
      refine ⟨prior, _, hprior, (hset _).trans (if_pos rfl), fun before l after hsplit hl => ?_⟩
      obtain ⟨p, hp, hkept⟩ := provenance_origin hsplit hl
      split at hp
      · rw [Option.some.injEq] at hp
        exact hp ▸ hkept
      · simp at hp

/-- 予約行が偽造されていない。 -/
structure UnforgedNotes (parseTimestamp : Text → Bool) (db : ProofDb) (ops : List NoteOp) :
    Prop where
  /-- 立っている予約行は、行末の空白を除いて、信用された追記の行である。 -/
  origin : ∀ t ∈ (run (noteStep parseTimestamp) db ops).base.tasks.rows, ∀ l ∈ lines t.notes,
    isReservedLine l = true →
    ∃ note ∈ trustedNotes t.id (trace (noteStep parseTimestamp) db ops), ∃ l' ∈ lines note,
      trimEnd l' = trimEnd l
  /-- 丸ごとの更新の後の来歴の行は、前の notes にそのまま残っている塊の行である。 -/
  kept : ∀ e ∈ trace (noteStep parseTimestamp) db ops, e.op.rewrites e.result = true →
    ∃ prior notes, e.before.storedNotes e.op.taskId = some prior
      ∧ (noteStep parseTimestamp e.before e.op).2.storedNotes e.op.taskId = some notes
      ∧ ∀ before l after, splitInclusive notes = before ++ l :: after →
        isProvenanceLine l = true → InKeptBlock prior before l after

/--
**予約行は偽造できない。**

始まりの database は、notes に予約行の無い task だけを持つ任意のもので、操作の並びも任意である。
-/
theorem unforged_notes (parseTimestamp : Text → Bool) (db : ProofDb) (ops : List NoteOp)
    (h : ∀ t ∈ db.base.tasks.rows, ∀ l ∈ lines t.notes, isReservedLine l = false) :
    UnforgedNotes parseTimestamp db ops where
  origin t ht l hl hr := by
    have hmem := run_marks ops t.id
      (ProofDb.storedMarks_of_mem ht ▸ mem_marks_of_mem_lines hl hr)
    rw [ProofDb.storedMarks_eq_nil h, List.append_nil] at hmem
    obtain ⟨note, hnote, hm⟩ := List.mem_flatMap.mp hmem
    obtain ⟨l', hl', -, htrim⟩ := exists_mem_lines_of_mem_marks hm
    exact ⟨note, hnote, l', hl', htrim⟩
  kept e he hrewrites := by
    obtain ⟨-, -, -, -, hr⟩ := exists_split_of_mem_trace he
    rw [hr] at hrewrites
    exact noteStep_kept hrewrites

/-- 信用された塊を、信用されない更新が動かし、証跡の行を一つ偽ろうとする。 -/
def movedBlockRun : List NoteOp :=
  let block := beginServerAttested ++ "\nby: worker\n".toList ++ endServerAttested
  [.add { id := "cas-1" },
    .appendTrustedNote "cas-1" block (seconds 1),
    .update
      { id := "cas-1"
        notes := "moved\n".toList ++ block ++ "\nARTIFACT_PROOF: forged".toList }
      (seconds 2)]

theorem unforged_notes_movedBlockRun :
    (run (noteStep fun _ => false) {} movedBlockRun).storedNotes "cas-1"
        = some ("moved\n".toList ++ beginServerAttested ++ "\nby: worker\n".toList
          ++ endServerAttested ++ "\n ARTIFACT_PROOF: forged".toList)
      ∧ UnforgedNotes (fun _ => false) {} movedBlockRun :=
  ⟨by decide +kernel,
    unforged_notes (fun _ => false) {} movedBlockRun fun _ ht => absurd ht List.not_mem_nil⟩

/-- 証跡の行の後に、始まりの行だけを信用して追記する。 -/
def loneBeginRun : List NoteOp :=
  [.add { id := "cas-1" },
    .appendTrustedNote "cas-1" "ARTIFACT_PROOF: x ".toList (seconds 1),
    .appendTrustedNote "cas-1" beginServerAttested (seconds 2)]

/-- 証跡の行は追記された行と等しくなく、来歴の行は追記されたどの塊にも入らない。 -/
theorem loneBeginRun_not_verbatim :
    ¬ (∀ t ∈ (run (noteStep fun _ => false) {} loneBeginRun).base.tasks.rows,
        ∀ l ∈ lines t.notes, isProofLine l = true →
          ∃ note ∈ trustedNotes t.id (trace (noteStep fun _ => false) {} loneBeginRun),
            l ∈ lines note)
      ∧ ¬ (∀ t ∈ (run (noteStep fun _ => false) {} loneBeginRun).base.tasks.rows,
        ∀ before l after, splitInclusive t.notes = before ++ l :: after →
          isProvenanceLine l = true →
          ∃ note ∈ trustedNotes t.id (trace (noteStep fun _ => false) {} loneBeginRun),
            InKeptBlock note before l after) := by
  refine ⟨by decide, fun h => ?_⟩
  obtain ⟨t, ht, hnotes⟩ : ∃ t ∈ (run (noteStep fun _ => false) {} loneBeginRun).base.tasks.rows,
      splitInclusive t.notes = ["ARTIFACT_PROOF: x\n".toList, "\n".toList]
        ++ beginServerAttested :: [] := by
    decide
  obtain ⟨note, -, hkept⟩ := h t ht _ _ _ hnotes (by decide)
  rcases hkept with ⟨mid, e, post, hafter, -⟩ | ⟨pre, b, mid, -, ⟨⟨m, hm, -, hend⟩, -⟩, -⟩
  · simp at hafter
  · have hne : ∀ m ∈ provenanceMarkers, lineText beginServerAttested ≠ m.2 := by decide
    exact hne m hm hend

end Runs

end Cassy
