import Cassy.Prompt.Machine

/-!
# 操作が行に起こすこと

操作のたびに、表のどの行も、前の表の同じ番号の行から決まった関係 `R` で移ったものか、新しく足された行の
どちらかである（`Moves R New`）。`R` が反射的かつ推移的なら、`Moves` は文の列に沿って合成できる。

押印を重ねる操作については、押印の一回が `R` であることから操作の全体が `R` であることを、ここで一度だけ示す。
段階の順序も、報告の不変条件も、`R` を選べばこの補題から出る。

番号の重ならない行を一つずつ書く掃除は `foldlM_touches` で扱う。こちらは `R` が推移的でなくてよい。
-/

namespace Cassy

open Infra PromptDb

/-- どの行も、前の行から `R` で移ったか、新しく足された。 -/
structure Moves (R : PromptRow → PromptRow → Prop) (New : PromptRow → Prop) (db db' : PromptDb) :
    Prop where
  nextId : db.nextId ≤ db'.nextId
  row : ∀ id r', db'.find? id = some r' →
    (∃ r, db.find? id = some r ∧ R r r') ∨ (db.nextId ≤ id ∧ New r')

/-- 文の列に沿って合成できる関係。 -/
structure RowRel (R : PromptRow → PromptRow → Prop) (New : PromptRow → Prop) : Prop where
  refl : ∀ r, R r r
  trans : ∀ {a b c}, R a b → R b c → R a c
  new : ∀ p id, New (NewPrompt.toRow p id)
  newStep : ∀ {r r'}, New r → R r r' → New r'
  text : ∀ r prompt summary, R r { r with prompt, summary }

section Compose

variable {R R' : PromptRow → PromptRow → Prop} {New : PromptRow → Prop} {db db' db'' : PromptDb}

theorem Moves.of_prompts_eq (hrefl : ∀ r, R r r) (h : db'.prompts = db.prompts)
    (hn : db'.nextId = db.nextId) : Moves R New db db' where
  nextId := Nat.le_of_eq hn.symm
  row := by
    intro id r' hr'
    rw [PromptDb.find?, h] at hr'
    exact Or.inl ⟨r', hr', hrefl r'⟩

theorem Moves.refl (hrefl : ∀ r, R r r) : Moves R New db db := .of_prompts_eq hrefl rfl rfl

/-- 始めの表は、伝言と次の番号の他を問わない。 -/
theorem Moves.congr_left (h : Moves R New db db') (hp : db.prompts = db''.prompts)
    (hn : db.nextId = db''.nextId) : Moves R New db'' db' where
  nextId := hn ▸ h.nextId
  row := by
    intro id r' hr'
    rcases h.row id r' hr' with ⟨r, hr, hstep⟩ | ⟨hid, hnew⟩
    · rw [PromptDb.find?, hp] at hr
      exact Or.inl ⟨r, hr, hstep⟩
    · exact Or.inr ⟨hn ▸ hid, hnew⟩

/-- 二つの移りをつなぐ。 -/
theorem Moves.comp {S : PromptRow → PromptRow → Prop} {New' : PromptRow → Prop}
    (h : Moves R New db db') (h' : Moves R' New' db' db'')
    (hcomp : ∀ {a b c}, R a b → R' b c → S a c) (hstep : ∀ {a b}, New a → R' a b → New' b) :
    Moves S New' db db'' where
  nextId := Nat.le_trans h.nextId h'.nextId
  row := by
    intro id r'' hr''
    rcases h'.row id r'' hr'' with ⟨r', hr', hstep'⟩ | ⟨hid, hnew⟩
    · rcases h.row id r' hr' with ⟨r, hr, hstep₀⟩ | ⟨hid, hnew⟩
      · exact Or.inl ⟨r, hr, hcomp hstep₀ hstep'⟩
      · exact Or.inr ⟨hid, hstep hnew hstep'⟩
    · exact Or.inr ⟨Nat.le_trans h.nextId hid, hnew⟩

theorem Moves.trans (hR : RowRel R New) (h : Moves R New db db') (h' : Moves R New db' db'') :
    Moves R New db db'' :=
  h.comp h' hR.trans hR.newStep

/-- 前からあった行は、`R` で移る。 -/
theorem Moves.old (h : Moves R New db db') {id : Nat} {r r' : PromptRow} (hr : db.find? id = some r)
    (hr' : db'.find? id = some r') : R r r' := by
  rcases h.row id r' hr' with ⟨r₀, hr₀, hstep⟩ | ⟨hid, -⟩
  · rw [hr] at hr₀
    cases hr₀
    exact hstep
  · exact absurd (lt_nextId hr) (Nat.not_lt.mpr hid)

/-- 行の性質は、移りと受付で保たれるなら表の全体で保たれる。 -/
theorem Moves.forall {Q : PromptRow → Prop} (h : Moves R New db db')
    (hstep : ∀ r r', Q r → R r r' → Q r') (hnew : ∀ r, New r → Q r)
    (hQ : ∀ id r, db.find? id = some r → Q r) : ∀ id r, db'.find? id = some r → Q r := by
  intro id r' hr'
  rcases h.row id r' hr' with ⟨r, hr, hR⟩ | ⟨-, hn⟩
  · exact hstep r r' (hQ id r hr) hR
  · exact hnew r' hn

theorem moves_update (hrefl : ∀ r, R r r) {p : PromptRow → Bool} {f : PromptRow → PromptRow}
    {hf : ∀ r, (f r).id = r.id} (h : ∀ id r, db.find? id = some r → p r → R r (f r)) :
    Moves R New db (db.update p f hf) where
  nextId := Nat.le_refl _
  row := by
    intro id r' hr'
    rw [find?_update, Option.map_eq_some_iff] at hr'
    obtain ⟨r, hr, rfl⟩ := hr'
    refine Or.inl ⟨r, hr, ?_⟩
    split
    · next hp => exact h id r hr hp
    · exact hrefl r

theorem moves_updateId (hrefl : ∀ r, R r r) {id : Nat} {p : PromptRow → Bool}
    {f : PromptRow → PromptRow} {hf : ∀ r, (f r).id = r.id}
    (h : ∀ r, db.find? id = some r → p r → R r (f r)) :
    Moves R New db (db.updateId id p f hf) := by
  refine moves_update hrefl fun j r hr hp => ?_
  obtain ⟨hid, hp⟩ := (Bool.and_eq_true _ _).mp hp
  have hj : j = id := (Table.key_of_find? hr).symm.trans (of_decide_eq_true hid)
  exact h r (hj ▸ hr) hp

theorem moves_deletePrompts (hrefl : ∀ r, R r r) (p : PromptRow → Bool) :
    Moves R New db (db.deletePrompts p) where
  nextId := Nat.le_refl _
  row := by
    intro id r' hr'
    rw [find?_deletePrompts, Option.filter_eq_some_iff] at hr'
    exact Or.inl ⟨r', hr'.1, hrefl r'⟩

theorem moves_skipId (hrefl : ∀ r, R r r) : Moves R New db db.skipId where
  nextId := Nat.le_succ _
  row := fun _ r' hr' => Or.inl ⟨r', hr', hrefl r'⟩

theorem moves_insert (hrefl : ∀ r, R r r) (p : NewPrompt) (hnew : New (p.toRow db.nextId)) :
    Moves R New db (db.insert p) where
  nextId := Nat.le_succ _
  row := by
    intro id r' hr'
    rw [find?_insert] at hr'
    split at hr'
    · next hid =>
      subst hid
      cases hr'
      exact Or.inr ⟨Nat.le_refl _, hnew⟩
    · exact Or.inl ⟨r', hr', hrefl r'⟩

/-- 押印を重ねるような、落ちることのある畳み込み。 -/
theorem moves_foldlM (hR : RowRel R New) {γ : Type} {g : PromptDb → γ → Except StoreError PromptDb}
    (hg : ∀ db x db', g db x = .ok db' → Moves R New db db') :
    ∀ {l : List γ} {db db' : PromptDb}, l.foldlM g db = .ok db' → Moves R New db db'
  | [], db, db', h => by
    cases h
    exact .refl hR.refl
  | x :: l, db, db', h => by
    rw [List.foldlM_cons, bind_eq_ok] at h
    obtain ⟨db₁, hx, hl⟩ := h
    exact (hg db x db₁ hx).trans hR (moves_foldlM hR hg hl)

theorem moves_foldl (hR : RowRel R New) {γ : Type} {g : PromptDb → γ → PromptDb} {l : List γ}
    (hg : ∀ db, ∀ x ∈ l, Moves R New db (g db x)) : ∀ db, Moves R New db (l.foldl g db) := by
  induction l with
  | nil => exact fun db => .refl hR.refl
  | cons x l ih =>
    intro db
    exact (hg db x List.mem_cons_self).trans hR
      (ih (fun db y hy => hg db y (List.mem_cons_of_mem _ hy)) (g db x))

end Compose

/-! ## 一行ずつの掃除 -/

/-- 番号 `i` の行だけを書き、その行は `R` で移る。 -/
structure Touches (i : Nat) (R : PromptRow → PromptRow → Prop) (db db' : PromptDb) : Prop where
  nextId : db'.nextId = db.nextId
  others : ∀ j, j ≠ i → db'.find? j = db.find? j
  row : ∀ r', db'.find? i = some r' → ∃ r, db.find? i = some r ∧ R r r'

theorem touches_updateId {db : PromptDb} {id : Nat} {R : PromptRow → PromptRow → Prop}
    {p : PromptRow → Bool} {f : PromptRow → PromptRow} {hf : ∀ r, (f r).id = r.id}
    (h : ∀ r, db.find? id = some r → R r (if p r then f r else r)) :
    Touches id R db (db.updateId id p f hf) where
  nextId := rfl
  others := by
    intro j hj
    show (db.update _ f hf).find? j = _
    rw [find?_update]
    cases hr : db.find? j with
    | none => rfl
    | some r =>
      have hid : r.id ≠ id := fun he => hj ((Table.key_of_find? hr).symm.trans he)
      simp [hid]
  row := by
    intro r' hr'
    have hr'' : (db.update (fun r => r.id = id && p r) f hf).find? id = some r' := hr'
    rw [find?_update, Option.map_eq_some_iff] at hr''
    obtain ⟨r, hr, rfl⟩ := hr''
    refine ⟨r, hr, ?_⟩
    have hid : r.id = id := Table.key_of_find? hr
    simpa [hid] using h r hr

theorem Touches.of_eq {i : Nat} {R : PromptRow → PromptRow → Prop} {db : PromptDb}
    (hrefl : ∀ r, db.find? i = some r → R r r) : Touches i R db db where
  nextId := rfl
  others := fun _ _ => rfl
  row := fun r' hr' => ⟨r', hr', hrefl r' hr'⟩

theorem Touches.imp {i : Nat} {R R' : PromptRow → PromptRow → Prop} {db db' : PromptDb}
    (h : Touches i R db db') (himp : ∀ r r', db.find? i = some r → R r r' → R' r r') :
    Touches i R' db db' where
  nextId := h.nextId
  others := h.others
  row := by
    intro r' hr'
    obtain ⟨r, hr, hR⟩ := h.row r' hr'
    exact ⟨r, hr, himp r r' hr hR⟩

/-- 掃除の前後。選ばれた番号の行は一度だけ書かれ、他の行は変わらない。 -/
structure SweepsEach {γ : Type} (key : γ → Nat) (R : γ → PromptRow → PromptRow → Prop) (l : List γ)
    (db db' : PromptDb) : Prop where
  nextId : db'.nextId = db.nextId
  others : ∀ j, j ∉ l.map key → db'.find? j = db.find? j
  row : ∀ x ∈ l, ∀ r', db'.find? (key x) = some r' → ∃ r, db.find? (key x) = some r ∧ R x r r'

/--
番号の重ならない列を一つずつ書く。どの行も、書かれる時には元の行のままである。

`I` は、途中の表について書き込みの条件が使う、保たれる事実である。
-/
theorem foldlM_touches {γ : Type} {key : γ → Nat} {R : γ → PromptRow → PromptRow → Prop}
    {I : PromptDb → Prop} {g : PromptDb → γ → Except StoreError PromptDb} :
    ∀ {l : List γ} {db db' : PromptDb}, (l.map key).Nodup → I db →
      (∀ x ∈ l, ∀ db db', I db → g db x = .ok db' → Touches (key x) (R x) db db' ∧ I db') →
      l.foldlM g db = .ok db' → SweepsEach key R l db db'
  | [], db, db', _, _, _, h => by
    cases h
    exact ⟨rfl, fun _ _ => rfl, by simp⟩
  | x :: l, db, db', hnd, hi, hg, h => by
    rw [List.foldlM_cons, bind_eq_ok] at h
    obtain ⟨db₁, hx, hl⟩ := h
    rw [List.map_cons, List.nodup_cons] at hnd
    obtain ⟨hhead, hi₁⟩ := hg x List.mem_cons_self db db₁ hi hx
    have htail := foldlM_touches hnd.2 hi₁ (fun y hy => hg y (List.mem_cons_of_mem _ hy)) hl
    refine ⟨htail.nextId.trans hhead.nextId, ?_, ?_⟩
    · intro j hj
      rw [List.map_cons, List.mem_cons, not_or] at hj
      rw [htail.others j hj.2, hhead.others j hj.1]
    · intro y hy r' hr'
      rcases List.mem_cons.mp hy with rfl | hy
      · rw [htail.others _ hnd.1] at hr'
        exact hhead.row r' hr'
      · have hne : key y ≠ key x := fun he =>
          hnd.1 (he ▸ List.mem_map.mpr ⟨y, hy, rfl⟩)
        obtain ⟨r, hr, hR⟩ := htail.row y hy r' hr'
        exact ⟨r, (hhead.others _ hne) ▸ hr, hR⟩

/-- 掃除は `Moves` である。 -/
theorem SweepsEach.moves {γ : Type} {key : γ → Nat} {S : γ → PromptRow → PromptRow → Prop}
    {R : PromptRow → PromptRow → Prop} {New : PromptRow → Prop} {l : List γ} {db db' : PromptDb}
    (h : SweepsEach key S l db db') (hrefl : ∀ r, R r r)
    (himp : ∀ x ∈ l, ∀ r r', db.find? (key x) = some r → S x r r' → R r r') :
    Moves R New db db' where
  nextId := Nat.le_of_eq h.nextId.symm
  row := by
    intro id r' hr'
    by_cases hid : id ∈ l.map key
    · obtain ⟨x, hx, rfl⟩ := List.mem_map.mp hid
      obtain ⟨r, hr, hS⟩ := h.row x hx r' hr'
      exact Or.inl ⟨r, hr, himp x hx r r' hr hS⟩
    · rw [h.others id hid] at hr'
      exact Or.inl ⟨r', hr', hrefl r'⟩

/-- 表から選んだ行の番号は重ならない。 -/
theorem nodup_filter_ids (db : PromptDb) (p : PromptRow → Bool) :
    ((db.rows.filter p).map PromptRow.id).Nodup :=
  (List.Sublist.map PromptRow.id List.filter_sublist).nodup db.prompts.nodup

end Cassy
