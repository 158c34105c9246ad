import Mathlib.Data.List.Nodup
import Mathlib.Data.List.Count
import Mathlib.Tactic.Common

/-!
# 主キーつきの表

SQLite の表を、主キーが重複しない行の列として扱う。
`UPDATE … WHERE`、`DELETE … WHERE`、`INSERT` はどれもこの性質を保つので、
構造体の field に持たせてしまい、以後の証明では繰り返さない。

読み出しは `find?`（主キーの一致する行）と `rows`（走査）の二つである。
更新の後の `find?` を、更新の前の `find?` で言い直す補題が中心になる。
-/

namespace Cassy.Infra

variable {κ ρ : Type}

/-- `key` を主キーとする表。 -/
structure Table (key : ρ → κ) where
  rows : List ρ
  nodup : (rows.map key).Nodup

namespace Table

variable {key : ρ → κ}
variable {t t' : Table key} {r : ρ} {k : κ} {p : ρ → Bool} {f : ρ → ρ}

/-- 行の無い表。 -/
def empty : Table key := ⟨[], List.nodup_nil⟩

instance : Inhabited (Table key) := ⟨empty⟩

theorem ext_rows (h : t.rows = t'.rows) : t = t' := by
  cases t; cases t'; simp_all

/-- 主キーが等しい二つの行は同じ行である。 -/
theorem eq_of_key {r' : ρ} (hr : r ∈ t.rows) (hr' : r' ∈ t.rows) (h : key r = key r') : r = r' :=
  List.inj_on_of_nodup_map t.nodup hr hr' h

/-- `UPDATE … SET f WHERE p`。主キーを書き換える更新は許さない。 -/
def update (t : Table key) (p : ρ → Bool) (f : ρ → ρ)
    (hf : ∀ r, key (f r) = key r := by exact fun _ => rfl) : Table key where
  rows := t.rows.map fun r => if p r then f r else r
  nodup := by
    have hkey : (t.rows.map fun r => if p r then f r else r).map key = t.rows.map key := by
      rw [List.map_map]
      refine List.map_congr_left fun r _ => ?_
      simp only [Function.comp_apply]
      split
      · exact hf r
      · rfl
    rw [hkey]
    exact t.nodup

/-- `DELETE … WHERE p`。 -/
def delete (t : Table key) (p : ρ → Bool) : Table key where
  rows := t.rows.filter fun r => !p r
  nodup := (List.Sublist.map key List.filter_sublist).nodup t.nodup

/-- 条件に合う行の数。`UPDATE` と `DELETE` が返す変更行数はこれである。 -/
def count (t : Table key) (p : ρ → Bool) : Nat := t.rows.countP p

variable [DecidableEq κ]

/-- 主キーで一行を引く。 -/
def find? (t : Table key) (k : κ) : Option ρ := t.rows.find? fun r => key r = k

/-- `INSERT`。主キーが衝突すれば `none`。 -/
def insert? (t : Table key) (r : ρ) : Option (Table key) :=
  if h : key r ∈ t.rows.map key then none
  else some
    { rows := t.rows ++ [r]
      nodup := by
        rw [List.map_append, List.map_singleton]
        exact List.nodup_append.mpr ⟨t.nodup, List.nodup_singleton _, by
          intro a ha b hb
          rw [List.mem_singleton.mp hb]
          rintro rfl
          exact h ha⟩ }

/-- `INSERT OR IGNORE`。主キーが衝突すれば何もしない。 -/
def insertOrIgnore (t : Table key) (r : ρ) : Table key := (t.insert? r).getD t

/-- `INSERT OR REPLACE`。主キーの衝突する行を消してから挿す。 -/
def insertOrReplace (t : Table key) (r : ρ) : Table key :=
  (t.delete fun r' => key r' = key r).insertOrIgnore r

/-! ## `find?` -/

theorem find?_eq_some_iff : t.find? k = some r ↔ r ∈ t.rows ∧ key r = k := by
  constructor
  · intro h
    refine ⟨List.mem_of_find?_eq_some h, ?_⟩
    simpa using List.find?_some h
  · rintro ⟨hr, hk⟩
    cases hf : t.find? k with
    | none =>
      have hn := List.find?_eq_none.mp hf r hr
      simp [hk] at hn
    | some r' =>
      have hr' := List.mem_of_find?_eq_some hf
      have hk' : key r' = k := by simpa using List.find?_some hf
      rw [eq_of_key hr' hr (hk'.trans hk.symm)]

theorem find?_eq_none_iff : t.find? k = none ↔ ∀ r ∈ t.rows, key r ≠ k := by
  unfold find?
  rw [List.find?_eq_none]
  simp

theorem key_of_find? (h : t.find? k = some r) : key r = k :=
  (find?_eq_some_iff.mp h).2

theorem mem_of_find? (h : t.find? k = some r) : r ∈ t.rows :=
  (find?_eq_some_iff.mp h).1

theorem find?_of_mem (h : r ∈ t.rows) : t.find? (key r) = some r :=
  find?_eq_some_iff.mpr ⟨h, rfl⟩

omit [DecidableEq κ] in
@[simp] theorem update_rows (t : Table key) (p : ρ → Bool) (f : ρ → ρ)
    (hf : ∀ r, key (f r) = key r) :
    (t.update p f hf).rows = t.rows.map fun r => if p r then f r else r := rfl

omit [DecidableEq κ] in
/-- 更新の変えない射影は、行の並びごと変わらない。 -/
theorem map_update {γ : Type*} (hf : ∀ r, key (f r) = key r) {g : ρ → γ} (hg : ∀ r, g (f r) = g r) :
    (t.update p f hf).rows.map g = t.rows.map g := by
  rw [update_rows, List.map_map]
  refine List.map_congr_left fun r _ => ?_
  simp only [Function.comp_apply]
  split
  · exact hg r
  · rfl

omit [DecidableEq κ] in
theorem mem_update {hf : ∀ r, key (f r) = key r} {r' : ρ} :
    r' ∈ (t.update p f hf).rows ↔ ∃ r ∈ t.rows, (if p r then f r else r) = r' := by
  simp [update]

omit [DecidableEq κ] in
theorem mem_delete : r ∈ (t.delete p).rows ↔ r ∈ t.rows ∧ p r = false := by
  simp [delete]

/-- 主キーの並びが同じ表には、同じ主キーの行がある。 -/
theorem find?_ne_none_of_map_eq (h : t'.rows.map key = t.rows.map key) (hr : r ∈ t'.rows) :
    t.find? (key r) ≠ none := by
  intro hnone
  have hmem : key r ∈ t.rows.map key := h ▸ List.mem_map.mpr ⟨r, hr, rfl⟩
  obtain ⟨r', hr', hk⟩ := List.mem_map.mp hmem
  exact find?_eq_none_iff.mp hnone r' hr' hk

/-- 更新の後に引いた行は、引いてから更新した行である。 -/
@[simp] theorem find?_update {t : Table key} {p : ρ → Bool} {f : ρ → ρ}
    {hf : ∀ r, key (f r) = key r} {k : κ} :
    (t.update p f hf).find? k = (t.find? k).map fun r => if p r then f r else r := by
  have hkey : ∀ r, key (if p r then f r else r) = key r := by
    intro r
    split
    · exact hf r
    · rfl
  cases h : t.find? k with
  | none =>
    rw [find?_eq_none_iff] at h
    rw [Option.map_none, find?_eq_none_iff]
    intro r' hr'
    obtain ⟨r, hr, rfl⟩ := mem_update.mp hr'
    rw [hkey]
    exact h r hr
  | some r =>
    obtain ⟨hr, hk⟩ := find?_eq_some_iff.mp h
    rw [Option.map_some, find?_eq_some_iff]
    exact ⟨mem_update.mpr ⟨r, hr, rfl⟩, by rw [hkey]; exact hk⟩

/-- 主キーで選んだ一行の更新の後を引く。 -/
theorem find?_update_key (hf : ∀ r, key (f r) = key r) (hr : t.find? k = some r)
    (hp : ∀ x, p x = true → key x = k) (hpr : p r = true) (k' : κ) :
    (t.update p f hf).find? k' = if k = k' then some (f r) else t.find? k' := by
  rw [find?_update]
  split
  · next hk => rw [← hk, hr, Option.map_some, if_pos hpr]
  · next hk =>
    cases hold : t.find? k' with
    | none => rfl
    | some x =>
      have hx : ¬ p x = true := fun he => hk ((hp x he).symm.trans (key_of_find? hold))
      rw [Option.map_some, if_neg hx]

@[simp] theorem find?_delete : (t.delete p).find? k = (t.find? k).filter fun r => !p r := by
  cases h : t.find? k with
  | none =>
    rw [find?_eq_none_iff] at h
    rw [Option.filter_none, find?_eq_none_iff]
    exact fun r hr => h r (mem_delete.mp hr).1
  | some r =>
    obtain ⟨hr, hk⟩ := find?_eq_some_iff.mp h
    by_cases hp : p r = true
    · rw [Option.filter_some, if_neg (by simp [hp]), find?_eq_none_iff]
      intro r' hr' hk'
      obtain ⟨hmem, hpr⟩ := mem_delete.mp hr'
      rw [eq_of_key hmem hr (hk'.trans hk.symm)] at hpr
      rw [hp] at hpr
      exact absurd hpr (by decide)
    · have hp' : p r = false := by simpa using hp
      rw [Option.filter_some, if_pos (by simp [hp']), find?_eq_some_iff]
      exact ⟨mem_delete.mpr ⟨hr, hp'⟩, hk⟩

/-! ## `INSERT` -/

theorem insert?_eq_some (h : t.insert? r = some t') :
    t.find? (key r) = none ∧ t'.rows = t.rows ++ [r] := by
  unfold insert? at h
  split at h
  · exact absurd h (by simp)
  · next hk =>
    refine ⟨?_, by rw [← Option.some.inj h]⟩
    rw [find?_eq_none_iff]
    intro r' hr' he
    exact hk (List.mem_map.mpr ⟨r', hr', he⟩)

theorem insert?_isSome (h : t.find? (key r) = none) : ∃ t', t.insert? r = some t' := by
  unfold insert?
  rw [dif_neg]
  · exact ⟨_, rfl⟩
  · intro hm
    obtain ⟨r', hr', he⟩ := List.mem_map.mp hm
    exact find?_eq_none_iff.mp h r' hr' he

/-- 挿した後の表を引く。 -/
theorem find?_insert? (h : t.insert? r = some t') (k : κ) :
    t'.find? k = if key r = k then some r else t.find? k := by
  obtain ⟨hnone, hrows⟩ := insert?_eq_some h
  unfold find?
  rw [hrows, List.find?_append]
  split
  · next hk =>
    subst hk
    have hn : t.rows.find? (fun r' => key r' = key r) = none := hnone
    rw [hn]
    simp
  · next hk =>
    have hs : [r].find? (fun r => key r = k) = none := by simp [hk]
    rw [hs, Option.or_none]

theorem mem_insert? {x : ρ} (h : t.insert? r = some t') : x ∈ t'.rows ↔ x ∈ t.rows ∨ x = r := by
  rw [(insert?_eq_some h).2]
  simp

/-- 主キーが塞がっていれば、無視する挿入は何も変えない。 -/
theorem insertOrIgnore_of_find? {t : Table key} {r r' : ρ} (h : t.find? (key r) = some r') :
    t.insertOrIgnore r = t := by
  obtain ⟨hr', hk⟩ := find?_eq_some_iff.mp h
  unfold insertOrIgnore insert?
  rw [dif_pos (List.mem_map.mpr ⟨r', hr', hk⟩), Option.getD_none]

/-- 無視する挿入の後を引く。先にある行が勝つ。 -/
theorem find?_insertOrIgnore :
    (t.insertOrIgnore r).find? k = (t.find? k).or (if key r = k then some r else none) := by
  cases h : t.find? (key r) with
  | some r' =>
    rw [insertOrIgnore_of_find? h]
    split
    · next hk => rw [← hk, h, Option.some_or]
    · rw [Option.or_none]
  | none =>
    obtain ⟨t', ht'⟩ := insert?_isSome h
    unfold insertOrIgnore
    rw [ht', Option.getD_some, find?_insert? ht']
    split
    · next hk => rw [← hk, h, Option.none_or]
    · rw [Option.or_none]

theorem mem_insertOrIgnore {x : ρ} (h : x ∈ (t.insertOrIgnore r).rows) : x ∈ t.rows ∨ x = r := by
  unfold insertOrIgnore at h
  cases hins : t.insert? r with
  | none =>
    rw [hins] at h
    exact .inl h
  | some t' =>
    rw [hins] at h
    exact (mem_insert? hins).mp h

theorem mem_insertOrReplace {x : ρ} :
    x ∈ (t.insertOrReplace r).rows ↔ (x ∈ t.rows ∧ key x ≠ key r) ∨ x = r := by
  have hnone : (t.delete fun r' => key r' = key r).find? (key r) = none := by
    rw [find?_eq_none_iff]
    intro r' hr'
    simpa using (mem_delete.mp hr').2
  obtain ⟨t', ht'⟩ := insert?_isSome hnone
  unfold insertOrReplace insertOrIgnore
  rw [ht', Option.getD_some, mem_insert? ht', mem_delete]
  simp

/-- 置き換える挿入の後を引く。挿した行が勝つ。 -/
theorem find?_insertOrReplace :
    (t.insertOrReplace r).find? k = if key r = k then some r else t.find? k := by
  have hfilter : (t.find? k).filter (fun r' => !decide (key r' = key r))
      = if key r = k then none else t.find? k := by
    cases h : t.find? k with
    | none => simp
    | some r' =>
      have hk : key r' = k := key_of_find? h
      by_cases he : key r = k
      · simp [Option.filter, hk, he]
      · have hne : k ≠ key r := fun h => he h.symm
        simp [Option.filter, hk, hne, he]
  rw [insertOrReplace, find?_insertOrIgnore, find?_delete, hfilter]
  split <;> simp

/-- 続けて置き換えた後を引く。同じ主キーの行では、後のものが勝つ。 -/
theorem find?_foldl_insertOrReplace : ∀ {rs : List ρ} {t : Table key},
    (rs.foldl insertOrReplace t).find? k
      = (rs.reverse.find? fun r => key r = k).or (t.find? k)
  | [], _ => rfl
  | r :: rs, t => by
    rw [List.foldl_cons, find?_foldl_insertOrReplace, find?_insertOrReplace, List.reverse_cons,
      List.find?_append, Option.or_assoc]
    by_cases h : key r = k <;> simp [h]

/-! ## 行数の勘定

一行だけを書き換える更新は、述語を満たす行数をその行の前後の差だけ動かす。
-/

omit [DecidableEq κ] in
/-- 述語を外す更新のあと、述語を満たすのは更新を受けなかった行だけである。 -/
theorem count_update_of_false {q : ρ → Bool} (hf : ∀ r, key (f r) = key r)
    (h : ∀ r ∈ t.rows, p r = true → q (f r) = false) :
    (t.update p f hf).count q + t.count (fun r => q r && p r) = t.count q := by
  unfold count update
  rw [List.countP_map]
  have hsplit : t.rows.countP (q ∘ fun r => if p r then f r else r)
      = t.rows.countP fun r => q r && !p r := by
    refine List.countP_congr fun r hr => ?_
    simp only [Function.comp_apply]
    cases hp : p r with
    | false => simp
    | true => simp [h r hr hp]
  rw [hsplit]
  induction t.rows with
  | nil => rfl
  | cons r rest ih =>
    simp only [List.countP_cons]
    cases q r <;> cases p r <;> simp <;> omega

/-- 主キーで選んだ一行の更新。行数は、その行の前後の差だけ動く。 -/
theorem count_update_key {q : ρ → Bool} (hf : ∀ r, key (f r) = key r) (h : t.find? k = some r) :
    (t.update (fun r => key r = k) f hf).count q + (if q r then 1 else 0)
      = t.count q + (if q (f r) then 1 else 0) := by
  obtain ⟨hr, hk⟩ := find?_eq_some_iff.mp h
  have hnd := t.nodup
  unfold count update
  rw [List.countP_map]
  beta_reduce
  generalize t.rows = rows at hr hnd
  induction rows with
  | nil => simp at hr
  | cons x rest ih =>
    simp only [List.map_cons, List.nodup_cons] at hnd
    simp only [List.countP_cons, Function.comp_apply]
    by_cases hx : key x = k
    · -- 選ばれるのは先頭の行で、残りは触られない
      have hxr : x = r := by
        rcases List.mem_cons.mp hr with he | hmem
        · exact he.symm
        · exact absurd (List.mem_map.mpr ⟨r, hmem, hk.trans hx.symm⟩) hnd.1
      have hrest : rest.countP (q ∘ fun r => if decide (key r = k) then f r else r)
          = rest.countP q := by
        refine List.countP_congr fun y hy => ?_
        have hyk : key y ≠ k := fun he =>
          hnd.1 (List.mem_map.mpr ⟨y, hy, he.trans hx.symm⟩)
        simp [hyk]
      rw [hrest, hxr]
      simp only [hk, decide_true, if_true]
      omega
    · have hrest : r ∈ rest := by
        rcases List.mem_cons.mp hr with he | hmem
        · exact absurd (he ▸ hk) hx
        · exact hmem
      have := ih hrest hnd.2
      simp only [hx, decide_false, Bool.false_eq_true, if_false]
      omega

omit [DecidableEq κ] in
/-- 選ぶ行が同じなら、更新も同じである。 -/
theorem update_congr {p' : ρ → Bool} {hf : ∀ r, key (f r) = key r} (h : ∀ r ∈ t.rows, p r = p' r) :
    t.update p f hf = t.update p' f hf :=
  ext_rows (List.map_congr_left fun r hr => by rw [h r hr])

omit [DecidableEq κ] in
/-- 選ぶ行を変えない更新は、何も変えない。 -/
theorem update_eq_self {t : Table key} {p : ρ → Bool} {f : ρ → ρ} {hf : ∀ r, key (f r) = key r}
    (h : ∀ r ∈ t.rows, p r = true → f r = r) : t.update p f hf = t := by
  refine ext_rows ?_
  rw [update_rows]
  refine (List.map_congr_left fun r hr => ?_).trans (List.map_id t.rows)
  split
  · next hp => exact h r hr hp
  · rfl

theorem count_insert? {q : ρ → Bool} (h : t.insert? r = some t') :
    t'.count q = t.count q + (if q r then 1 else 0) := by
  unfold count
  rw [(insert?_eq_some h).2, List.countP_append]
  simp [List.countP_cons]

omit [DecidableEq κ] in
theorem count_pos_iff :
    0 < t.count p ↔ ∃ r ∈ t.rows, p r = true := List.countP_pos_iff

omit [DecidableEq κ] in
theorem count_eq_zero_iff : t.count p = 0 ↔ ∀ r ∈ t.rows, p r = false := by
  simp [count, List.countP_eq_zero]

/-- 主キーを名指す条件に合う行は、主キーで引いた行の外に無い。 -/
theorem count_eq_one (hr : t.find? k = some r) (hp : ∀ r ∈ t.rows, p r = true → key r = k)
    (hpr : p r = true) : t.count p = 1 := by
  obtain ⟨hmem, hk⟩ := find?_eq_some_iff.mp hr
  have hnd := t.nodup
  unfold count
  generalize t.rows = rows at hmem hnd hp
  induction rows with
  | nil => simp at hmem
  | cons x rest ih =>
    rw [List.map_cons, List.nodup_cons] at hnd
    rw [List.countP_cons]
    rcases List.mem_cons.mp hmem with rfl | hmem
    · have hrest : rest.countP p = 0 := by
        refine List.countP_eq_zero.mpr fun y hy hpy => hnd.1 (List.mem_map.mpr ⟨y, hy, ?_⟩)
        exact (hp y (List.mem_cons_of_mem _ hy) hpy).trans hk.symm
      rw [hrest, if_pos hpr]
    · have hx : p x ≠ true := fun hpx =>
        hnd.1 (List.mem_map.mpr ⟨r, hmem, hk.trans (hp x List.mem_cons_self hpx).symm⟩)
      rw [ih hmem hnd.2 fun y hy => hp y (List.mem_cons_of_mem _ hy), if_neg hx]

/-- 主キーを名指す条件に合う行があれば、それは主キーで引いた行である。 -/
theorem of_count_pos (h : 0 < t.count p) (hp : ∀ r, p r = true → key r = k)
    (hr : t.find? k = some r) : p r = true := by
  obtain ⟨r', hr', hpr⟩ := count_pos_iff.mp h
  obtain ⟨hmem, hk⟩ := find?_eq_some_iff.mp hr
  rw [← eq_of_key hr' hmem ((hp r' hpr).trans hk.symm)]
  exact hpr

end Table

end Cassy.Infra
