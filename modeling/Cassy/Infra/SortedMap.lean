import Mathlib.Data.List.Basic
import Mathlib.Tactic.Common

/-!
# 鍵の順に並んだ対応表

`BTreeMap` を、鍵と値の組の列で表す。
-/

namespace Cassy.Infra

variable {κ α : Type*} [DecidableEq κ] [LT κ] [DecidableLT κ]

/-- `BTreeMap::insert`。同じ鍵の値は置き換わる。 -/
def mapInsert (k : κ) (v : α) : List (κ × α) → List (κ × α)
  | [] => [(k, v)]
  | x :: xs =>
    if k = x.1 then (k, v) :: xs
    else if k < x.1 then (k, v) :: x :: xs
    else x :: mapInsert k v xs

/-- `BTreeMap::get`。 -/
def mapGet (k : κ) (m : List (κ × α)) : Option α := (m.find? fun x => x.1 = k).map (·.2)

/-- `BTreeMap::remove`。 -/
def mapRemove (k : κ) (m : List (κ × α)) : List (κ × α) := m.filter fun x => x.1 ≠ k

/-- `collect::<BTreeMap<_, _>>`。同じ鍵では後の値が残る。 -/
def mapCollect (l : List (κ × α)) : List (κ × α) := l.foldl (fun m x => mapInsert x.1 x.2 m) []

theorem mem_mapInsert {k : κ} {v : α} {m : List (κ × α)} {x : κ × α}
    (h : x ∈ mapInsert k v m) : x = (k, v) ∨ x ∈ m := by
  induction m with
  | nil => exact .inl (List.mem_singleton.mp h)
  | cons y ys ih =>
    rw [mapInsert] at h
    split at h
    · rcases List.mem_cons.mp h with rfl | h
      · exact .inl rfl
      · exact .inr (List.mem_cons_of_mem _ h)
    · split at h
      · exact List.mem_cons.mp h
      · rcases List.mem_cons.mp h with rfl | h
        · exact .inr List.mem_cons_self
        · rcases ih h with rfl | h
          · exact .inl rfl
          · exact .inr (List.mem_cons_of_mem _ h)

omit [LT κ] [DecidableLT κ] in
theorem mem_of_mapGet {k : κ} {v : α} {m : List (κ × α)} (h : mapGet k m = some v) :
    (k, v) ∈ m := by
  rw [mapGet, Option.map_eq_some_iff] at h
  obtain ⟨x, hx, rfl⟩ := h
  have hk : x.1 = k := by simpa using List.find?_some hx
  rw [← hk]
  exact List.mem_of_find?_eq_some hx

theorem mem_mapCollect {l : List (κ × α)} {x : κ × α} (h : x ∈ mapCollect l) : x ∈ l := by
  have hfold : ∀ (l m : List (κ × α)), x ∈ l.foldl (fun m y => mapInsert y.1 y.2 m) m →
      x ∈ m ∨ x ∈ l := by
    intro l
    induction l with
    | nil => exact fun m h => .inl h
    | cons y ys ih =>
      intro m h
      rcases ih _ h with h | h
      · rcases mem_mapInsert h with rfl | h
        · exact .inr List.mem_cons_self
        · exact .inl h
      · exact .inr (List.mem_cons_of_mem _ h)
  rcases hfold l [] h with h | h
  · exact absurd h List.not_mem_nil
  · exact h

/-! ## `mapGet` -/

omit [LT κ] [DecidableLT κ] in
theorem mapGet_cons (k : κ) (x : κ × α) (m : List (κ × α)) :
    mapGet k (x :: m) = if x.1 = k then some x.2 else mapGet k m := by
  unfold mapGet
  rw [List.find?_cons]
  by_cases hk : x.1 = k
  · rw [if_pos hk, decide_eq_true hk]
    rfl
  · rw [if_neg hk, decide_eq_false hk]

theorem mapGet_mapInsert (k k' : κ) (v : α) (m : List (κ × α)) :
    mapGet k (mapInsert k' v m) = if k' = k then some v else mapGet k m := by
  induction m with
  | nil => exact mapGet_cons k (k', v) []
  | cons x xs ih =>
    rw [mapInsert]
    split
    · next heq =>
      rw [mapGet_cons, mapGet_cons, ← heq]
      dsimp only
      split <;> rfl
    · next hne =>
      split
      · rw [mapGet_cons]
      · rw [mapGet_cons, ih, mapGet_cons]
        by_cases hx : x.1 = k
        · rw [if_pos hx, if_pos hx, if_neg]
          rw [← hx]
          exact hne
        · rw [if_neg hx, if_neg hx]

omit [LT κ] [DecidableLT κ] in
theorem mapGet_mapRemove (k k' : κ) (m : List (κ × α)) :
    mapGet k (mapRemove k' m) = if k' = k then none else mapGet k m := by
  induction m with
  | nil =>
    show none = _
    split <;> rfl
  | cons x xs ih =>
    unfold mapRemove at ih ⊢
    rw [List.filter_cons]
    by_cases hx : x.1 = k'
    · rw [if_neg (by simp [hx]), ih, mapGet_cons]
      by_cases hk : k' = k
      · rw [if_pos hk, if_pos hk]
      · rw [if_neg hk, if_neg hk, if_neg (by rw [hx]; exact hk)]
    · rw [if_pos (by simp [hx]), mapGet_cons, mapGet_cons, ih]
      by_cases hk : x.1 = k
      · rw [if_pos hk, if_pos hk, if_neg (by rw [← hk]; exact fun h => hx h.symm)]
      · rw [if_neg hk, if_neg hk]

end Cassy.Infra
