import Mathlib.Order.Lattice
import Mathlib.Data.List.Induction
import Mathlib.Data.List.Perm.Basic
import Mathlib.Order.Basic
import Mathlib.Tactic.Common

/-!
# 鍵ごとに分けて一つずつ選ぶ

列を鍵ごとに分け、組ごとに一番よいものを選び、残りを捨てる操作の部品。

* `mapPush` — `entry(k).or_default().push(a)`
* `groupKeyed` — 鍵のある要素を鍵ごとに、鍵の無い要素を別に集める。組の中は元の順である
* `maxBy` — `Iterator::max_by`
* `swapRemove` — `Vec::swap_remove`
-/

namespace Cassy.Infra

variable {α κ : Type*}

/-! ## 鍵ごとの組 -/

section Groups

variable [LinearOrder κ]
variable {m : List (κ × List α)}

/-- `entry(k).or_default().push(a)`。鍵の順は保たれる。 -/
def mapPush (k : κ) (a : α) : List (κ × List α) → List (κ × List α)
  | [] => [(k, [a])]
  | x :: xs =>
    if k = x.1 then (k, x.2 ++ [a]) :: xs
    else if k < x.1 then (k, [a]) :: x :: xs
    else x :: mapPush k a xs

/-- 鍵の無い要素と、鍵ごとの組。 -/
def groupKeyed (key : α → Option κ) (l : List α) : List α × List (κ × List α) :=
  l.foldl (fun groups a => match key a with
    | none => (groups.1 ++ [a], groups.2)
    | some k => (groups.1, mapPush k a groups.2)) ([], [])

theorem mem_mapPush {k : κ} {a : α} {x : κ × List α} (h : x ∈ mapPush k a m) : x.1 = k ∨ x ∈ m := by
  induction m with
  | nil =>
    rw [List.mem_singleton.mp h]
    exact .inl rfl
  | cons y ys ih =>
    rw [mapPush] at h
    split at h
    · rcases List.mem_cons.mp h with rfl | h
      · exact .inl rfl
      · exact .inr (List.mem_cons_of_mem _ h)
    · split at h
      · rcases List.mem_cons.mp h with rfl | h
        · exact .inl rfl
        · exact .inr h
      · rcases List.mem_cons.mp h with rfl | h
        · exact .inr List.mem_cons_self
        · exact (ih h).imp_right (List.mem_cons_of_mem _)

/-- 足した後の要素は、元の要素と足した要素である。 -/
theorem flatMap_mapPush (k : κ) (a : α) (m : List (κ × List α)) :
    ((mapPush k a m).flatMap (·.2)).Perm (a :: m.flatMap (·.2)) := by
  induction m with
  | nil => exact List.Perm.refl _
  | cons x xs ih =>
    rw [mapPush]
    split
    · rw [List.flatMap_cons, List.flatMap_cons, List.append_assoc]
      exact List.perm_middle
    · split
      · exact List.Perm.refl _
      · rw [List.flatMap_cons, List.flatMap_cons]
        exact (ih.append_left x.2).trans List.perm_middle

/-- 鍵の順に並んだ、空でない組。 -/
def SortedGroups (m : List (κ × List α)) : Prop :=
  m.Pairwise (fun x y => x.1 < y.1) ∧ ∀ x ∈ m, x.2 ≠ []

theorem SortedGroups.mapPush (h : SortedGroups m) (k : κ) (a : α) :
    SortedGroups (mapPush k a m) := by
  induction m with
  | nil => exact ⟨List.pairwise_singleton _ _, by simp [Infra.mapPush]⟩
  | cons x xs ih =>
    obtain ⟨hx, hxs⟩ := List.pairwise_cons.mp h.1
    have hrest : SortedGroups xs := ⟨hxs, fun y hy => h.2 y (List.mem_cons_of_mem _ hy)⟩
    rw [Infra.mapPush]
    split
    next heq =>
      refine ⟨List.pairwise_cons.mpr ⟨fun y hy => ?_, hxs⟩, fun y hy => ?_⟩
      · rw [heq]
        exact hx y hy
      · rcases List.mem_cons.mp hy with rfl | hy
        · simp
        · exact hrest.2 y hy
    next hne =>
      split
      next hlt =>
        refine ⟨List.pairwise_cons.mpr ⟨fun y hy => ?_, h.1⟩, fun y hy => ?_⟩
        · rcases List.mem_cons.mp hy with rfl | hy
          · exact hlt
          · exact lt_trans hlt (hx y hy)
        · rcases List.mem_cons.mp hy with rfl | hy
          · simp
          · exact h.2 y hy
      next hge =>
        have hgt : x.1 < k := lt_of_le_of_ne (not_lt.mp hge) (Ne.symm hne)
        refine ⟨List.pairwise_cons.mpr ⟨fun y hy => ?_, (ih hrest).1⟩, fun y hy => ?_⟩
        · rcases mem_mapPush hy with hy | hy
          · rw [hy]
            exact hgt
          · exact hx y hy
        · rcases List.mem_cons.mp hy with rfl | hy
          · exact h.2 _ List.mem_cons_self
          · exact (ih hrest).2 y hy

/-- 鍵の組。無ければ空である。 -/
def groupOf (k : κ) (m : List (κ × List α)) : List α := (m.filter fun x => x.1 = k).flatMap (·.2)

theorem groupOf_of_forall_lt {k : κ} (h : ∀ x ∈ m, k < x.1) : groupOf k m = [] := by
  have hnil : (m.filter fun x => x.1 = k) = [] := by
    rw [List.filter_eq_nil_iff]
    intro x hx
    simpa using ne_of_gt (h x hx)
  rw [groupOf, hnil]
  rfl

theorem groupOf_mapPush (h : SortedGroups m) (k k' : κ) (a : α) :
    groupOf k' (mapPush k a m) = if k = k' then groupOf k' m ++ [a] else groupOf k' m := by
  induction m with
  | nil =>
    by_cases hk : k = k'
    · simp [mapPush, groupOf, hk]
    · simp [mapPush, groupOf, hk]
  | cons x xs ih =>
    obtain ⟨hx, hxs⟩ := List.pairwise_cons.mp h.1
    have hrest : SortedGroups xs := ⟨hxs, fun y hy => h.2 y (List.mem_cons_of_mem _ hy)⟩
    have hcons : ∀ (y : κ × List α) ys, groupOf k' (y :: ys)
        = (if y.1 = k' then y.2 else []) ++ groupOf k' ys := by
      intro y ys
      by_cases hy : y.1 = k'
      · simp [groupOf, hy]
      · simp [groupOf, hy]
    rw [mapPush]
    split
    next heq =>
      rw [hcons, hcons, ← heq]
      by_cases hk : k = k'
      · have hnil : groupOf k' xs = [] := groupOf_of_forall_lt fun y hy => by
          rw [← hk, heq]
          exact hx y hy
        simp [hk, hnil]
      · simp [hk]
    next hne =>
      split
      next hlt =>
        rw [hcons]
        by_cases hk : k = k'
        · have hnil : groupOf k' (x :: xs) = [] := groupOf_of_forall_lt fun y hy => by
            rw [← hk]
            rcases List.mem_cons.mp hy with rfl | hy
            · exact hlt
            · exact lt_trans hlt (hx y hy)
          simp [hk, hnil]
        · simp [hk]
      next hge =>
        rw [hcons, hcons, ih hrest]
        by_cases hk : k = k'
        · simp [hk]
        · simp [hk]

/-- 組は鍵の順に並び、空でなく、元の要素をちょうど含む。 -/
structure IsGrouping (key : α → Option κ) (l : List α) (groups : List α × List (κ × List α)) :
    Prop where
  unkeyed : groups.1 = l.filter fun a => (key a).isNone
  sorted : SortedGroups groups.2
  group : ∀ k, groupOf k groups.2 = l.filter fun a => key a = some k
  perm : (groups.1 ++ groups.2.flatMap (·.2)).Perm l

theorem groupKeyed_isGrouping (key : α → Option κ) (l : List α) :
    IsGrouping key l (groupKeyed key l) := by
  induction l using List.reverseRecOn with
  | nil => exact ⟨rfl, ⟨List.Pairwise.nil, by simp [groupKeyed]⟩, fun k => rfl, List.Perm.refl _⟩
  | append_singleton l a ih =>
    have hstep : groupKeyed key (l ++ [a]) = match key a with
        | none => ((groupKeyed key l).1 ++ [a], (groupKeyed key l).2)
        | some k => ((groupKeyed key l).1, mapPush k a (groupKeyed key l).2) := by
      simp [groupKeyed]
    rw [hstep]
    cases hkey : key a with
    | none =>
      refine ⟨?_, ih.sorted, fun k => ?_, ?_⟩
      · simp [ih.unkeyed, hkey]
      · simp [ih.group k, hkey]
      · rw [List.append_assoc]
        refine (List.Perm.append_left _ List.perm_append_comm).trans ?_
        rw [← List.append_assoc]
        exact ih.perm.append_right [a]
    | some k =>
      refine ⟨?_, ih.sorted.mapPush k a, fun k' => ?_, ?_⟩
      · simp [ih.unkeyed, hkey]
      · rw [groupOf_mapPush ih.sorted, ih.group k']
        by_cases hk : k = k'
        · simp [hk, hkey]
        · simp [hk, hkey]
      · refine ((flatMap_mapPush k a _).append_left _).trans ?_
        refine List.perm_middle.trans ?_
        exact (ih.perm.cons a).trans (List.perm_append_singleton a l).symm

/-- 組は、その鍵の要素の全部である。 -/
theorem SortedGroups.group_eq (h : SortedGroups m) {k : κ} {as : List α} (hmem : (k, as) ∈ m) :
    as = groupOf k m := by
  induction m with
  | nil => exact absurd hmem List.not_mem_nil
  | cons x xs ih =>
    obtain ⟨hx, hxs⟩ := List.pairwise_cons.mp h.1
    have hrest : SortedGroups xs := ⟨hxs, fun y hy => h.2 y (List.mem_cons_of_mem _ hy)⟩
    rcases List.mem_cons.mp hmem with rfl | hmem
    · have hnil : groupOf k xs = [] := groupOf_of_forall_lt hx
      unfold groupOf at hnil ⊢
      simp [hnil]
    · have hne : x.1 ≠ k := ne_of_lt (hx _ hmem)
      rw [ih hrest hmem]
      simp [groupOf, hne]

end Groups

/-! ## 一番よいもの -/

/-- `Iterator::max_by`。同点なら後のものを取る。 -/
def maxBy (cmp : α → α → Ordering) : List α → Option α
  | [] => none
  | a :: l => some (l.foldl (fun best b => if cmp best b = .gt then best else b) a)

theorem maxBy_spec {β : Type*} [LinearOrder β] {cmp : α → α → Ordering} {rank : α → β}
    (hcmp : ∀ a b, cmp a b = .gt ↔ rank b < rank a) {l : List α} (hne : l ≠ []) :
    ∃ a, maxBy cmp l = some a ∧ a ∈ l ∧ ∀ b ∈ l, rank b ≤ rank a := by
  have hfold : ∀ (l : List α) (best : α),
      (l.foldl (fun best b => if cmp best b = .gt then best else b) best) ∈ best :: l
        ∧ ∀ b ∈ best :: l,
          rank b ≤ rank (l.foldl (fun best b => if cmp best b = .gt then best else b) best) := by
    intro l
    induction l with
    | nil =>
      intro best
      exact ⟨List.mem_cons_self, fun b hb => by rw [List.mem_singleton.mp hb]; exact le_refl _⟩
    | cons x xs ih =>
      intro best
      rw [List.foldl_cons]
      by_cases hgt : cmp best x = .gt
      · rw [if_pos hgt]
        obtain ⟨hmem, hle⟩ := ih best
        refine ⟨?_, fun b hb => ?_⟩
        · rcases List.mem_cons.mp hmem with h | h
          · rw [h]
            exact List.mem_cons_self
          · exact List.mem_cons_of_mem _ (List.mem_cons_of_mem _ h)
        · rcases List.mem_cons.mp hb with rfl | hb
          · exact hle _ List.mem_cons_self
          · rcases List.mem_cons.mp hb with rfl | hb
            · exact le_trans (le_of_lt ((hcmp _ _).mp hgt)) (hle _ List.mem_cons_self)
            · exact hle b (List.mem_cons_of_mem _ hb)
      · rw [if_neg hgt]
        obtain ⟨hmem, hle⟩ := ih x
        have hbest : rank best ≤ rank x := not_lt.mp fun h => hgt ((hcmp _ _).mpr h)
        refine ⟨List.mem_cons_of_mem _ hmem, fun b hb => ?_⟩
        rcases List.mem_cons.mp hb with rfl | hb
        · exact le_trans hbest (hle _ List.mem_cons_self)
        · exact hle b hb
  cases l with
  | nil => exact absurd rfl hne
  | cons a l => exact ⟨_, rfl, hfold l a⟩

/-! ## 一つ抜く -/

/-- `Vec::swap_remove`。抜いた所は末尾の要素で埋める。 -/
def swapRemove (l : List α) (i : Nat) : List α :=
  match l.getLast? with
  | none => []
  | some last => (l.set i last).dropLast

theorem perm_swapRemove {l : List α} {i : Nat} {a : α} (h : l[i]? = some a) :
    (a :: swapRemove l i).Perm l := by
  have hset : ∀ (init : List α) (i : Nat) (a last : α), init[i]? = some a →
      (a :: init.set i last).Perm (last :: init) := by
    intro init
    induction init with
    | nil => intro i a last h; simp at h
    | cons x xs ih =>
      intro i a last h
      cases i with
      | zero =>
        have hx : x = a := by simpa using h
        subst hx
        exact List.Perm.swap _ _ _
      | succ i =>
        have hxs : xs[i]? = some a := by simpa using h
        have hperm := (ih i a last hxs).cons x
        exact (List.Perm.swap _ _ _).trans (hperm.trans (List.Perm.swap _ _ _))
  unfold swapRemove
  induction l using List.reverseRecOn with
  | nil => simp at h
  | append_singleton init last _ =>
    have hlast : (init ++ [last]).getLast? = some last := by simp
    rw [hlast]
    dsimp only
    by_cases hi : i < init.length
    · have hmem : init[i]? = some a := by rwa [List.getElem?_append_left hi] at h
      rw [List.set_append_left _ _ hi, List.dropLast_concat]
      exact (hset init i a last hmem).trans (List.perm_append_singleton last init).symm
    · have hlen : i = init.length := by
        have hlt := (List.getElem?_eq_some_iff.mp h).1
        rw [List.length_append, List.length_singleton] at hlt
        exact Nat.le_antisymm (Nat.le_of_lt_succ hlt) (Nat.le_of_not_lt hi)
      subst hlen
      have ha : last = a := by simpa using h
      subst ha
      have hsame : (init ++ [last]).set init.length last = init ++ [last] := by simp
      rw [hsame, List.dropLast_concat]
      exact (List.perm_append_singleton last init).symm

end Cassy.Infra
