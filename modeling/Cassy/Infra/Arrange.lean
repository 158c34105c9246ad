import Mathlib.Data.List.Destutter
import Mathlib.Data.List.Nodup
import Mathlib.Data.List.Sort
import Mathlib.Tactic.Common

/-!
# 重複を除いて並べる

列から二度目以降の出現を除き、鍵の順に並べる操作の性質。鍵の等しい要素は元の順に残るので、並べた結果は、
鍵ごとの部分列だけで決まる。
-/

namespace Cassy.Infra

/-! ## 重複 -/

section Dups

variable {α : Type*} [BEq α] [LawfulBEq α]

theorem nodup_eraseDups (l : List α) : l.eraseDups.Nodup := by
  induction hn : l.length using Nat.strong_induction_on generalizing l with
  | _ n ih =>
    cases l with
    | nil => simp
    | cons a l =>
      rw [List.eraseDups_cons, List.nodup_cons]
      have hlen : (l.filter fun b => !b == a).length < n := by
        have := List.length_filter_le (fun b => !b == a) l
        simp only [List.length_cons] at hn
        omega
      refine ⟨?_, ih _ hlen _ rfl⟩
      rw [List.mem_eraseDups, List.mem_filter]
      simp

theorem eraseDups_of_nodup {l : List α} (h : l.Nodup) : l.eraseDups = l := by
  induction l with
  | nil => simp
  | cons a l ih =>
    rw [List.nodup_cons] at h
    have hfilter : (l.filter fun b => !b == a) = l := by
      rw [List.filter_eq_self]
      intro b hb
      have hne : b ≠ a := fun heq => h.1 (heq ▸ hb)
      simpa using hne
    rw [List.eraseDups_cons, hfilter, ih h.2]

theorem mem_removeAll {l m : List α} {a : α} : a ∈ l.removeAll m ↔ a ∈ l ∧ a ∉ m := by
  simp [List.removeAll, List.mem_filter]

theorem removeAll_eq_nil {l m : List α} (h : l ⊆ m) : l.removeAll m = [] := by
  rw [List.eq_nil_iff_forall_not_mem]
  intro a ha
  obtain ⟨hl, hm⟩ := mem_removeAll.mp ha
  exact hm (h hl)

theorem removeAll_eq_self {l m : List α} (h : ∀ a ∈ l, a ∉ m) : l.removeAll m = l := by
  rw [List.removeAll, List.filter_eq_self]
  intro a ha
  simpa using h a ha

theorem append_removeAll (l l' m : List α) :
    (l ++ l').removeAll m = l.removeAll m ++ l'.removeAll m := by
  simp [List.removeAll]

omit [LawfulBEq α] in
theorem filter_removeAll (p : α → Bool) (l m : List α) :
    (l.removeAll m).filter p = (l.filter p).removeAll m := by
  simp only [List.removeAll, List.filter_filter]
  congr 1
  funext a
  exact Bool.and_comm _ _

theorem filter_eraseDups (p : α → Bool) (l : List α) :
    l.eraseDups.filter p = (l.filter p).eraseDups := by
  induction hn : l.length using Nat.strong_induction_on generalizing l with
  | _ n ih =>
    cases l with
    | nil => simp
    | cons a l =>
      have hlen : (l.filter fun b => !b == a).length < n := by
        have := List.length_filter_le (fun b => !b == a) l
        simp only [List.length_cons] at hn
        omega
      have hcomm : (l.filter fun b => !b == a).filter p = (l.filter p).filter fun b => !b == a := by
        rw [List.filter_filter, List.filter_filter]
        congr 1
        funext b
        exact Bool.and_comm _ _
      rw [List.eraseDups_cons, List.filter_cons, ih _ hlen _ rfl, List.filter_cons, hcomm]
      by_cases hp : p a = true
      · rw [if_pos hp, if_pos hp, List.eraseDups_cons]
      · rw [if_neg hp, if_neg hp]
        congr 1
        rw [List.filter_eq_self]
        intro b hb
        have hne : b ≠ a := fun heq => hp (heq ▸ (List.mem_filter.mp hb).2)
        simpa using hne

theorem eraseDups_removeAll (l m : List α) : (l.removeAll m).eraseDups = l.eraseDups.removeAll m :=
  (filter_eraseDups _ l).symm

omit [LawfulBEq α] in
theorem nodup_removeAll {l : List α} (h : l.Nodup) (m : List α) : (l.removeAll m).Nodup :=
  h.filter _

/-- 先頭部分を除いて繋ぎ直しても変わらない。 -/
theorem append_removeAll_extend {l m : List α} (hm : m.Nodup) (h : l <+: m) :
    l ++ m.removeAll l = m := by
  obtain ⟨z, rfl⟩ := h
  have hdisj : ∀ a ∈ z, a ∉ l := by
    intro a hz hl
    exact (List.nodup_append.mp hm).2.2 a hl a hz rfl
  rw [append_removeAll, removeAll_eq_nil (List.Subset.refl l), removeAll_eq_self hdisj,
    List.nil_append]

/-- 出現が既に揃っている列の後ろに何を繋いでも、新しい要素は残らない。 -/
theorem eraseDups_append_of_subset {l m : List α} (hl : l.Nodup) (hm : m ⊆ l) :
    (l ++ m).eraseDups = l := by
  rw [List.eraseDups_append, removeAll_eq_nil hm, eraseDups_of_nodup hl]
  simp

theorem eraseDups_append_eq (l m : List α) :
    (l ++ m).eraseDups = l.eraseDups ++ m.eraseDups.removeAll l := by
  rw [List.eraseDups_append, eraseDups_removeAll]

/-- 合わせた列の前に、その前半をもう一度置いても変わらない。 -/
theorem eraseDups_append_left (l m : List α) :
    (l ++ (l ++ m).eraseDups).eraseDups = (l ++ m).eraseDups := by
  have hnil : l.eraseDups.removeAll l = [] := removeAll_eq_nil fun a ha => List.mem_eraseDups.mp ha
  have hself : (m.eraseDups.removeAll l).removeAll l = m.eraseDups.removeAll l :=
    removeAll_eq_self fun a ha => (mem_removeAll.mp ha).2
  rw [eraseDups_append_eq l (l ++ m).eraseDups, eraseDups_of_nodup (nodup_eraseDups (l ++ m)),
    eraseDups_append_eq, append_removeAll, hnil, hself, List.nil_append]

/-- 合わせた列の前に後半を置くと、後半が先に来る。 -/
theorem eraseDups_append_right (l m : List α) :
    (m ++ (l ++ m).eraseDups).eraseDups = m.eraseDups ++ l.eraseDups.removeAll m := by
  have hnil : (m.eraseDups.removeAll l).removeAll m = [] :=
    removeAll_eq_nil fun a ha => List.mem_eraseDups.mp (mem_removeAll.mp ha).1
  rw [eraseDups_append_eq m, eraseDups_of_nodup (nodup_eraseDups (l ++ m)), eraseDups_append_eq,
    append_removeAll, hnil, List.append_nil]

end Dups

/-! ## 鍵の順 -/

section Keys

variable {α κ : Type*} [LinearOrder κ] (key : α → κ)

/-- 鍵の順に並んだ列は、鍵ごとの部分列で決まる。 -/
theorem eq_of_filter_key_eq {s t : List α} (hs : s.Pairwise fun a b => key a ≤ key b)
    (ht : t.Pairwise fun a b => key a ≤ key b)
    (h : ∀ k, s.filter (key · = k) = t.filter (key · = k)) : s = t := by
  have hmem : ∀ a, a ∈ s ↔ a ∈ t := by
    intro a
    have hk := congrArg (a ∈ ·) (h (key a))
    simpa [List.mem_filter] using hk
  induction s generalizing t with
  | nil =>
    cases t with
    | nil => rfl
    | cons b t => exact absurd ((hmem b).mpr List.mem_cons_self) List.not_mem_nil
  | cons a s ih =>
    cases t with
    | nil => exact absurd ((hmem a).mp List.mem_cons_self) List.not_mem_nil
    | cons b t =>
      rw [List.pairwise_cons] at hs ht
      -- 先頭どうしの鍵は、互いに相手の列に現れるので等しい。
      have hab : key a ≤ key b := by
        rcases List.mem_cons.mp ((hmem b).mpr List.mem_cons_self) with rfl | hb
        · exact le_refl _
        · exact hs.1 b hb
      have hba : key b ≤ key a := by
        rcases List.mem_cons.mp ((hmem a).mp List.mem_cons_self) with rfl | ha
        · exact le_refl _
        · exact ht.1 a ha
      have hkey : key a = key b := le_antisymm hab hba
      have hhead := h (key a)
      simp only [hkey, List.filter_cons, decide_true, if_true, List.cons.injEq] at hhead
      obtain ⟨rfl, -⟩ := hhead
      have htail : ∀ k, s.filter (key · = k) = t.filter (key · = k) := by
        intro k
        have hk := h k
        by_cases hka : key a = k
        · simpa [List.filter_cons, hka] using hk
        · simpa [List.filter_cons, hka] using hk
      have hmem' : ∀ x, x ∈ s ↔ x ∈ t := by
        intro x
        have hk := congrArg (x ∈ ·) (htail (key x))
        simpa [List.mem_filter] using hk
      rw [ih hs.2 ht.2 htail hmem']

/-- 鍵より細かい順での整列は、鍵ごとの部分列を変えない。部分列が既にその順に並んでいればよい。 -/
theorem filter_key_insertionSort {r : α → α → Prop} [DecidableRel r] {l : List α} {k : κ}
    (hk : (l.filter (key · = k)).Pairwise r) :
    (l.insertionSort r).filter (key · = k) = l.filter (key · = k) := by
  have hsub : (l.filter (key · = k)).Sublist (l.insertionSort r) :=
    List.sublist_insertionSort hk List.filter_sublist
  have hfilter : (l.filter (key · = k)).Sublist ((l.insertionSort r).filter (key · = k)) := by
    have hff := hsub.filter (key · = k)
    simpa [List.filter_filter] using hff
  refine (hfilter.eq_of_length ?_).symm
  exact ((List.perm_insertionSort r l).filter _).length_eq.symm

end Keys

/-!
## 隣り合う重複を落とす

隣り合う等しい要素を一つにした列と、鍵の順に並べた列の先頭。

鍵の順は安定なので、鍵の等しい要素の先頭は元の列の先頭である。
-/

section Destutter

variable {α : Type*} [DecidableEq α]

theorem find?_destutter'_ne (p : α → Bool) (a : α) (l : List α) :
    (l.destutter' (· ≠ ·) a).find? p = (a :: l).find? p := by
  induction l generalizing a with
  | nil => rfl
  | cons b l ih =>
    by_cases hab : a = b
    · subst hab
      rw [List.destutter'_cons_neg l (by simp), ih]
      cases hp : p a <;> simp [hp]
    · rw [List.destutter'_cons_pos l hab, List.find?_cons, ih]
      rfl

/-- 条件に合う最初の要素は変わらない。 -/
@[simp] theorem find?_destutter_ne (p : α → Bool) (l : List α) :
    (l.destutter (· ≠ ·)).find? p = l.find? p := by
  cases l with
  | nil => rfl
  | cons a l => exact find?_destutter'_ne p a l

@[simp] theorem mem_destutter_ne {l : List α} {a : α} : a ∈ l.destutter (· ≠ ·) ↔ a ∈ l := by
  have hfind := find?_destutter_ne (· == a) l
  constructor
  · intro h
    exact (List.destutter_sublist (· ≠ ·) l).mem h
  · intro h
    have hsome : (l.find? (· == a)).isSome := by
      rw [List.find?_isSome]
      exact ⟨a, h, by simp⟩
    rw [← hfind, List.find?_isSome] at hsome
    obtain ⟨b, hb, hba⟩ := hsome
    rwa [← LawfulBEq.eq_of_beq hba]

/-- 一つだけ残るのは、空でなく全て等しいときである。 -/
theorem length_destutter_ne_eq_one {l : List α} :
    (l.destutter (· ≠ ·)).length = 1 ↔ l ≠ [] ∧ ∀ a ∈ l, ∀ b ∈ l, a = b := by
  constructor
  · intro h
    obtain ⟨c, hc⟩ := List.length_eq_one_iff.mp h
    have hall : ∀ a ∈ l, a = c := by
      intro a ha
      simpa [hc] using mem_destutter_ne.mpr ha
    refine ⟨?_, fun a ha b hb => (hall a ha).trans (hall b hb).symm⟩
    rintro rfl
    simp at hc
  · rintro ⟨hne, hall⟩
    obtain ⟨a, l, rfl⟩ := List.exists_cons_of_ne_nil hne
    have hrep : ∀ (m : List α), (∀ b ∈ m, b = a) → m.destutter' (· ≠ ·) a = [a] := by
      intro m hm
      induction m with
      | nil => rfl
      | cons b m ih =>
        have hb : b = a := hm b List.mem_cons_self
        rw [hb, List.destutter'_cons_neg m (by simp)]
        exact ih fun c hc => hm c (List.mem_cons_of_mem _ hc)
    rw [List.destutter_cons', hrep l fun b hb =>
      hall b (List.mem_cons_of_mem _ hb) a List.mem_cons_self]
    rfl

end Destutter

/-! ## 鍵の順に並べた先頭 -/

section Least

variable {α κ : Type*} [LinearOrder κ] (key : α → κ)

/-- 条件に合う要素の中で鍵の最も小さいものが先頭に来る。その中では元の順である。 -/
theorem find?_insertionSort_least {p : α → Bool} {l : List α} {m : α}
    (hp : ∀ a b, key a = key b → p a = p b) (hm : m ∈ l) (hpm : p m = true)
    (hleast : ∀ a ∈ l, p a = true → key m ≤ key a) :
    (l.insertionSort fun a b => key a ≤ key b).find? p = l.find? (key · = key m) := by
  have hsorted : (l.insertionSort fun a b => key a ≤ key b).Pairwise fun a b => key a ≤ key b := by
    have : Std.Total fun a b : α => key a ≤ key b := ⟨fun a b => le_total _ _⟩
    have : IsTrans α fun a b : α => key a ≤ key b := ⟨fun a b c => le_trans⟩
    exact List.pairwise_insertionSort _ l
  have hmem : ∀ a, a ∈ l.insertionSort (fun a b => key a ≤ key b) ↔ a ∈ l := fun a =>
    (List.perm_insertionSort _ l).mem_iff
  -- 並べた列では、条件に合う最初の要素の鍵は最も小さい。
  have hsame : ∀ s : List α, s.Pairwise (fun a b => key a ≤ key b) → (∀ a ∈ s, p a = true →
      key m ≤ key a) → (∃ a ∈ s, key a = key m) → s.find? p = s.find? (key · = key m) := by
    intro s hs hmin hex
    induction s with
    | nil => rfl
    | cons b s ih =>
      rw [List.pairwise_cons] at hs
      by_cases hb : key b = key m
      · have hpb : p b = true := (hp b m hb).trans hpm
        simp [hpb, hb]
      · have hpb : p b = false := by
          by_contra hne
          have hle := hmin b List.mem_cons_self (by simpa using hne)
          obtain ⟨a, ha, hkey⟩ := hex
          rcases List.mem_cons.mp ha with rfl | ha
          · exact hb hkey
          · exact hb (le_antisymm (hkey ▸ hs.1 a ha) hle)
        have hex' : ∃ a ∈ s, key a = key m := by
          obtain ⟨a, ha, hkey⟩ := hex
          rcases List.mem_cons.mp ha with rfl | ha
          · exact absurd hkey hb
          · exact ⟨a, ha, hkey⟩
        have hrest := ih hs.2 (fun a ha => hmin a (List.mem_cons_of_mem _ ha)) hex'
        simpa [List.find?_cons, hpb, hb] using hrest
  rw [hsame _ hsorted (fun a ha => hleast a ((hmem a).mp ha)) ⟨m, (hmem m).mpr hm, rfl⟩]
  have hfilter : (l.insertionSort fun a b => key a ≤ key b).filter (key · = key m)
      = l.filter (key · = key m) := by
    refine filter_key_insertionSort key ?_
    refine List.pairwise_of_forall_mem_list ?_
    intro a ha b hb
    have hka := (List.mem_filter.mp ha).2
    have hkb := (List.mem_filter.mp hb).2
    simp only [decide_eq_true_eq] at hka hkb
    exact (hka.trans hkb.symm).le
  rw [← List.head?_filter, ← List.head?_filter, hfilter]

end Least

end Cassy.Infra
