import Mathlib.Data.List.Basic
import Mathlib.Tactic.Common

/-!
# 鍵の順に並んだ列の帯

列を鍵の値ごとの帯に分ける。鍵の順に並んだ列では、頭から取ることも、帯ごとに残りの枠だけ取ることも同じである。

* `band`、`below` — 鍵の等しい要素と、小さい要素
* `take_eq_flatMap_band` — 頭から取る
* `mem_take_iff_countBefore` — 何番目かで、取られるかどうかが決まる
* `takeWithin` — 残りの枠に収まるものを前から取る
-/

namespace Cassy.Infra

variable {α : Type*} {k : α → Nat} {l : List α} {p m : Nat}

/-- 鍵が `p` の要素。 -/
def band (k : α → Nat) (p : Nat) (l : List α) : List α := l.filter fun a => k a = p

/-- 鍵が `p` より小さい要素。 -/
def below (k : α → Nat) (p : Nat) (l : List α) : List α := l.filter fun a => k a < p

/-- 鍵の順に並んでいる。 -/
def KeySorted (k : α → Nat) (l : List α) : Prop := l.Pairwise fun a b => k a ≤ k b

@[simp] theorem mem_band {a : α} : a ∈ band k p l ↔ a ∈ l ∧ k a = p := by
  simp [band]

@[simp] theorem band_nil : band k p [] = [] := rfl

@[simp] theorem below_nil : below k p [] = [] := rfl

theorem band_cons (a : α) :
    band k p (a :: l) = if k a = p then a :: band k p l else band k p l := by
  simp [band, List.filter_cons]

theorem below_cons (a : α) :
    below k p (a :: l) = if k a < p then a :: below k p l else below k p l := by
  simp [below, List.filter_cons]

theorem band_append (l₁ l₂ : List α) : band k p (l₁ ++ l₂) = band k p l₁ ++ band k p l₂ :=
  List.filter_append ..

theorem below_append (l₁ l₂ : List α) : below k p (l₁ ++ l₂) = below k p l₁ ++ below k p l₂ :=
  List.filter_append ..

theorem below_eq_nil (h : ∀ a ∈ l, p ≤ k a) : below k p l = [] := by
  refine List.filter_eq_nil_iff.mpr fun a ha => ?_
  simpa using h a ha

theorem band_eq_nil (h : ∀ a ∈ l, k a ≠ p) : band k p l = [] := by
  refine List.filter_eq_nil_iff.mpr fun a ha => ?_
  simpa using h a ha

theorem band_eq_self (h : ∀ a ∈ l, k a = p) : band k p l = l := by
  refine List.filter_eq_self.mpr fun a ha => ?_
  simpa using h a ha

theorem band_perm {l' : List α} (h : l.Perm l') : (band k p l).Perm (band k p l') := h.filter _

theorem below_perm {l' : List α} (h : l.Perm l') : (below k p l).Perm (below k p l') := h.filter _

/-- 小さい鍵の帯は、大きい鍵から見れば手前にある。 -/
theorem length_below_add_band_le {q : Nat} (hpq : p < q) :
    (below k p l).length + (band k p l).length ≤ (below k q l).length := by
  induction l with
  | nil => exact Nat.le_refl 0
  | cons a l ih =>
    rw [below_cons, below_cons, band_cons]
    rcases Nat.lt_trichotomy (k a) p with h | h | h
    · rw [if_pos h, if_neg (Nat.ne_of_lt h), if_pos (Nat.lt_trans h hpq), List.length_cons,
        List.length_cons]
      omega
    · rw [if_neg (Nat.not_lt_of_le (Nat.le_of_eq h.symm)), if_pos h, if_pos (h ▸ hpq),
        List.length_cons, List.length_cons]
      omega
    · rw [if_neg (Nat.lt_asymm h), if_neg (Nat.ne_of_gt h)]
      split
      · exact Nat.le_succ_of_le ih
      · exact ih

/-! ## 頭から取る -/

/-- 頭の `m` 個のうち、鍵の小さい要素の数。 -/
theorem length_below_take (hl : KeySorted k l) :
    (below k p (l.take m)).length = min m (below k p l).length := by
  induction l generalizing m with
  | nil => simp
  | cons a l ih =>
    obtain ⟨ha, hl⟩ := List.pairwise_cons.mp hl
    cases m with
    | zero => simp
    | succ m =>
      rw [List.take_succ_cons, below_cons, below_cons]
      by_cases hp : k a < p
      · rw [if_pos hp, if_pos hp, List.length_cons, List.length_cons, ih hl]
        omega
      · have hnil : below k p l = [] :=
          below_eq_nil fun b hb => Nat.le_trans (Nat.le_of_not_lt hp) (ha b hb)
        rw [if_neg hp, if_neg hp, ih hl, hnil, List.length_nil, Nat.min_zero, Nat.min_zero]

/-- 頭の `m` 個の帯は、帯の頭から、鍵の小さい要素の残した枠だけ取ったものである。 -/
theorem band_take (hl : KeySorted k l) :
    band k p (l.take m) = (band k p l).take (m - (below k p l).length) := by
  induction l generalizing m with
  | nil => simp
  | cons a l ih =>
    obtain ⟨ha, hl⟩ := List.pairwise_cons.mp hl
    cases m with
    | zero => simp
    | succ m =>
      rw [List.take_succ_cons, band_cons, band_cons, below_cons, ih hl]
      rcases Nat.lt_trichotomy (k a) p with hp | hp | hp
      · rw [if_neg (Nat.ne_of_lt hp), if_neg (Nat.ne_of_lt hp), if_pos hp, List.length_cons]
        congr 1
        omega
      · have hnil : below k p l = [] := below_eq_nil fun b hb => hp ▸ ha b hb
        rw [if_pos hp, if_pos hp, if_neg (by omega), hnil, List.length_nil]
        rfl
      · have hnil : band k p l = [] :=
          band_eq_nil fun b hb => Nat.ne_of_gt (Nat.lt_of_lt_of_le hp (ha b hb))
        rw [if_neg (Nat.ne_of_gt hp), if_neg (Nat.ne_of_gt hp), hnil, List.take_nil, List.take_nil]

/-- 一番小さい鍵の帯は、列の頭にある。 -/
theorem takeWhile_eq_band (hl : KeySorted k l) (hp : ∀ a ∈ l, p ≤ k a) :
    l.takeWhile (fun a => k a = p) = band k p l := by
  induction l with
  | nil => rfl
  | cons a l ih =>
    obtain ⟨ha, hl⟩ := List.pairwise_cons.mp hl
    rw [List.takeWhile_cons, band_cons]
    by_cases hkey : k a = p
    · rw [if_pos (decide_eq_true hkey), if_pos hkey,
        ih hl fun b hb => hp b (List.mem_cons_of_mem _ hb)]
    · have hlt : p < k a := Nat.lt_of_le_of_ne (hp a List.mem_cons_self) (Ne.symm hkey)
      have hnil : band k p l = [] :=
        band_eq_nil fun b hb => Nat.ne_of_gt (Nat.lt_of_lt_of_le hlt (ha b hb))
      rw [if_neg (by simpa using hkey), if_neg hkey, hnil]

/-- 一番小さい鍵の帯と、その後。 -/
theorem band_append_dropWhile (hl : KeySorted k l) (hp : ∀ a ∈ l, p ≤ k a) :
    band k p l ++ l.dropWhile (fun a => k a = p) = l := by
  rw [← takeWhile_eq_band hl hp]
  exact List.takeWhile_append_dropWhile

/-- 一番小さい鍵の帯を除いた後は、その鍵の要素が無い。 -/
theorem lt_of_mem_dropWhile (hl : KeySorted k l) (hp : ∀ a ∈ l, p ≤ k a) {a : α}
    (ha : a ∈ l.dropWhile fun a => k a = p) : p < k a := by
  induction l with
  | nil => exact absurd ha List.not_mem_nil
  | cons b l ih =>
    obtain ⟨hb, hl⟩ := List.pairwise_cons.mp hl
    rw [List.dropWhile_cons] at ha
    split at ha
    · exact ih hl (fun c hc => hp c (List.mem_cons_of_mem _ hc)) ha
    · next hkey =>
      have hlt : p < k b :=
        Nat.lt_of_le_of_ne (hp b List.mem_cons_self) fun he => hkey (by simp [he])
      rcases List.mem_cons.mp ha with rfl | ha
      · exact hlt
      · exact Nat.lt_of_lt_of_le hlt (hb a ha)

/-! ## 帯を並べる -/

section FlatMap

variable {ps : List Nat} {f : Nat → List α}

/-- 帯を並べた列の帯。 -/
theorem band_flatMap (hps : ps.Nodup) (hf : ∀ q, ∀ a ∈ f q, k a = q) (hp : p ∈ ps) :
    band k p (ps.flatMap f) = f p := by
  induction ps with
  | nil => exact absurd hp List.not_mem_nil
  | cons q ps ih =>
    obtain ⟨hq, hps⟩ := List.nodup_cons.mp hps
    rw [List.flatMap_cons, band_append]
    rcases List.mem_cons.mp hp with rfl | hp
    · have hnil : band k p (ps.flatMap f) = [] := by
        refine band_eq_nil fun a ha => ?_
        obtain ⟨r, hr, ha⟩ := List.mem_flatMap.mp ha
        rw [hf r a ha]
        exact fun he => hq (he ▸ hr)
      rw [band_eq_self (hf p), hnil, List.append_nil]
    · have hnil : band k p (f q) = [] :=
        band_eq_nil fun a ha => by
          rw [hf q a ha]
          exact fun he => hq (he ▸ hp)
      rw [hnil, List.nil_append, ih hps hp]

/-- 小さい鍵から並べた列は、鍵の順に並ぶ。 -/
theorem keySorted_flatMap (hps : ps.Pairwise (· < ·)) (hf : ∀ q, ∀ a ∈ f q, k a = q) :
    KeySorted k (ps.flatMap f) := by
  refine List.pairwise_flatMap.mpr ⟨fun q _ => ?_, hps.imp fun hlt a ha b hb => ?_⟩
  · refine List.pairwise_iff_forall_sublist.mpr fun {a b} hab => ?_
    have ha := hf q a (hab.subset (by simp))
    have hb := hf q b (hab.subset (by simp))
    omega
  · have ha := hf _ a ha
    have hb := hf _ b hb
    omega

end FlatMap

/-- 帯ごとに、残りの枠だけ取る。 -/
theorem take_eq_flatMap_band {ps : List Nat} (hl : KeySorted k l) (hps : ps.Pairwise (· < ·))
    (hmem : ∀ a ∈ l, k a ∈ ps) :
    l.take m = ps.flatMap fun p => (band k p l).take (m - (below k p l).length) := by
  induction ps generalizing l m with
  | nil =>
    have hnil : l = [] := List.eq_nil_iff_forall_not_mem.mpr fun a ha =>
      List.not_mem_nil (hmem a ha)
    rw [hnil, List.take_nil, List.flatMap_nil]
  | cons p ps ih =>
    obtain ⟨hp, hps⟩ := List.pairwise_cons.mp hps
    have hle : ∀ a ∈ l, p ≤ k a := fun a ha =>
      (List.mem_cons.mp (hmem a ha)).elim (fun h => Nat.le_of_eq h.symm)
        fun h => Nat.le_of_lt (hp _ h)
    have hsplit := band_append_dropWhile hl hle
    have hgt := fun a => @lt_of_mem_dropWhile _ _ _ _ hl hle a
    generalize l.dropWhile (fun a => k a = p) = rest at hsplit hgt
    have hrest : ∀ a ∈ rest, k a ∈ ps := fun a ha =>
      (List.mem_cons.mp (hmem a (hsplit ▸ List.mem_append_right _ ha))).resolve_left
        (Nat.ne_of_gt (hgt a ha))
    have hsorted : KeySorted k rest := (List.pairwise_append.mp (hsplit ▸ hl)).2.1
    rw [List.flatMap_cons, below_eq_nil hle, List.length_nil, Nat.sub_zero]
    conv_lhs => rw [← hsplit, List.take_append, ih hsorted hps hrest]
    congr 1
    refine List.flatMap_congr fun q hq => ?_
    have hband : band k q l = band k q rest := by
      rw [← hsplit, band_append, band_eq_nil, List.nil_append]
      intro a ha
      rw [(mem_band.mp ha).2]
      exact Nat.ne_of_lt (hp q hq)
    have hbelow : (below k q l).length = (band k p l).length + (below k q rest).length := by
      conv_lhs => rw [← hsplit]
      rw [below, List.filter_append, List.length_append]
      congr 2
      refine List.filter_eq_self.mpr fun a ha => ?_
      rw [(mem_band.mp ha).2]
      exact decide_eq_true (hp q hq)
    rw [hband, hbelow, Nat.sub_sub]

/-- 帯の順に並んだ列では、全体の並びは帯の中の並びで決まる。 -/
theorem pairwise_key_iff {r : α → α → Prop} (hl : KeySorted k l) :
    (l.Pairwise fun a b => k a < k b ∨ k a = k b ∧ r a b)
      ↔ ∀ p, (band k p l).Pairwise r := by
  induction l with
  | nil => simp
  | cons a l ih =>
    obtain ⟨ha, hl⟩ := List.pairwise_cons.mp hl
    rw [List.pairwise_cons, ih hl]
    constructor
    · rintro ⟨hhead, htail⟩ p
      rw [band_cons]
      split
      · next hp =>
        refine List.pairwise_cons.mpr ⟨fun b hb => ?_, htail p⟩
        obtain ⟨hb, hkey⟩ := mem_band.mp hb
        exact (hhead b hb).elim (fun hlt => absurd hlt (by omega)) And.right
      · exact htail p
    · intro h
      refine ⟨fun b hb => ?_, fun p => ?_⟩
      · rcases Nat.lt_or_eq_of_le (ha b hb) with hlt | heq
        · exact .inl hlt
        · have hband := h (k a)
          rw [band_cons, if_pos rfl] at hband
          exact .inr ⟨heq, (List.pairwise_cons.mp hband).1 b (mem_band.mpr ⟨hb, heq.symm⟩)⟩
      · have hband := h p
        rw [band_cons] at hband
        split at hband
        · exact (List.pairwise_cons.mp hband).2
        · exact hband

/-! ## 何番目か -/

/-- 前に立つ要素の数。 -/
def countBefore (r : α → α → Prop) [DecidableRel r] (l : List α) (y : α) : Nat :=
  (l.filter fun z => r z y).length

section CountBefore

variable {r : α → α → Prop} [DecidableRel r]

theorem countBefore_perm {l' : List α} (h : l.Perm l') (y : α) :
    countBefore r l y = countBefore r l' y :=
  (h.filter _).length_eq

/-- 並んだ列では、前に立つ要素の数が枠より少ないものが取られる。 -/
theorem mem_take_iff_countBefore (hasymm : ∀ a b, r a b → ¬r b a) (hl : l.Pairwise r) {y : α}
    (hy : y ∈ l) : y ∈ l.take m ↔ countBefore r l y < m := by
  induction l generalizing m with
  | nil => exact absurd hy List.not_mem_nil
  | cons a l ih =>
    obtain ⟨ha, hl⟩ := List.pairwise_cons.mp hl
    cases m with
    | zero => simp
    | succ m =>
      rw [List.take_succ_cons]
      unfold countBefore
      rw [List.filter_cons]
      rcases List.mem_cons.mp hy with rfl | hy
      · have hnil : l.filter (fun z => decide (r z y)) = [] :=
          List.filter_eq_nil_iff.mpr fun z hz => by simpa using hasymm _ _ (ha z hz)
        have hself : ¬r y y := fun h => hasymm _ _ h h
        simp [hnil, hself]
      · have hbefore : r a y := ha y hy
        have hne : y ≠ a := fun he => hasymm _ _ (he ▸ hbefore) (he ▸ hbefore)
        rw [List.mem_cons, or_iff_right hne, ih hl hy, if_pos (decide_eq_true hbefore),
          List.length_cons, Nat.succ_lt_succ_iff]
        rfl

end CountBefore

/-! ## 枠に収まるもの -/

/-- 前から見て、残りの枠に収まるものを取る。大きさの無いものはいつも取る。 -/
def takeWithin (size : α → Nat) : Nat → List α → List α
  | _, [] => []
  | left, a :: l =>
    if size a ≤ left then a :: takeWithin size (left - size a) l else takeWithin size left l

theorem takeWithin_sublist (size : α → Nat) : ∀ (left : Nat) (l : List α),
    (takeWithin size left l).Sublist l
  | _, [] => .slnil
  | left, a :: l => by
    rw [takeWithin]
    split
    · exact (takeWithin_sublist size _ l).cons_cons a
    · exact (takeWithin_sublist size _ l).cons a

end Cassy.Infra
