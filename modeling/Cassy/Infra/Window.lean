import Mathlib.Data.List.Basic
import Mathlib.Tactic.Common

/-!
# 窓から見える要素

列の要素に通し番号を振り、番号が述語 `vis` を満たすものだけを残す `keep` を置く。窓を通した
走査が列の一部をそのまま渡すことは、走査の各段が `keep` であることから組み立てられる。

番号は `c` から始まる。区間 `[s, e)` の窓なら、`keep` は `drop` と `take` に一致する。
-/

namespace Cassy.Infra

variable {α β : Type*}

/-- 番号 `c` から始まる列の、見えている要素。 -/
def keep (vis : Nat → Bool) : Nat → List α → List α
  | _, [] => []
  | c, a :: l => if vis c then a :: keep vis (c + 1) l else keep vis (c + 1) l

variable {vis : Nat → Bool}

@[simp] theorem keep_nil (c : Nat) : keep vis c ([] : List α) = [] := rfl

theorem keep_append : ∀ (c : Nat) (l l' : List α),
    keep vis c (l ++ l') = keep vis c l ++ keep vis (c + l.length) l'
  | c, [], l' => by simp
  | c, a :: l, l' => by
    have ih := keep_append (c + 1) l l'
    rw [List.length_cons, show c + (l.length + 1) = c + 1 + l.length by omega]
    simp only [List.cons_append, keep, ih]
    split <;> simp

/-- どこも見えなければ、何も残らない。 -/
theorem keep_eq_nil : ∀ {c : Nat} {l : List α},
    (∀ i, i < l.length → vis (c + i) = false) → keep vis c l = []
  | _, [], _ => rfl
  | c, a :: l, h => by
    have h0 : vis c = false := h 0 (by simp)
    simp only [keep, h0, Bool.false_eq_true, if_false]
    refine keep_eq_nil fun i hi => ?_
    rw [show c + 1 + i = c + (i + 1) by omega]
    exact h (i + 1) (by simpa using hi)

/-- どこも見えていれば、全部残る。 -/
theorem keep_eq_self : ∀ {c : Nat} {l : List α}, (∀ i, vis i = true) → keep vis c l = l
  | _, [], _ => rfl
  | c, a :: l, h => by simp [keep, h, keep_eq_self h]

/-- 残る個数は、要素によらない。 -/
theorem length_keep_congr : ∀ {c : Nat} {l : List α} {l' : List β},
    l.length = l'.length → (keep vis c l).length = (keep vis c l').length
  | _, [], [], _ => rfl
  | c, a :: l, b :: l', h => by
    have ih := length_keep_congr (c := c + 1) (Nat.succ.inj h)
    simp only [keep]
    split <;> simp [ih]

/-- 窓 `[s, e)` から見える要素は、`s` 番から `e` 番の手前までの要素である。 -/
theorem keep_window {s e : Nat} : ∀ (c : Nat) (l : List α),
    keep (fun k => decide (s ≤ k ∧ k < e)) c l = (l.drop (s - c)).take (e - max s c)
  | c, [] => by simp
  | c, a :: l => by
    have ih := keep_window (s := s) (e := e) (c + 1) l
    simp only [keep, ih]
    by_cases hs : s ≤ c
    · have hz : s - c = 0 := by omega
      have hz' : s - (c + 1) = 0 := by omega
      have hm : max s c = c := by omega
      have hm' : max s (c + 1) = c + 1 := by omega
      rw [hz, hz', hm, hm']
      by_cases he : c < e
      · rw [show e - c = e - (c + 1) + 1 by omega]
        simp [hs, he]
      · rw [show e - c = 0 by omega, show e - (c + 1) = 0 by omega]
        simp [he]
    · have hd : s - c = s - (c + 1) + 1 := by omega
      have hm : max s c = max s (c + 1) := by omega
      rw [hd, hm]
      simp [hs]

/-! ## 最初に見えた要素に付ける印

要素を、付ける印を受け取って作る。`mark` は列の最初の要素に、`taken` は最初に見えた要素に印を
付ける。窓が列の始まりより後から開くと、二つは違う要素に印を付ける。 -/

variable {γ : Type*} [Zero γ]

/-- 最初の要素に印 `q` を付ける。 -/
def mark (q : γ) : List (γ → α) → List α
  | [] => []
  | f :: l => f q :: l.map (fun g => g 0)

/-- 見えている要素。最初に見えたものに印 `q` を付ける。 -/
def taken (vis : Nat → Bool) : Nat → γ → List (γ → α) → List α
  | _, _, [] => []
  | c, q, f :: l =>
    if vis c then f q :: taken vis (c + 1) 0 l else taken vis (c + 1) q l

/-- まだ付けられていない印。 -/
def untaken (vis : Nat → Bool) : Nat → γ → List (γ → α) → γ
  | _, q, [] => q
  | c, q, _ :: l => if vis c then untaken vis (c + 1) 0 l else untaken vis (c + 1) q l

variable {q : γ}

@[simp] theorem mark_nil : mark q ([] : List (γ → α)) = [] := rfl

@[simp] theorem mark_cons (f : γ → α) (l : List (γ → α)) :
    mark q (f :: l) = f q :: l.map fun g => g 0 := rfl

@[simp] theorem length_mark (l : List (γ → α)) : (mark q l).length = l.length := by
  cases l <;> simp [mark]

theorem mark_zero (l : List (γ → α)) : mark 0 l = l.map fun g => g 0 := by
  cases l <;> rfl

theorem take_mark (n : Nat) (l : List (γ → α)) : (mark q l).take n = mark q (l.take n) := by
  cases l with
  | nil => simp
  | cons f l => cases n <;> simp

theorem taken_zero : ∀ (c : Nat) (l : List (γ → α)), taken vis c 0 l = keep vis c (mark 0 l)
  | _, [] => rfl
  | c, f :: l => by
    have ih := taken_zero (c + 1) l
    rw [mark_zero] at ih
    simp only [taken, mark, keep, ih]

@[simp] theorem untaken_zero : ∀ (c : Nat) (l : List (γ → α)), untaken vis c 0 l = 0
  | _, [] => rfl
  | c, _ :: l => by simp [untaken, untaken_zero (c + 1) l]

/-- 残る個数は、印の付く場所によらない。 -/
theorem length_taken : ∀ (c : Nat) (q : γ) (l : List (γ → α)),
    (taken vis c q l).length = (keep vis c l).length
  | _, _, [] => rfl
  | c, q, f :: l => by
    have ih := length_taken (c + 1) 0 l
    have ih' := length_taken (c + 1) q l
    simp only [taken, keep]
    split <;> simp [ih, ih']

/-- `s` から開き、一度閉じたら開かない窓。 -/
structure IsWindow (vis : Nat → Bool) (s : Nat) : Prop where
  before : ∀ {k}, k < s → vis k = false
  closed : ∀ {k}, s ≤ k → vis k = false → vis (k + 1) = false

variable {s : Nat}

theorem IsWindow.closed_of_le (h : IsWindow vis s) {k : Nat} (hs : s ≤ k) (hk : vis k = false) :
    ∀ i, vis (k + i) = false
  | 0 => hk
  | i + 1 => h.closed (Nat.le_add_right_of_le hs) (h.closed_of_le hs hk i)

/-- 開いた後に閉じていれば、その先は何も見えない。 -/
theorem IsWindow.keep_eq_nil (h : IsWindow vis s) {c : Nat} (hs : s ≤ c) (hc : vis c = false)
    (l : List α) : keep vis c l = [] :=
  Infra.keep_eq_nil fun i _ => h.closed_of_le hs hc i

/-- 窓が開く前の番号だけなら、何も見えない。 -/
theorem IsWindow.keep_eq_nil_of_le (h : IsWindow vis s) {c : Nat} {l : List α}
    (hl : c + l.length ≤ s) : keep vis c l = [] :=
  Infra.keep_eq_nil fun _ _ => h.before (by omega)

/-- 列の始まりで窓が開いていれば、印は列の最初の要素に付く。 -/
theorem IsWindow.taken_eq_mark (h : IsWindow vis s) {c : Nat} (hs : s ≤ c) (q : γ)
    (l : List (γ → α)) : taken vis c q l = keep vis c (mark q l) := by
  cases hc : vis c with
  | false =>
    rw [h.keep_eq_nil hs hc]
    have hlen : (taken vis c q l).length = (keep vis c l).length := length_taken c q l
    rw [h.keep_eq_nil hs hc] at hlen
    exact List.length_eq_zero_iff.1 hlen
  | true =>
    cases l with
    | nil => rfl
    | cons f l =>
      have ht : taken vis (c + 1) 0 l = keep vis (c + 1) (mark 0 l) := taken_zero (c + 1) l
      rw [mark_zero] at ht
      simp only [taken, mark, keep, hc, if_true, ht]

/-- 印の有無は、最初の要素が見えるときにだけ見分けられる。 -/
theorem keep_mark_eq_iff {c : Nat} {l : List (γ → α)} (hinj : ∀ f ∈ l, f q = f 0 → q = 0) :
    keep vis c (mark q l) = keep vis c (mark 0 l) ↔ q = 0 ∨ vis c = false ∨ l = [] := by
  cases l with
  | nil => simp
  | cons f l =>
    have hf : f q = f 0 ↔ q = 0 := ⟨hinj f List.mem_cons_self, fun hq => by rw [hq]⟩
    cases hc : vis c with
    | false => simp [mark, keep, hc]
    | true => simp [mark, keep, hc, hf]

/-- 窓が列の途中で開くと、印は列の最初でない要素に付く。 -/
theorem IsWindow.taken_eq_unmarked_iff (h : IsWindow vis s) :
    ∀ {c : Nat} {l : List (γ → α)}, c ≤ s → (∀ f ∈ l, f q = f 0 → q = 0) →
      (taken vis c q l = keep vis c (mark 0 l)
        ↔ q = 0 ∨ c + l.length ≤ s ∨ vis s = false)
  | c, [], hc, _ => by simp [taken, hc]
  | c, f :: l, hc, hinj => by
    by_cases heq : c = s
    · subst heq
      have hlen : ¬ c + (f :: l).length ≤ c := by simp
      rw [h.taken_eq_mark (Nat.le_refl c), keep_mark_eq_iff hinj]
      simp only [hlen, reduceCtorEq, or_false, false_or]
    · have hv : vis c = false := h.before (by omega)
      have ih := h.taken_eq_unmarked_iff (c := c + 1) (l := l) (by omega)
        fun g hg => hinj g (List.mem_cons_of_mem _ hg)
      rw [mark_zero] at ih
      simp only [taken, mark, keep, hv, Bool.false_eq_true, if_false, ih, List.length_cons]
      rw [show c + 1 + l.length = c + (l.length + 1) by omega]

/-- 窓 `[s, e)` から見える番号だけを作っても、列の始まりで窓が開いているか、付ける印が無ければ、
全部を作って見えるものを残すのと変わらない。 -/
theorem keep_window_mark {e c : Nat} (row : Nat → γ → α) (h : Nat) (hq : q = 0 ∨ s ≤ c) :
    keep (fun k => decide (s ≤ k ∧ k < e)) c (mark q ((List.range h).map row))
      = mark q ((List.range' (s - c) (min h (e - c) - (s - c))).map row) := by
  rw [keep_window]
  rcases hq with rfl | hs
  · simp only [mark_zero, List.map_map, ← List.map_drop, ← List.map_take]
    congr 1
    rw [List.take_drop, List.take_range, List.range_eq_range', List.drop_range']
    congr 1 <;> omega
  · have hz : s - c = 0 := by omega
    have hm : max s c = c := by omega
    rw [hz, hm, List.drop_zero, take_mark, ← List.map_take, List.take_range, Nat.sub_zero,
      Nat.min_comm, List.range_eq_range']

/-- 列の要素が一つも見えなければ、印は残る。 -/
theorem untaken_of_hidden : ∀ {c : Nat} {l : List (γ → α)},
    (∀ i, i < l.length → vis (c + i) = false) → untaken vis c q l = q
  | _, [], _ => rfl
  | c, f :: l, hh => by
    have h0 : vis c = false := hh 0 (by simp)
    simp only [untaken, h0, Bool.false_eq_true, if_false]
    refine untaken_of_hidden fun i hi => ?_
    rw [show c + 1 + i = c + (i + 1) by omega]
    exact hh (i + 1) (by simpa using hi)

/-- 一つでも見えれば、印は残らない。 -/
theorem untaken_of_seen : ∀ {c i : Nat} {l : List (γ → α)}, i < l.length → vis (c + i) = true →
    untaken vis c q l = 0
  | c, 0, f :: l, _, hv => by
    have h0 : vis c = true := hv
    simp [untaken, h0]
  | c, i + 1, f :: l, hi, hv => by
    have hv' : vis (c + 1 + i) = true := by
      rw [show c + 1 + i = c + (i + 1) by omega]
      exact hv
    have ih : untaken vis (c + 1) q l = 0 := untaken_of_seen (by simpa using hi) hv'
    simp only [untaken, untaken_zero, ih, ite_self]

/-- 最初に見えた要素に印を付けても列の最初の要素に付けたのと変わらないのは、窓が列の途中から
開かないときである。 -/
theorem IsWindow.taken_eq_iff (h : IsWindow vis s) {c : Nat} {l : List (γ → α)}
    (hinj : ∀ f ∈ l, f q = f 0 → q = 0) :
    taken vis c q l = keep vis c (mark q l)
      ↔ q = 0 ∨ s ≤ c ∨ c + l.length ≤ s ∨ vis s = false := by
  by_cases hc : s ≤ c
  · simp only [h.taken_eq_mark hc, hc, true_or, or_true]
  · have hv : vis c = false := h.before (by omega)
    have hmark : keep vis c (mark q l) = keep vis c (mark 0 l) :=
      (keep_mark_eq_iff hinj).2 (Or.inr (Or.inl hv))
    rw [hmark, h.taken_eq_unmarked_iff (by omega) hinj]
    simp only [hc, false_or]

/-- 窓が列の終わりまでに開くなら、印が列の後へ残るのは、窓が丁度そこで開くときに限る。閉じた
後に残った印は、もうどこにも見えない。 -/
theorem IsWindow.untaken_cases (h : IsWindow vis s) {c : Nat} {l : List (γ → α)}
    (hs : s ≤ c + l.length) :
    l = [] ∨ untaken vis c q l = 0 ∨ vis (c + l.length) = false
      ∨ (s = c + l.length ∧ untaken vis c q l = q) := by
  by_cases hl : l = []
  · exact Or.inl hl
  have hpos : 0 < l.length := List.length_pos_iff.2 hl
  right
  by_cases hend : s = c + l.length
  · exact Or.inr (Or.inr ⟨hend, untaken_of_hidden fun i hi => h.before (by omega)⟩)
  -- 窓は列の終わりより前で開いている。
  have hk : s ≤ max s c := by omega
  cases hv : vis (max s c) with
  | true =>
    left
    have hpos' : max s c = c + (max s c - c) := by omega
    exact untaken_of_seen (i := max s c - c) (by omega) (hpos' ▸ hv)
  | false =>
    right
    left
    have hend' : c + l.length = max s c + (c + l.length - max s c) := by omega
    rw [hend']
    exact h.closed_of_le hk hv _

end Cassy.Infra
