import Cassy.Properties.DiffRows

/-!
# 走査の一段

`iterate_over_diff` の一行ずつの loop と、変わった行の塊と、hunk の中身が、それぞれ何を渡すかを示す。

`unified` と `split` では、勘定は進んだ行数 `k` だけで決まる（`stateAt`）。どの段も、その塊の行を全部
並べたもののうち窓から見える行（`Infra.keep`）を渡し、勘定を塊の行数だけ進める。
-/

namespace Cassy.Diffs

open Infra

/-- 畳まれた行数を付けられる行がある。行の無い変更はそれを消してしまう。 -/
def showsPending : List HunkContent → Bool
  | [] => false
  | .context ctx :: rest => 0 < ctx.lines || showsPending rest
  | .change change :: _ => 0 < change.deletions + change.additions

/-! ## 勘定 -/

variable {props : IterateOverDiffProps}

/-- `k` 行進んだときの勘定。 -/
def stateAt (props : IterateOverDiffProps) (k : Nat) : IterationState :=
  (IterationState.new props).incrementCounts k k

/-- `k` 番の行が見えている。 -/
def visible (props : IterateOverDiffProps) (k : Nat) : Bool :=
  let s := IterationState.new props
  !s.isWindowed || (s.viewportStart ≤ k && k < s.viewportEnd)

section state

variable (hs : props.diffStyle ≠ .both)
include hs

theorem isInWindow_stateAt (k : Nat) : (stateAt props k).isInWindow 0 0 = visible props k := by
  cases hst : props.diffStyle <;>
    simp_all [stateAt, visible, IterationState.isInWindow, IterationState.incrementCounts,
      IterationState.new, IterationState.choose, IterationState.isInUnifiedWindow,
      IterationState.isInSplitWindow]

theorem shouldSkip_stateAt (k u w : Nat) : (stateAt props k).shouldSkip u w
    = ((IterationState.new props).isWindowed && k + props.rows u w < props.startingLine) := by
  cases hst : props.diffStyle <;>
    simp_all [stateAt, IterationState.shouldSkip, IterationState.incrementCounts,
      IterationState.new, IterationState.choose, IterateOverDiffProps.rows]

theorem shouldBreak_stateAt (k : Nat) : (stateAt props k).shouldBreak
    = ((IterationState.new props).isWindowed && (IterationState.new props).viewportEnd ≤ k) := by
  cases hst : props.diffStyle <;>
    simp_all [stateAt, IterationState.shouldBreak, IterationState.incrementCounts,
      IterationState.new, IterationState.choose]

theorem incrementCounts_stateAt (k u w : Nat) :
    (stateAt props k).incrementCounts u w = stateAt props (k + props.rows u w) := by
  cases hst : props.diffStyle <;>
    simp_all [stateAt, IterationState.incrementCounts, IterationState.new,
      IterateOverDiffProps.rows]

end state

theorem isWindowed_iff : (IterationState.new props).isWindowed = true
    ↔ 0 < props.startingLine ∨ props.totalLines < usizeMax := by
  simp [IterationState.new]

theorem visible_eq_false_iff {k : Nat} : visible props k = false
    ↔ (IterationState.new props).isWindowed = true
      ∧ (k < props.startingLine ∨ (IterationState.new props).viewportEnd ≤ k) := by
  cases hw : (IterationState.new props).isWindowed with
  | false => simp [visible, hw]
  | true =>
    have hst : (IterationState.new props).viewportStart = props.startingLine := rfl
    simp only [visible, hw, hst, Bool.not_true, Bool.false_or, Bool.and_eq_false_iff,
      decide_eq_false_iff_not, true_and]
    omega

theorem isWindow_visible : IsWindow (visible props) props.startingLine where
  before := fun hk => visible_eq_false_iff.2 ⟨isWindowed_iff.2 (Or.inl (by omega)), Or.inl hk⟩
  closed := fun hs hk => by
    obtain ⟨hw, hk⟩ := visible_eq_false_iff.1 hk
    exact visible_eq_false_iff.2 ⟨hw, Or.inr (by omega)⟩

/-! ## 一行ずつ進む loop -/

section loops

variable (hs : props.diffStyle ≠ .both) {c pending : Nat} {events : List DiffLineEvent}

/-- 勘定が丁度 `p` 行まで進んだか、そこまでの途中で見えている範囲を過ぎた。 -/
def Reached (props : IterateOverDiffProps) (c p : Nat) : Prop :=
  c = p ∨ (stateAt props c).shouldBreak = true ∧ c ≤ p

include hs

theorem count_one_stateAt :
    (Walk.mk (stateAt props c) pending events).count 1 1
      = ⟨stateAt props (c + 1), pending, events⟩ := by
  have h : props.rows 1 1 = 1 := by simp [IterateOverDiffProps.rows]
  simp only [Walk.count, incrementCounts_stateAt hs, h]

theorem plainLoop_eq (row : Nat → DiffLineEvent) : ∀ (idxs : List Nat) (c : Nat)
    (events : List DiffLineEvent), plainLoop row idxs ⟨stateAt props c, pending, events⟩
      = ⟨stateAt props (c + idxs.length), pending,
          events ++ keep (visible props) c (idxs.map row)⟩
  | [], c, events => by simp [plainLoop]
  | i :: idxs, c, events => by
    have ih := plainLoop_eq row idxs (c + 1)
    rw [List.length_cons, show c + (idxs.length + 1) = c + 1 + idxs.length by omega]
    cases hv : visible props c <;>
      simp [plainLoop, isInWindow_stateAt hs, hv, Walk.emit, count_one_stateAt hs, ih, keep]

theorem takingLoop_eq (row : Nat → Nat → DiffLineEvent) : ∀ (idxs : List Nat) (c pending : Nat)
    (events : List DiffLineEvent), takingLoop row idxs ⟨stateAt props c, pending, events⟩
      = ⟨stateAt props (c + idxs.length), untaken (visible props) c pending (idxs.map row),
          events ++ taken (visible props) c pending (idxs.map row)⟩
  | [], c, pending, events => by simp [takingLoop, taken, untaken]
  | i :: idxs, c, pending, events => by
    have ih := takingLoop_eq row idxs (c + 1)
    rw [List.length_cons, show c + (idxs.length + 1) = c + 1 + idxs.length by omega]
    cases hv : visible props c <;>
      simp [takingLoop, isInWindow_stateAt hs, hv, Walk.emitTaking, Walk.emit,
        count_one_stateAt hs, ih, taken, untaken]

theorem visible_of_break (hb : (stateAt props c).shouldBreak = true) {k : Nat} (hk : c ≤ k) :
    visible props k = false := by
  rw [shouldBreak_stateAt hs, Bool.and_eq_true, decide_eq_true_eq] at hb
  exact visible_eq_false_iff.2 ⟨hb.1, Or.inr (by omega)⟩

theorem keep_of_break (hb : (stateAt props c).shouldBreak = true) {k : Nat} (hk : c ≤ k)
    {α : Type} (l : List α) : keep (visible props) k l = [] :=
  keep_eq_nil fun _ _ => visible_of_break hs hb (by omega)

theorem trailingLoop_eq (pending : Nat) (row : Nat → DiffLineEvent) : ∀ (idxs : List Nat) (c : Nat)
    (events : List DiffLineEvent), ∃ c', Reached props c' (c + idxs.length)
      ∧ trailingLoop row idxs ⟨stateAt props c, pending, events⟩
        = ⟨stateAt props c', pending, events ++ keep (visible props) c (idxs.map row)⟩
  | [], c, events => ⟨c, Or.inl rfl, by simp [trailingLoop]⟩
  | i :: idxs, c, events => by
    cases hb : (stateAt props c).shouldBreak with
    | true =>
      refine ⟨c, Or.inr ⟨hb, by omega⟩, ?_⟩
      rw [keep_of_break hs hb (Nat.le_refl c)]
      simp [trailingLoop, hb]
    | false =>
      obtain ⟨c', hc', ih⟩ := trailingLoop_eq pending row idxs (c + 1)
        (if visible props c then events ++ [row i] else events)
      rw [show c + 1 + idxs.length = c + (i :: idxs).length by simp; omega] at hc'
      refine ⟨c', hc', ?_⟩
      cases hv : visible props c <;>
        simp_all [trailingLoop, isInWindow_stateAt hs, Walk.emit, count_one_stateAt hs, keep]

end loops

/-! ## 変わった行の塊 -/

@[simp] theorem sortAndMerge_nil : sortAndMerge [] = [] := rfl

@[simp] theorem sortAndMerge_singleton (r : Nat × Nat) : sortAndMerge [r] = [r] := rfl

theorem sortAndMerge_pair {r r' : Nat × Nat} (h : r.1 ≤ r'.1) (hm : r'.1 ≤ r.2) :
    sortAndMerge [r, r'] = [(r.1, max r.2 r'.2)] := by
  simp [sortAndMerge, List.insertionSort, h, mergeRanges, hm]

section ranges

variable {st : IterationState} {c d a : Nat}

theorem getVisibleRange_eq : getVisibleRange st c d
    = if st.viewportStart - c < min d (st.viewportEnd - c)
      then some (st.viewportStart - c, min d (st.viewportEnd - c)) else none := by
  unfold getVisibleRange
  by_cases h : c + d ≤ st.viewportStart ∨ st.viewportEnd ≤ c
  · rw [if_pos h, if_neg (by omega)]
  · rw [if_neg h]

theorem rangeIndices_of_le {m n : Nat} (h : n ≤ m) : rangeIndices (m, n) = [] := by
  simp [rangeIndices, Nat.sub_eq_zero_of_le h]

/-- 続いた二つの区間から見える番号は、繋いだ区間から見える番号である。 -/
theorem visible_unified :
    (sortAndMerge (((getVisibleRange st c d).toList
        ++ ((getVisibleRange st (c + d) a).map fun r => (r.1 + d, r.2 + d)).toList).filter
          fun r : Nat × Nat => r.1 < r.2)).flatMap rangeIndices
      = rangeIndices (st.viewportStart - c, min (d + a) (st.viewportEnd - c)) := by
  rw [getVisibleRange_eq, getVisibleRange_eq]
  by_cases h₁ : st.viewportStart - c < min d (st.viewportEnd - c)
  · by_cases h₂ : st.viewportStart - (c + d) < min a (st.viewportEnd - (c + d))
    · -- 両方が見えていれば、境目で接している。
      rw [if_pos h₁, if_pos h₂]
      have hadd : st.viewportStart - (c + d) + d < min a (st.viewportEnd - (c + d)) + d := by omega
      simp only [Option.map_some, Option.toList_some, List.singleton_append, List.filter_cons,
        decide_eq_true h₁, decide_eq_true hadd, if_true, List.filter_nil]
      rw [sortAndMerge_pair (by simp only; omega) (by simp only; omega)]
      simp only [List.flatMap_cons, List.flatMap_nil, List.append_nil]
      congr 2
      omega
    · rw [if_pos h₁, if_neg h₂]
      have hend : min d (st.viewportEnd - c) = min (d + a) (st.viewportEnd - c) := by omega
      rw [← hend]
      simp [h₁]
  · rw [if_neg h₁]
    by_cases h₂ : st.viewportStart - (c + d) < min a (st.viewportEnd - (c + d))
    · rw [if_pos h₂]
      have hstart : st.viewportStart - (c + d) + d = st.viewportStart - c := by omega
      have hend : min a (st.viewportEnd - (c + d)) + d = min (d + a) (st.viewportEnd - c) := by
        omega
      have hlt : st.viewportStart - c < min (d + a) (st.viewportEnd - c) := by omega
      simp only [Option.map_some, Option.toList_none, Option.toList_some, List.nil_append, hstart,
        hend, List.filter_cons, decide_eq_true hlt, if_true, List.filter_nil,
        sortAndMerge_singleton, List.flatMap_cons, List.flatMap_nil, List.append_nil]
    · rw [if_neg h₂, rangeIndices_of_le (by omega)]
      simp

/-- 同じところから始まる二つの区間から見える番号は、長い方から見える番号である。 -/
theorem visible_split :
    (sortAndMerge (((getVisibleRange st c d).toList ++ (getVisibleRange st c a).toList).filter
        fun r : Nat × Nat => r.1 < r.2)).flatMap rangeIndices
      = rangeIndices (st.viewportStart - c, min (max d a) (st.viewportEnd - c)) := by
  rw [getVisibleRange_eq, getVisibleRange_eq]
  by_cases h₁ : st.viewportStart - c < min d (st.viewportEnd - c)
  · by_cases h₂ : st.viewportStart - c < min a (st.viewportEnd - c)
    · rw [if_pos h₁, if_pos h₂]
      simp only [Option.toList_some, List.singleton_append, List.filter_cons,
        decide_eq_true h₁, decide_eq_true h₂, if_true, List.filter_nil]
      rw [sortAndMerge_pair (by simp only; omega) (by simp only; omega)]
      simp only [List.flatMap_cons, List.flatMap_nil, List.append_nil]
      congr 2
      omega
    · rw [if_pos h₁, if_neg h₂]
      have hend : min d (st.viewportEnd - c) = min (max d a) (st.viewportEnd - c) := by omega
      rw [← hend]
      simp [h₁]
  · rw [if_neg h₁]
    by_cases h₂ : st.viewportStart - c < min a (st.viewportEnd - c)
    · rw [if_pos h₂]
      have hend : min a (st.viewportEnd - c) = min (max d a) (st.viewportEnd - c) := by omega
      rw [← hend]
      simp [h₂]
    · rw [if_neg h₂, rangeIndices_of_le (by omega)]
      simp

variable {content : ChangeContent}

theorem changeRanges_unified (hw : st.isWindowed = true) :
    (getChangeIterationRanges st content .unified).flatMap rangeIndices
      = rangeIndices (st.viewportStart - st.unifiedCount,
          min (content.deletions + content.additions) (st.viewportEnd - st.unifiedCount)) := by
  rw [← visible_unified]
  simp [getChangeIterationRanges, hw]

theorem changeRanges_split (hw : st.isWindowed = true) :
    (getChangeIterationRanges st content .split).flatMap rangeIndices
      = rangeIndices (st.viewportStart - st.splitCount,
          min (max content.deletions content.additions) (st.viewportEnd - st.splitCount)) := by
  rw [← visible_split]
  simp [getChangeIterationRanges, hw]

end ranges

/-- 渡す番号。 -/
theorem changeIndices_eq (hs : props.diffStyle ≠ .both) (c : Nat) (content : ChangeContent) :
    (getChangeIterationRanges (stateAt props c) content props.diffStyle).flatMap rangeIndices
      = if (IterationState.new props).isWindowed
        then rangeIndices (props.startingLine - c, min (props.height (.change content))
          ((IterationState.new props).viewportEnd - c))
        else List.range (props.height (.change content)) := by
  cases hst : props.diffStyle with
  | both => exact absurd hst hs
  | unified =>
    have hc : stateAt props c = { IterationState.new props with unifiedCount := c } := by
      simp [stateAt, IterationState.incrementCounts, IterationState.new, hst]
    have hh : props.height (.change content) = content.deletions + content.additions := by
      simp [IterateOverDiffProps.height, IterateOverDiffProps.rows, hst, HunkContent.unifiedHeight]
    rw [hc, hh]
    split
    · next hw => exact changeRanges_unified hw
    · next hw => simp [getChangeIterationRanges, hw, rangeIndices, List.range_eq_range']
  | split =>
    have hc : stateAt props c = { IterationState.new props with splitCount := c } := by
      simp [stateAt, IterationState.incrementCounts, IterationState.new, hst]
    have hh : props.height (.change content) = max content.deletions content.additions := by
      simp [IterateOverDiffProps.height, IterateOverDiffProps.rows, hst, HunkContent.splitHeight]
    rw [hc, hh]
    split
    · next hw => exact changeRanges_split hw
    · next hw => simp [getChangeIterationRanges, hw, rangeIndices, List.range_eq_range']

theorem visible_of_isWindowed (hw : (IterationState.new props).isWindowed = true) :
    visible props
      = fun k => decide (props.startingLine ≤ k ∧ k < (IterationState.new props).viewportEnd) := by
  funext k
  have hst : (IterationState.new props).viewportStart = props.startingLine := rfl
  simp [visible, hw, hst]

/-- 見えている番号だけを渡しても、全部の行のうち見えているものを渡すのと変わらない。 -/
theorem changeRows_eq (hs : props.diffStyle ≠ .both) {c q : Nat} {content : ChangeContent}
    (row : Nat → Nat → DiffLineEvent) (hq : q = 0 ∨ props.startingLine ≤ c) :
    mark q (((getChangeIterationRanges (stateAt props c) content props.diffStyle).flatMap
        rangeIndices).map row)
      = keep (visible props) c
          (mark q ((List.range (props.height (.change content))).map row)) := by
  rw [changeIndices_eq hs]
  split
  · next hw => rw [visible_of_isWindowed hw, keep_window_mark row _ hq, rangeIndices]
  · next hw =>
    have hall : ∀ k, visible props k = true := fun k => by simp [visible, hw]
    rw [keep_eq_self hall]

/-! ## hunk の中身 -/

namespace HunkView

variable {v : HunkView}

/-- 飛ばされる塊の行は、どれも窓が開く前にある。 -/
theorem keep_of_skip (hs : props.diffStyle ≠ .both) {p u w : Nat}
    (hsk : (stateAt props p).shouldSkip u w = true) {α : Type} {l : List α}
    (hl : l.length = props.rows u w) :
    p + props.rows u w < props.startingLine ∧ keep (visible props) p l = [] := by
  rw [shouldSkip_stateAt hs, Bool.and_eq_true, decide_eq_true_eq] at hsk
  exact ⟨hsk.2, isWindow_visible.keep_eq_nil_of_le (by omega)⟩

/-- 付けるべき行数は、窓が閉じた後を除けば、最初の行とともに無くなる。 -/
theorem untaken_eq (row : Nat → Nat → DiffLineEvent) {n p q : Nat}
    (hq : q = 0 ∨ props.startingLine ≤ p) :
    untaken (visible props) p q ((List.range n).map row) = (if n = 0 then q else 0)
      ∨ props.startingLine ≤ p ∧ visible props p = false := by
  rcases hq with rfl | hp
  · exact Or.inl (by simp)
  cases hv : visible props p with
  | false => exact Or.inr ⟨hp, rfl⟩
  | true =>
    left
    cases n with
    | zero => rfl
    | succ n => exact untaken_of_seen (i := 0) (by simp) (by simpa using hv)

/-- 塊を一つ渡す。窓が開く前に飛ばされる塊は、付けるべき行数を消すが、そのときは元から無い。 -/
theorem contentWalk_eq (hs : props.diffStyle ≠ .both) (hv : v.style = props.diffStyle)
    (content : HunkContent) (isLast : Bool) (c : Cursor) {p q : Nat}
    (events : List DiffLineEvent) (hq : q = 0 ∨ props.startingLine ≤ p) :
    ∃ q', v.contentWalk content isLast c ⟨stateAt props p, q, events⟩
        = ⟨stateAt props (p + props.height content), q', events ++ keep (visible props) p
            (mark q ((List.range (props.height content)).map (v.contentRow content isLast c)))⟩
      ∧ (q' = pendingAfter content q
        ∨ props.startingLine ≤ p ∧ visible props p = false) := by
  cases content with
  | context ctx =>
    rw [height_context]
    cases hsk : (stateAt props p).shouldSkip ctx.lines ctx.lines with
    | true =>
      have hr : props.rows ctx.lines ctx.lines = ctx.lines := by simp [IterateOverDiffProps.rows]
      obtain ⟨hlt, hkeep⟩ := keep_of_skip hs hsk (l := mark q ((List.range ctx.lines).map
        (v.contentRow (.context ctx) isLast c))) (by simp [hr])
      have hz : q = 0 := by omega
      refine ⟨0, ?_, Or.inl (by simp [pendingAfter, hz])⟩
      simp [contentWalk, hsk, Walk.count, incrementCounts_stateAt hs, hr, hkeep]
    | false =>
      refine ⟨_, ?_, untaken_eq (v.contextRow ctx isLast c) hq⟩
      have htk : taken (visible props) p q ((List.range ctx.lines).map (v.contextRow ctx isLast c))
          = keep (visible props) p
            (mark q ((List.range ctx.lines).map (v.contextRow ctx isLast c))) := by
        rcases hq with rfl | hp
        · exact taken_zero p _
        · exact isWindow_visible.taken_eq_mark hp q _
      simp [contentWalk, hsk, takingLoop_eq hs, htk, contentRow]
  | change change =>
    refine ⟨0, ?_, Or.inl rfl⟩
    rw [height_change]
    cases hsk : (stateAt props p).shouldSkip (change.deletions + change.additions)
        (max change.deletions change.additions) with
    | true =>
      obtain ⟨_, hkeep⟩ := keep_of_skip hs hsk (l := mark q ((List.range (props.rows
        (change.deletions + change.additions) (max change.deletions change.additions))).map
        (v.contentRow (.change change) isLast c))) (by simp)
      simp [contentWalk, hsk, Walk.count, incrementCounts_stateAt hs, hkeep]
    | false =>
      obtain ⟨hst, hev⟩ := changeLoop_eq (v.changeRow change isLast c)
        ((getChangeIterationRanges (stateAt props p) change v.style).flatMap rangeIndices)
        ⟨stateAt props p, q, events⟩
      rw [hv, changeRows_eq hs _ hq] at hev
      rw [hv] at hst
      simp only [contentWalk, hsk, Bool.not_false, if_true, hv]
      change Walk.mk ((changeLoop _ (List.flatMap rangeIndices _) _).state.incrementCounts _ _) 0
        (changeLoop _ (List.flatMap rangeIndices _) _).events = _
      rw [hst, hev, incrementCounts_stateAt hs]
      rfl

theorem keep_congr_of_closed {p p' : Nat} (hp : props.startingLine ≤ p)
    (hv : visible props p = false) (hle : p ≤ p') {α : Type} (l l' : List α) :
    keep (visible props) p' l = keep (visible props) p' l' := by
  have hv' : visible props p' = false := by
    rw [show p' = p + (p' - p) by omega]
    exact isWindow_visible.closed_of_le hp hv _
  rw [isWindow_visible.keep_eq_nil (by omega) hv', isWindow_visible.keep_eq_nil (by omega) hv']

/-- hunk の中身を渡す。 -/
theorem contentLoop_eq (hs : props.diffStyle ≠ .both) (hv : v.style = props.diffStyle) :
    ∀ (contents : List HunkContent) (c : Cursor) {p q : Nat} (events : List DiffLineEvent),
      q = 0 ∨ props.startingLine ≤ p →
      ∃ o p' q', v.contentLoop contents c ⟨stateAt props p, q, events⟩
          = (o, ⟨stateAt props p', q',
              events ++ keep (visible props) p (contentRows props v contents c q)⟩)
        ∧ Reached props p' (p + (contents.map props.height).sum)
        ∧ (o = some (contents.foldl Cursor.advance c) ∧ p' = p + (contents.map props.height).sum
          ∨ o = none ∧ (stateAt props p').shouldBreak = true)
  | [], c, p, q, events, _ =>
    ⟨some c, p, q, by simp [contentLoop, contentRows], Or.inl rfl, Or.inl ⟨rfl, rfl⟩⟩
  | content :: rest, c, p, q, events, hq => by
    cases hb : (stateAt props p).shouldBreak with
    | true =>
      refine ⟨none, p, q, ?_, Or.inr ⟨hb, by omega⟩, Or.inr ⟨rfl, hb⟩⟩
      simp [contentLoop, hb, keep_of_break hs hb (Nat.le_refl p)]
    | false =>
      obtain ⟨q', hwalk, hq'⟩ :=
        contentWalk_eq (v := v) hs hv content rest.isEmpty c events hq
      -- 窓が閉じた後に残った行数は、もう見えない行に付くだけである。
      have hkeep : keep (visible props) (p + props.height content)
          (contentRows props v rest (c.advance content) q')
          = keep (visible props) (p + props.height content)
          (contentRows props v rest (c.advance content) (pendingAfter content q)) := by
        rcases hq' with rfl | ⟨hp, hvis⟩
        · rfl
        · exact keep_congr_of_closed hp hvis (by omega) _ _
      have hnext : q' = 0 ∨ props.startingLine ≤ p + props.height content := by
        rcases hq' with rfl | ⟨hp, _⟩
        · rcases hq with rfl | hp
          · exact Or.inl (pendingAfter_zero content)
          · exact Or.inr (by omega)
        · exact Or.inr (by omega)
      obtain ⟨o, p', q'', hloop, hr, ho⟩ := contentLoop_eq hs hv rest (c.advance content)
        (events ++ keep (visible props) p (mark q ((List.range (props.height content)).map
          (v.contentRow content rest.isEmpty c)))) hnext
      rw [hkeep] at hloop
      refine ⟨o, p', q'', ?_, ?_, ?_⟩
      · simp only [contentLoop, hb, Bool.false_eq_true, if_false, hwalk, hloop, contentRows,
          keep_append, length_mark, List.length_map, List.length_range, List.append_assoc]
      · simpa [Nat.add_assoc] using hr
      · simpa [Nat.add_assoc] using ho

/-- 行は、付けた行数を持っている。 -/
theorem contentRow_inj {content : HunkContent} {isLast : Bool} {c : Cursor} {i q : Nat}
    (h : v.contentRow content isLast c i q = v.contentRow content isLast c i 0) : q = 0 := by
  cases content with
  | context ctx => simpa [contentRow, contextRow] using h
  | change change => simpa [contentRow, changeRow] using h

theorem mark_contentRows_inj {content : HunkContent} {isLast : Bool} {c : Cursor} {n q : Nat} :
    ∀ f ∈ (List.range n).map (v.contentRow content isLast c), f q = f 0 → q = 0 := by
  intro f hf h
  obtain ⟨i, _, rfl⟩ := List.mem_map.1 hf
  exact contentRow_inj h

/-- 付けるべき行数の違いは、最初の行が見えて、そこに付くときにだけ見える。 -/
theorem keep_contentRows_eq_iff (hs : props.diffStyle ≠ .both) {p q : Nat} :
    ∀ (contents : List HunkContent) (c : Cursor),
      keep (visible props) p (contentRows props v contents c q)
          = keep (visible props) p (contentRows props v contents c 0)
        ↔ q = 0 ∨ visible props p = false ∨ showsPending contents = false
  | [], c => by simp [contentRows, showsPending]
  | .context ctx :: rest, c => by
    by_cases h0 : ctx.lines = 0
    · -- 行の無い塊は、付けるべき行数をそのまま次へ渡す。
      have ih := keep_contentRows_eq_iff hs (p := p) (q := q) rest (c.advance (.context ctx))
      simpa [contentRows, height_context, h0, pendingAfter, showsPending] using ih
    · have hne : (List.range (props.height (.context ctx))).map
          (v.contentRow (.context ctx) rest.isEmpty c) ≠ [] := by
        simp [height_context, h0]
      simp only [contentRows, pendingAfter, if_neg h0]
      rw [keep_append, keep_append, length_mark, length_mark, List.append_cancel_right_eq,
        keep_mark_eq_iff mark_contentRows_inj]
      simp [hne, showsPending, Nat.pos_of_ne_zero h0]
  | .change change :: rest, c => by
    have hlen : (List.range (props.height (.change change))).map
        (v.contentRow (.change change) rest.isEmpty c) = []
          ↔ change.deletions + change.additions = 0 := by
      rw [List.map_eq_nil_iff, List.range_eq_nil, height_change]
      unfold IterateOverDiffProps.rows
      split <;> omega
    simp only [contentRows, pendingAfter]
    rw [keep_append, keep_append, length_mark, length_mark, List.append_cancel_right_eq,
      keep_mark_eq_iff mark_contentRows_inj, hlen]
    simp [showsPending]

end HunkView

end Cassy.Diffs
