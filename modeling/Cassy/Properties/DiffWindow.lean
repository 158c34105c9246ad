import Cassy.Properties.DiffWalk

/-!
# 窓を通した走査

`iterate_over_diff` が窓 `[start, start + count)` について渡す行を、窓の無い走査が渡す行の同じ位置の
部分と比べる。

窓の無い走査が渡す行を hunk ごとに `hunkRows` として作っておき、hunk の走査が、窓から見える行を渡す
ことを示す。残った畳まれた行数は、窓の有無によらず、開かれた後ろの部分の最初の行か hunk の最初の行に
付くはずである。窓が後ろの部分の途中から開くと、最初に見えた行に付いてしまい、窓の無い走査と
食い違う。
-/

namespace Cassy.Diffs

open Infra

namespace IterateOverDiffProps

variable (props : IterateOverDiffProps)

/-- 最後の hunk の後ろの、開かれた行数。 -/
def trailingHeight (isFinalHunk : Bool) (hunk : Hunk) : Nat :=
  match props.trailing isFinalHunk hunk with
  | none => 0
  | some tr => tr.fromStart + tr.fromEnd

/-- hunk が占める行数。 -/
def hunkHeight (hunkIndex : Nat) (hunk : Hunk) (isFinalHunk : Bool) : Nat :=
  (props.leading hunkIndex hunk).fromStart + (props.leading hunkIndex hunk).fromEnd
    + (hunk.hunkContent.map props.height).sum + props.trailingHeight isFinalHunk hunk

end IterateOverDiffProps

/-- `hunk` の前の行が `p` 行あるとき、窓が、後ろから開かれた部分の途中から開かない。 -/
def HunkClear (props : IterateOverDiffProps) (p hunkIndex : Nat) (hunk : Hunk) : Prop :=
  let leading := props.leading hunkIndex hunk
  let s := props.startingLine
  leading.fromEnd = 0 ∨ leading.collapsedLines = 0 ∨ props.totalLines = 0
    ∨ s ≤ p + leading.fromStart ∨ p + leading.fromStart + leading.fromEnd < s
    ∨ s = p + leading.fromStart + leading.fromEnd ∧ showsPending hunk.hunkContent = false

instance (props : IterateOverDiffProps) (p hunkIndex : Nat) (hunk : Hunk) :
    Decidable (HunkClear props p hunkIndex hunk) := by
  unfold HunkClear
  infer_instance

/-- どの hunk についても `HunkClear` である。 -/
def WindowClear (props : IterateOverDiffProps) : Nat → Nat → List Hunk → Prop
  | _, _, [] => True
  | p, hunkIndex, hunk :: rest =>
    HunkClear props p hunkIndex hunk
      ∧ WindowClear props (p + props.hunkHeight hunkIndex hunk rest.isEmpty) (hunkIndex + 1) rest

instance decidableWindowClear (props : IterateOverDiffProps) :
    ∀ p hunkIndex hunks, Decidable (WindowClear props p hunkIndex hunks)
  | _, _, [] => .isTrue trivial
  | p, hunkIndex, hunk :: rest =>
    have := decidableWindowClear props
      (p + props.hunkHeight hunkIndex hunk rest.isEmpty) (hunkIndex + 1) rest
    inferInstanceAs (Decidable (_ ∧ _))

variable {props : IterateOverDiffProps}

/-! ## 一つの hunk -/

section hunk

variable {hunkIndex : Nat} {hunk : Hunk} {isFinalHunk : Bool} {p : Nat}

theorem endRows_inj {q : Nat} : ∀ f ∈ endRows props hunkIndex hunk, f q = f 0 → q = 0 := by
  intro f hf h
  obtain ⟨i, _, rfl⟩ := List.mem_map.1 hf
  simpa [leadingRow] using h

@[simp] theorem length_startRows :
    (startRows props hunkIndex hunk).length = (props.leading hunkIndex hunk).fromStart := by
  simp [startRows]

@[simp] theorem length_endRows :
    (endRows props hunkIndex hunk).length = (props.leading hunkIndex hunk).fromEnd := by
  simp [endRows]

theorem length_innerRows (q : Nat) : (innerRows props hunkIndex hunk isFinalHunk q).length
    = (hunk.hunkContent.map props.height).sum :=
  HunkView.length_contentRows _ _ _

theorem length_keep_innerRows (c q q' : Nat) :
    (keep (visible props) c (innerRows props hunkIndex hunk isFinalHunk q)).length
      = (keep (visible props) c (innerRows props hunkIndex hunk isFinalHunk q')).length :=
  length_keep_congr (by rw [length_innerRows, length_innerRows])

theorem length_trailingRows :
    (trailingRows props hunk isFinalHunk).length = props.trailingHeight isFinalHunk hunk := by
  unfold trailingRows IterateOverDiffProps.trailingHeight
  split <;> simp [*]

theorem length_hunkRows : (hunkRows props hunkIndex hunk isFinalHunk).length
    = props.hunkHeight hunkIndex hunk isFinalHunk := by
  simp only [hunkRows, List.length_append, length_startRows, length_mark, length_endRows,
    length_innerRows, length_trailingRows, IterateOverDiffProps.hunkHeight]

/-- 開かれた部分を渡す。 -/
theorem leadingWalk_eq (hunkIndex : Nat) (hunk : Hunk) (p : Nat) (hs : props.diffStyle ≠ .both)
    (events : List DiffLineEvent) :
    let leading := props.leading hunkIndex hunk
    let expanded := leading.fromStart + leading.fromEnd
    ∃ q emitted, leadingWalk hunk hunkIndex leading
        ⟨stateAt props p, leading.collapsedLines, events⟩
          = ⟨stateAt props (p + expanded), q, events ++ emitted⟩
      ∧ (p + expanded < props.startingLine ∧ q = 0 ∧ emitted = []
        ∨ props.startingLine ≤ p + expanded
          ∧ q = untaken (visible props) (p + leading.fromStart) leading.collapsedLines
              (endRows props hunkIndex hunk)
          ∧ emitted = keep (visible props) p (startRows props hunkIndex hunk)
              ++ taken (visible props) (p + leading.fromStart) leading.collapsedLines
                (endRows props hunkIndex hunk)) := by
  intro leading expanded
  have hr : props.rows expanded expanded = expanded := by simp [IterateOverDiffProps.rows]
  cases hsk : (stateAt props p).shouldSkip expanded expanded with
  | true =>
    have hlt := hsk
    rw [shouldSkip_stateAt hs, Bool.and_eq_true, decide_eq_true_eq, hr] at hlt
    refine ⟨0, [], ?_, Or.inl ⟨hlt.2, rfl, rfl⟩⟩
    simp [leadingWalk, expanded, hsk, Walk.count, incrementCounts_stateAt hs, hr]
  | false =>
    have hge : props.startingLine ≤ p + expanded := by
      by_contra hlt
      have hw : (IterationState.new props).isWindowed = true :=
        isWindowed_iff.2 (Or.inl (by omega))
      simp [shouldSkip_stateAt hs, hr, hw] at hsk
      omega
    refine ⟨_, _, ?_, Or.inr ⟨hge, rfl, rfl⟩⟩
    simp only [leadingWalk, expanded, hsk, Bool.not_false, if_true, plainLoop_eq hs,
      takingLoop_eq hs]
    simp [startRows, endRows, leading, Nat.add_assoc]

theorem visible_start_iff (h : props.startingLine < usizeMax) :
    visible props props.startingLine = false ↔ props.totalLines = 0 := by
  rw [visible_eq_false_iff, isWindowed_iff]
  have he : (IterationState.new props).viewportEnd
      = min (props.startingLine + props.totalLines) usizeMax := rfl
  omega

theorem sum_height_pos : ∀ {contents : List HunkContent}, showsPending contents = true →
    0 < (contents.map props.height).sum
  | .context ctx :: rest, h => by
    rw [List.map_cons, List.sum_cons, HunkView.height_context]
    rcases Nat.eq_zero_or_pos ctx.lines with h0 | hpos
    · have ih : 0 < (rest.map props.height).sum :=
        sum_height_pos (by simpa [showsPending, h0] using h)
      omega
    · omega
  | .change change :: rest, h => by
    have hpos : 0 < change.deletions + change.additions := by simpa [showsPending] using h
    rw [List.map_cons, List.sum_cons, HunkView.height_change]
    unfold IterateOverDiffProps.rows
    split <;> omega

/-- 開かれた部分を飛ばさないとき、印が窓の無い走査と同じ行に付くのは `HunkClear` のときである。 -/
theorem marks_agree_iff (isFinalHunk : Bool) (hs : props.diffStyle ≠ .both)
    (hge : props.startingLine ≤ p + ((props.leading hunkIndex hunk).fromStart
      + (props.leading hunkIndex hunk).fromEnd))
    (hmax : p + props.hunkHeight hunkIndex hunk isFinalHunk ≤ usizeMax) :
    let leading := props.leading hunkIndex hunk
    let c := p + leading.fromStart
    (taken (visible props) c leading.collapsedLines (endRows props hunkIndex hunk)
        = keep (visible props) c (mark leading.collapsedLines (endRows props hunkIndex hunk))
      ∧ keep (visible props) (c + leading.fromEnd) (innerRows props hunkIndex hunk isFinalHunk
          (untaken (visible props) c leading.collapsedLines (endRows props hunkIndex hunk)))
        = keep (visible props) (c + leading.fromEnd) (innerRows props hunkIndex hunk isFinalHunk
          (pendingFor props hunkIndex hunk)))
      ↔ HunkClear props p hunkIndex hunk := by
  intro leading c
  have hlen : (endRows props hunkIndex hunk).length = leading.fromEnd := length_endRows
  rw [isWindow_visible.taken_eq_iff endRows_inj, hlen]
  rcases Nat.eq_zero_or_pos leading.fromEnd with hz | hpos
  · -- 後ろから開かれた行が無ければ、畳まれた行数はどちらでも hunk の最初の行に付く。
    have hnil : endRows props hunkIndex hunk = [] := by
      rw [← List.length_eq_zero_iff, hlen, hz]
    have hpend : pendingFor props hunkIndex hunk = leading.collapsedLines := if_pos hz
    rw [hnil, hpend]
    have hclear : HunkClear props p hunkIndex hunk := Or.inl hz
    simp only [hclear, iff_true, untaken, and_true]
    omega
  have hpend : pendingFor props hunkIndex hunk = 0 := if_neg (Nat.ne_of_gt hpos)
  have hge' : props.startingLine ≤ c + leading.fromEnd := by
    rw [show c + leading.fromEnd = p + (leading.fromStart + leading.fromEnd) from Nat.add_assoc ..]
    exact hge
  have hmax' : c + leading.fromEnd + (hunk.hunkContent.map props.height).sum ≤ usizeMax := by
    have hheight : props.hunkHeight hunkIndex hunk isFinalHunk
        = leading.fromStart + leading.fromEnd + (hunk.hunkContent.map props.height).sum
          + props.trailingHeight isFinalHunk hunk := rfl
    omega
  rw [hpend, innerRows, innerRows, HunkView.keep_contentRows_eq_iff hs]
  have hclear : HunkClear props p hunkIndex hunk ↔ leading.fromEnd = 0
      ∨ leading.collapsedLines = 0 ∨ props.totalLines = 0 ∨ props.startingLine ≤ c
      ∨ c + leading.fromEnd < props.startingLine
      ∨ props.startingLine = c + leading.fromEnd ∧ showsPending hunk.hunkContent = false := Iff.rfl
  rw [hclear]
  clear_value c
  by_cases hend : props.startingLine = c + leading.fromEnd
  · -- 窓が丁度 hunk の中身から開く。印は残っていて、中身の最初の行に付く。
    have hkept : untaken (visible props) c leading.collapsedLines (endRows props hunkIndex hunk)
        = leading.collapsedLines :=
      untaken_of_hidden fun i hi => isWindow_visible.before (by omega)
    rw [hkept, ← hend]
    cases hsh : showsPending hunk.hunkContent with
    | false => simp
    | true =>
      have hsum : 0 < (hunk.hunkContent.map props.height).sum := sum_height_pos hsh
      rw [visible_start_iff (by omega)]
      simp only [reduceCtorEq, or_false, and_false]
      omega
  · -- 窓は中身より前で開く。印は、見えた行に付いて無くなるか、窓が閉じてから残る。
    have hinner : untaken (visible props) c leading.collapsedLines
          (endRows props hunkIndex hunk) = 0
        ∨ visible props (c + leading.fromEnd) = false := by
      have hcases := isWindow_visible.untaken_cases (q := leading.collapsedLines)
        (l := endRows props hunkIndex hunk) (by rw [hlen]; exact hge')
      rcases hcases with hnil | h | h | h
      · rw [hnil, List.length_nil] at hlen
        omega
      · exact Or.inl h
      · exact Or.inr (by rwa [hlen] at h)
      · omega
    have hinner' : untaken (visible props) c leading.collapsedLines
          (endRows props hunkIndex hunk) = 0
        ∨ visible props (c + leading.fromEnd) = false
        ∨ showsPending hunk.hunkContent = false := by
      rcases hinner with h | h
      · exact Or.inl h
      · exact Or.inr (Or.inl h)
    rw [visible_start_iff (by omega)]
    simp only [hinner', and_true, hend, false_and, or_false]
    omega

/-- 開かれた部分の後、hunk の中身と後ろの行を渡す。 -/
theorem hunkWalk_of_leading (isFinalHunk : Bool) (hs : props.diffStyle ≠ .both) {w : Walk} {c q : Nat}
    {events : List DiffLineEvent}
    (hw : leadingWalk hunk hunkIndex (props.leading hunkIndex hunk)
      { w with collapsedLines := (props.leading hunkIndex hunk).collapsedLines }
        = ⟨stateAt props c, q, events⟩) (hq : q = 0 ∨ props.startingLine ≤ c) :
    ∃ b c' q', hunkWalk props hunkIndex hunk isFinalHunk w = (b, ⟨stateAt props c', q',
        events ++ (keep (visible props) c (innerRows props hunkIndex hunk isFinalHunk q)
          ++ keep (visible props) (c + (hunk.hunkContent.map props.height).sum)
              (trailingRows props hunk isFinalHunk))⟩)
      ∧ Reached props c' (c + (hunk.hunkContent.map props.height).sum
          + props.trailingHeight isFinalHunk hunk)
      ∧ (b = true → (stateAt props c').shouldBreak = true) := by
  obtain ⟨o, c', q', hloop, hr, ho⟩ :=
    HunkView.contentLoop_eq (v := hunkView props hunkIndex hunk isFinalHunk) hs rfl
      hunk.hunkContent (.start hunk) events hq
  rw [← innerRows] at hloop
  unfold hunkView at hloop
  rcases ho with ⟨rfl, rfl⟩ | ⟨rfl, hb⟩
  · cases htr : props.trailing isFinalHunk hunk with
    | none =>
      refine ⟨false, c + (hunk.hunkContent.map props.height).sum, q', ?_, Or.inl ?_, by simp⟩
      · rw [htr] at hloop
        simp [hunkWalk, hw, htr, hloop, trailingRows]
      · simp [IterateOverDiffProps.trailingHeight, htr]
    | some tr =>
      obtain ⟨c', hc', htl⟩ := trailingLoop_eq hs q'
        (HunkView.trailingRow props.diff.hunks.length tr
          (hunk.hunkContent.foldl Cursor.advance (.start hunk)))
        (List.range (tr.fromStart + tr.fromEnd))
        (c + (hunk.hunkContent.map props.height).sum)
        (events ++ keep (visible props) c (innerRows props hunkIndex hunk isFinalHunk q))
      refine ⟨false, c', q', ?_, ?_, by simp⟩
      · rw [htr] at hloop
        simp [hunkWalk, hw, htr, hloop, trailingRows, htl]
      · simpa [IterateOverDiffProps.trailingHeight, htr] using hc'
  · -- 見えている範囲を過ぎて止まった。後ろの行も見えない。
    have hle : c' ≤ c + (hunk.hunkContent.map props.height).sum := by
      rcases hr with rfl | ⟨_, hle⟩ <;> omega
    refine ⟨true, c', q', ?_, Or.inr ⟨hb, by omega⟩, fun _ => hb⟩
    rw [keep_of_break hs hb hle, List.append_nil]
    simp [hunkWalk, hw, hloop]

theorem keep_hunkRows : keep (visible props) p (hunkRows props hunkIndex hunk isFinalHunk)
    = (keep (visible props) p (startRows props hunkIndex hunk)
        ++ keep (visible props) (p + (props.leading hunkIndex hunk).fromStart)
          (mark (props.leading hunkIndex hunk).collapsedLines (endRows props hunkIndex hunk)))
      ++ (keep (visible props) (p + ((props.leading hunkIndex hunk).fromStart
            + (props.leading hunkIndex hunk).fromEnd))
          (innerRows props hunkIndex hunk isFinalHunk (pendingFor props hunkIndex hunk))
        ++ keep (visible props) (p + ((props.leading hunkIndex hunk).fromStart
            + (props.leading hunkIndex hunk).fromEnd) + (hunk.hunkContent.map props.height).sum)
          (trailingRows props hunk isFinalHunk)) := by
  simp only [hunkRows, keep_append, length_startRows, length_mark,
    length_endRows, length_innerRows, List.append_assoc, Nat.add_assoc]

theorem append_eq_append_iff_of_length {α : Type} {l₁ l₂ m₁ m₂ : List α}
    (h : l₁.length = l₂.length) : l₁ ++ m₁ = l₂ ++ m₂ ↔ l₁ = l₂ ∧ m₁ = m₂ :=
  ⟨fun he => List.append_inj he h, fun he => by rw [he.1, he.2]⟩

/-- 一つの hunk について渡す行は、窓の無い走査の行と個数が等しく、`HunkClear` のときにだけ一致
する。 -/
theorem hunkWalk_eq (p q₀ hunkIndex : Nat) (hunk : Hunk) (isFinalHunk : Bool)
    (hs : props.diffStyle ≠ .both) (events : List DiffLineEvent) :
    ∃ b c' q' emitted, hunkWalk props hunkIndex hunk isFinalHunk ⟨stateAt props p, q₀, events⟩
        = (b, ⟨stateAt props c', q', events ++ emitted⟩)
      ∧ Reached props c' (p + props.hunkHeight hunkIndex hunk isFinalHunk)
      ∧ (b = true → (stateAt props c').shouldBreak = true)
      ∧ emitted.length
        = (keep (visible props) p (hunkRows props hunkIndex hunk isFinalHunk)).length
      ∧ (p + props.hunkHeight hunkIndex hunk isFinalHunk ≤ usizeMax →
        (emitted = keep (visible props) p (hunkRows props hunkIndex hunk isFinalHunk)
          ↔ HunkClear props p hunkIndex hunk)) := by
  obtain ⟨q, lead, hlead, hcases⟩ :=
    leadingWalk_eq hunkIndex hunk p hs events
  have hq : q = 0 ∨ props.startingLine ≤ p + ((props.leading hunkIndex hunk).fromStart
      + (props.leading hunkIndex hunk).fromEnd) := by
    rcases hcases with ⟨_, hq, _⟩ | ⟨hge, _, _⟩
    · exact Or.inl hq
    · exact Or.inr hge
  obtain ⟨b, c', q', hwalk, hr, hb⟩ := hunkWalk_of_leading isFinalHunk
    (w := ⟨stateAt props p, q₀, events⟩) hs hlead hq
  rw [List.append_assoc] at hwalk
  refine ⟨b, c', q', _, hwalk, ?_, hb, ?_⟩
  · simpa only [IterateOverDiffProps.hunkHeight, Nat.add_assoc] using hr
  rw [keep_hunkRows]
  rcases hcases with ⟨hlt, rfl, rfl⟩ | ⟨hge, rfl, rfl⟩
  · -- 開かれた部分を飛ばす。どの行も窓が開く前にある。
    have hstart : keep (visible props) p (startRows props hunkIndex hunk) = [] :=
      isWindow_visible.keep_eq_nil_of_le (by rw [length_startRows]; omega)
    have hend : keep (visible props) (p + (props.leading hunkIndex hunk).fromStart)
        (mark (props.leading hunkIndex hunk).collapsedLines (endRows props hunkIndex hunk))
          = [] :=
      isWindow_visible.keep_eq_nil_of_le (by rw [length_mark, length_endRows]; omega)
    have hinner := (HunkView.keep_contentRows_eq_iff (v := hunkView props hunkIndex hunk isFinalHunk)
      (q := pendingFor props hunkIndex hunk) hs hunk.hunkContent (.start hunk)).2
        (Or.inr (Or.inl (isWindow_visible.before hlt)))
    have hclear : HunkClear props p hunkIndex hunk :=
      Or.inr (Or.inr (Or.inr (Or.inr (Or.inl (by rw [Nat.add_assoc]; exact hlt)))))
    rw [hstart, hend, innerRows, innerRows, hinner]
    exact ⟨rfl, fun _ => iff_of_true rfl hclear⟩
  · have hlead : (keep (visible props) p (startRows props hunkIndex hunk)
        ++ taken (visible props) (p + (props.leading hunkIndex hunk).fromStart)
          (props.leading hunkIndex hunk).collapsedLines (endRows props hunkIndex hunk)).length
        = (keep (visible props) p (startRows props hunkIndex hunk)
        ++ keep (visible props) (p + (props.leading hunkIndex hunk).fromStart)
          (mark (props.leading hunkIndex hunk).collapsedLines
            (endRows props hunkIndex hunk))).length := by
      rw [List.length_append, List.length_append, length_taken,
        length_keep_congr (length_mark _).symm]
    constructor
    · simp only [List.length_append] at hlead ⊢
      rw [hlead, length_keep_innerRows]
    · intro hmax
      rw [append_eq_append_iff_of_length hlead, List.append_cancel_left_eq,
        append_eq_append_iff_of_length (length_keep_innerRows _ _ _)]
      simp only [and_true]
      have hiff := marks_agree_iff isFinalHunk hs hge hmax
      simpa only [Nat.add_assoc] using hiff

end hunk

/-! ## 走査の全体 -/

theorem WindowClear.of_break (hs : props.diffStyle ≠ .both) {c : Nat}
    (hb : (stateAt props c).shouldBreak = true) : ∀ {hunks : List Hunk} {p hunkIndex : Nat},
      c ≤ p → p + (allRows props hunkIndex hunks).length ≤ usizeMax →
        WindowClear props p hunkIndex hunks
  | [], _, _, _, _ => trivial
  | hunk :: rest, p, hunkIndex, hp, hmax => by
    rw [allRows, List.length_append, length_hunkRows] at hmax
    have hrest : WindowClear props (p + props.hunkHeight hunkIndex hunk rest.isEmpty)
        (hunkIndex + 1) rest := WindowClear.of_break hs hb (by omega) (by omega)
    refine ⟨?_, hrest⟩
    rw [shouldBreak_stateAt hs, Bool.and_eq_true, decide_eq_true_eq] at hb
    have he : (IterationState.new props).viewportEnd
        = min (props.startingLine + props.totalLines) usizeMax := rfl
    -- 窓が閉じているなら開いた後であり、さもなければ窓はどの行よりも後にある。
    by_cases hst : props.startingLine ≤ p
    · exact Or.inr (Or.inr (Or.inr (Or.inl (by omega))))
    · refine Or.inr (Or.inr (Or.inr (Or.inr (Or.inl ?_))))
      unfold IterateOverDiffProps.hunkHeight at hmax
      omega

theorem hunkLoop_of_break (props : IterateOverDiffProps) {w : Walk} (hb : w.state.shouldBreak = true) (hunkIndex : Nat)
    (hunks : List Hunk) : hunkLoop props hunkIndex hunks w = w := by
  cases hunks <;> simp [hunkLoop, hb]

/-- hunk を順に渡す。 -/
theorem hunkLoop_eq (hs : props.diffStyle ≠ .both) : ∀ (hunks : List Hunk)
    (hunkIndex : Nat) {p c q : Nat} (events : List DiffLineEvent), Reached props c p →
      ∃ emitted, (hunkLoop props hunkIndex hunks ⟨stateAt props c, q, events⟩).events
          = events ++ emitted
        ∧ emitted.length = (keep (visible props) p (allRows props hunkIndex hunks)).length
        ∧ (p + (allRows props hunkIndex hunks).length ≤ usizeMax →
          (emitted = keep (visible props) p (allRows props hunkIndex hunks)
            ↔ WindowClear props p hunkIndex hunks))
  | [], _, _, _, _, events, _ => ⟨[], by simp [hunkLoop, allRows, WindowClear]⟩
  | hunk :: rest, hunkIndex, p, c, q, events, hr => by
    cases hb : (stateAt props c).shouldBreak with
    | true =>
      have hle : c ≤ p := by
        rcases hr with rfl | ⟨_, hle⟩
        · exact Nat.le_refl _
        · exact hle
      refine ⟨[], by simp [hunkLoop, hb], ?_⟩
      rw [keep_of_break hs hb hle]
      exact ⟨rfl, fun hmax => iff_of_true rfl (WindowClear.of_break hs hb hle hmax)⟩
    | false =>
      have hcp : c = p := by
        rcases hr with rfl | ⟨hb', _⟩
        · rfl
        · rw [hb] at hb'
          exact absurd hb' (by simp)
      subst hcp
      obtain ⟨b, c', q', emitted, hwalk, hr', hb', hlen, hiff⟩ := hunkWalk_eq c q hunkIndex hunk
        rest.isEmpty hs events
      obtain ⟨later, hlater, hlen', hiff'⟩ := hunkLoop_eq hs rest (hunkIndex + 1) (q := q')
        (events ++ emitted) hr'
      refine ⟨emitted ++ later, ?_, ?_, ?_⟩
      · rw [← List.append_assoc, ← hlater]
        cases b with
        | false => simp [hunkLoop, hb, hwalk]
        | true =>
          have hstop := hunkLoop_of_break props
            (w := ⟨stateAt props c', q', events ++ emitted⟩) (hb' rfl) (hunkIndex + 1) rest
          simp [hunkLoop, hb, hwalk, hstop]
      · rw [allRows, keep_append, length_hunkRows, List.length_append, List.length_append, hlen,
          hlen']
      · intro hmax
        rw [allRows, List.length_append, length_hunkRows] at hmax
        rw [allRows, keep_append, length_hunkRows, append_eq_append_iff_of_length hlen,
          hiff (by omega), hiff' (by omega), WindowClear]

/-- 走査を始めるところ。 -/
theorem iterateOverDiff_eq_iff (hs : props.diffStyle ≠ .both)
    (hmax : (allRows props 0 props.diff.hunks).length ≤ usizeMax) :
    iterateOverDiff props = keep (visible props) 0 (allRows props 0 props.diff.hunks)
      ↔ WindowClear props 0 0 props.diff.hunks := by
  have hstart : stateAt props 0 = IterationState.new props := by
    cases hst : props.diffStyle <;>
      simp [stateAt, IterationState.incrementCounts, IterationState.new, hst]
  obtain ⟨emitted, hev, _, hiff⟩ :=
    hunkLoop_eq (q := 0) hs props.diff.hunks 0 [] (Or.inl (Eq.refl 0))
  rw [hstart, List.nil_append] at hev
  rw [iterateOverDiff, hev]
  exact hiff (by rwa [Nat.zero_add])

theorem keep_visible_eq {l : List DiffLineEvent} (hmax : l.length ≤ usizeMax) :
    keep (visible props) 0 l = (l.drop props.startingLine).take props.totalLines := by
  cases hw : (IterationState.new props).isWindowed with
  | false =>
    have hall : ∀ k, visible props k = true := fun k => by simp [visible, hw]
    have hn : ¬ (0 < props.startingLine ∨ props.totalLines < usizeMax) :=
      isWindowed_iff.not.1 (by simp [hw])
    have hz : props.startingLine = 0 := by omega
    rw [keep_eq_self hall, hz, List.drop_zero, List.take_of_length_le (by omega)]
  | true =>
    have he : (IterationState.new props).viewportEnd
        = min (props.startingLine + props.totalLines) usizeMax := rfl
    rw [visible_of_isWindowed hw, keep_window, he, Nat.sub_zero]
    rcases Nat.le_total (props.startingLine + props.totalLines) usizeMax with hle | hge
    · congr 1
      omega
    · -- 端まで見えている。
      rw [List.take_of_length_le (by rw [List.length_drop]; omega),
        List.take_of_length_le (by rw [List.length_drop]; omega)]

/-- 窓 `[start, start + count)` について渡す行が、窓の無い走査の同じ位置の行であるのは、畳まれた
行を後ろから開いた部分の途中から窓が開かないときで、そのときに限る。 -/
theorem window_is_slice_iff (hs : props.diffStyle ≠ .both)
    (hrows : (iterateOverDiff props.whole).length ≤ usizeMax) :
    iterateOverDiff props
        = ((iterateOverDiff props.whole).drop props.startingLine).take props.totalLines
      ↔ WindowClear props 0 0 props.diff.hunks := by
  rw [iterateOverDiff_whole] at hrows ⊢
  rw [← keep_visible_eq hrows]
  exact iterateOverDiff_eq_iff hs hrows

/-- 七行目だけが変わった二つの本文の差分。始めの三行が畳まれ、その後ろの二行が開かれている。 -/
def lastLineChanged (startingLine totalLines : Nat) : IterateOverDiffProps where
  diff := diffFiles (fun _ _ _ => [[.equal 3 3 3, .replace 6 1 6 1]]) "a.txt".toList
    "1\n2\n3\n4\n5\n6\nx\n".toList "a.txt".toList "1\n2\n3\n4\n5\n6\ny\n".toList
  diffStyle := .unified
  startingLine := startingLine
  totalLines := totalLines
  expandedHunks := fun i => if i = 0 then some { fromStart := 0, fromEnd := 2 } else none
  expandAll := false
  collapsedContextThreshold := 1

theorem window_is_slice_past_region :
    (lastLineChanged 3 2).diffStyle ≠ .both
      ∧ (iterateOverDiff (lastLineChanged 3 2).whole).length ≤ usizeMax
      ∧ iterateOverDiff (lastLineChanged 3 2)
        = ((iterateOverDiff (lastLineChanged 3 2).whole).drop 3).take 2 :=
  ⟨by decide, by decide,
    (window_is_slice_iff (by decide) (by decide)).2 (by decide)⟩

/-- 開かれた二行の間から窓が開くと、畳まれた行数が二行目に付く。 -/
theorem window_inside_region_differs :
    iterateOverDiff (lastLineChanged 1 10)
      ≠ ((iterateOverDiff (lastLineChanged 1 10).whole).drop 1).take 10 := by
  decide

end Cassy.Diffs
