import Cassy.Diffs.Build
import Cassy.Diffs.Iter

/-!
# build ごとの走査

hunk の前の開かれた行の番号は、`wrapping_sub` で `back` 行戻った位置に、普通の `+` で行を数えて作る。戻り過ぎた位置は
2⁶⁴ の近くにあるので、この `+` は溢れうる。release の build では折り返して元の番号に戻り、開発の build では panic する。

`Iter` の定義は release の build のものである。ここでは同じ関数を、この `+` を build の `+` に替えて書く。`none` は panic
である。番号は、行を渡すときにだけ作られる。ほかの足し算は行を数えるだけなので、`Iter` のままにする。
-/

namespace Cassy.Diffs

section build

variable (b : Build)

/-- hunk の始まりから `back` 行戻り、`index` 行進んだ行。 -/
def leadingRowIn (hunk : Hunk) (hunkIndex back index collapsedBefore : Nat) : Option DiffLineEvent := do
  let deletionNumber ← b.add (wrappingSub hunk.deletionStart back) index
  let deletionIndex ← b.add (wrappingSub hunk.deletionLineIndex back) index
  let unifiedLineIndex ← b.add (wrappingSub hunk.unifiedLineStart back) index
  let splitLineIndex ← b.add (wrappingSub hunk.splitLineStart back) index
  let additionNumber ← b.add (wrappingSub hunk.additionStart back) index
  let additionIndex ← b.add (wrappingSub hunk.additionLineIndex back) index
  some (.contextExpanded hunkIndex collapsedBefore 0
    { lineNumber := deletionNumber, lineIndex := deletionIndex
      unifiedLineIndex, splitLineIndex, noEofCr := false }
    { lineNumber := additionNumber, lineIndex := additionIndex
      unifiedLineIndex, splitLineIndex, noEofCr := false })

/-- 畳まれた行数を付けない行を、見えていれば渡しながら一行ずつ進む。 -/
def plainLoopIn (row : Nat → Option DiffLineEvent) : List Nat → Walk → Option Walk
  | [], w => some w
  | index :: rest, w => do
    let w ← if w.state.isInWindow 0 0 then (row index).map w.emit else some w
    plainLoopIn row rest (w.count 1 1)

/-- 見えている最初の行に畳まれた行数を付けながら、一行ずつ進む。 -/
def takingLoopIn (row : Nat → Nat → Option DiffLineEvent) : List Nat → Walk → Option Walk
  | [], w => some w
  | index :: rest, w => do
    let w ← if w.state.isInWindow 0 0
      then (row index w.collapsedLines).map fun e => { w.emit e with collapsedLines := 0 }
      else some w
    takingLoopIn row rest (w.count 1 1)

/-- hunk の前の、開かれた部分を渡す。 -/
def leadingWalkIn (hunk : Hunk) (hunkIndex : Nat) (leading : ExpandedRegionResult) (w : Walk) :
    Option Walk :=
  let expandedLineCount := leading.fromStart + leading.fromEnd
  if !w.state.shouldSkip expandedLineCount expandedLineCount then do
    let w ← plainLoopIn (fun index => leadingRowIn b hunk hunkIndex leading.rangeSize index 0)
      (List.range leading.fromStart) w
    takingLoopIn (leadingRowIn b hunk hunkIndex leading.fromEnd) (List.range leading.fromEnd) w
  else some { w.count expandedLineCount expandedLineCount with collapsedLines := 0 }

/-- 一つの hunk を渡す。途中で止まったかを返す。 -/
def hunkWalkIn (props : IterateOverDiffProps) (hunkIndex : Nat) (hunk : Hunk) (isFinalHunk : Bool)
    (w : Walk) : Option (Bool × Walk) := do
  let leading := props.leading hunkIndex hunk
  let trailing := props.trailing isFinalHunk hunk
  let v : HunkView := { style := props.diffStyle, hunk, hunkIndex, trailing }
  let w ← leadingWalkIn b hunk hunkIndex leading { w with collapsedLines := leading.collapsedLines }
  match v.contentLoop hunk.hunkContent (.start hunk) w with
  | (none, w) => some (true, w)
  | (some c, w) =>
    match trailing with
    | none => some (false, w)
    | some tr =>
      some (false, trailingLoop (HunkView.trailingRow props.diff.hunks.length tr c)
        (List.range (tr.fromStart + tr.fromEnd)) w)

/-- hunk を順に渡す。 -/
def hunkLoopIn (props : IterateOverDiffProps) : Nat → List Hunk → Walk → Option Walk
  | _, [], w => some w
  | hunkIndex, hunk :: rest, w =>
    if w.state.shouldBreak then some w
    else do
      match ← hunkWalkIn b props hunkIndex hunk rest.isEmpty w with
      | (true, w) => some w
      | (false, w) => hunkLoopIn props (hunkIndex + 1) rest w

/-- `iterate_over_diff`。 -/
def iterateOverDiffIn (props : IterateOverDiffProps) : Option (List DiffLineEvent) :=
  (hunkLoopIn b props 0 props.diff.hunks
    { state := IterationState.new props, collapsedLines := 0, events := [] }).map Walk.events

end build

/-! ## 折り返す build との比べ -/

/-- panic しなければ、折り返す build と同じ値になる。折り返す build は panic しない。 -/
def Build.Gives {α : Type} (b : Build) (x : Option α) (a : α) : Prop :=
  x = some a ∨ b = .checked ∧ x = none

namespace Build.Gives

variable {α β : Type} {b : Build} {x : Option α} {a : α}

theorem pure : b.Gives (some a) a := .inl rfl

theorem bind {f : α → Option β} {c : β} (hx : b.Gives x a) (hf : b.Gives (f a) c) :
    b.Gives (x >>= f) c := by
  rcases hx with rfl | ⟨rfl, rfl⟩
  · exact hf
  · exact .inr ⟨rfl, rfl⟩

theorem map {c : β} (hx : b.Gives x a) (f : α → β) (hc : f a = c) : b.Gives (x.map f) c := by
  rcases hx with rfl | ⟨rfl, rfl⟩
  · exact .inl (congrArg some hc)
  · exact .inr ⟨rfl, rfl⟩

/-- panic しなかった値。 -/
theorem eq {c : α} (hx : b.Gives x a) (h : x = some c) : c = a := by
  rcases hx with rfl | ⟨-, rfl⟩
  · exact (Option.some.inj h).symm
  · cases h

theorem wrapping (hx : Build.wrapping.Gives x a) : x = some a := by
  rcases hx with rfl | ⟨h, -⟩
  · rfl
  · cases h

end Build.Gives

section walk

variable (b : Build)

theorem Build.gives_add (n k : Nat) : b.Gives (b.add n k) (wrappingAdd n k) := by
  cases b with
  | wrapping => exact .inl rfl
  | checked =>
    by_cases h : n + k ≤ usizeMax
    · have hmod : wrappingAdd n k = n + k := Nat.mod_eq_of_lt (Nat.lt_of_le_of_lt h (by decide))
      exact .inl ((if_pos h).trans (congrArg some hmod.symm))
    · exact .inr ⟨rfl, if_neg h⟩

theorem leadingRowIn_gives (hunk : Hunk) (hunkIndex back index collapsedBefore : Nat) :
    b.Gives (leadingRowIn b hunk hunkIndex back index collapsedBefore)
      (leadingRow hunk hunkIndex back index collapsedBefore) := by
  unfold leadingRowIn
  refine (b.gives_add _ _).bind ?_
  refine (b.gives_add _ _).bind ?_
  refine (b.gives_add _ _).bind ?_
  refine (b.gives_add _ _).bind ?_
  refine (b.gives_add _ _).bind ?_
  refine (b.gives_add _ _).bind ?_
  exact .pure

variable {b}

theorem plainLoopIn_gives {row : Nat → Option DiffLineEvent} {row' : Nat → DiffLineEvent}
    (hrow : ∀ index, b.Gives (row index) (row' index)) : ∀ (indices : List Nat) (w : Walk),
    b.Gives (plainLoopIn row indices w) (plainLoop row' indices w)
  | [], _ => .pure
  | index :: rest, w => by
    rw [plainLoopIn, plainLoop]
    split
    · exact ((hrow index).map w.emit rfl).bind (plainLoopIn_gives hrow rest _)
    · exact Build.Gives.pure.bind (plainLoopIn_gives hrow rest _)

theorem takingLoopIn_gives {row : Nat → Nat → Option DiffLineEvent} {row' : Nat → Nat → DiffLineEvent}
    (hrow : ∀ index collapsed, b.Gives (row index collapsed) (row' index collapsed)) :
    ∀ (indices : List Nat) (w : Walk), b.Gives (takingLoopIn row indices w) (takingLoop row' indices w)
  | [], _ => .pure
  | index :: rest, w => by
    rw [takingLoopIn, takingLoop]
    split
    · exact ((hrow index w.collapsedLines).map _ rfl).bind (takingLoopIn_gives hrow rest _)
    · exact Build.Gives.pure.bind (takingLoopIn_gives hrow rest _)

variable (b)

theorem leadingWalkIn_gives (hunk : Hunk) (hunkIndex : Nat) (leading : ExpandedRegionResult) (w : Walk) :
    b.Gives (leadingWalkIn b hunk hunkIndex leading w) (leadingWalk hunk hunkIndex leading w) := by
  have hplain := fun index => leadingRowIn_gives b hunk hunkIndex leading.rangeSize index 0
  have htaking := leadingRowIn_gives b hunk hunkIndex leading.fromEnd
  unfold leadingWalkIn leadingWalk
  dsimp only
  split
  · exact (plainLoopIn_gives hplain _ w).bind (takingLoopIn_gives htaking _ _)
  · exact .pure

theorem hunkWalkIn_gives (props : IterateOverDiffProps) (hunkIndex : Nat) (hunk : Hunk)
    (isFinalHunk : Bool) (w : Walk) :
    b.Gives (hunkWalkIn b props hunkIndex hunk isFinalHunk w)
      (hunkWalk props hunkIndex hunk isFinalHunk w) := by
  unfold hunkWalkIn hunkWalk
  refine .bind (leadingWalkIn_gives b hunk hunkIndex _ _) ?_
  dsimp only
  generalize HunkView.contentLoop _ hunk.hunkContent _ _ = stop
  obtain ⟨_ | c, w⟩ := stop
  · exact .pure
  · cases props.trailing isFinalHunk hunk with
    | none => exact .pure
    | some tr => exact .pure

theorem hunkLoopIn_gives (props : IterateOverDiffProps) : ∀ (hunkIndex : Nat) (hunks : List Hunk)
    (w : Walk), b.Gives (hunkLoopIn b props hunkIndex hunks w) (hunkLoop props hunkIndex hunks w)
  | _, [], _ => .pure
  | hunkIndex, hunk :: rest, w => by
    rw [hunkLoopIn, hunkLoop]
    split
    · exact .pure
    · refine (hunkWalkIn_gives b props hunkIndex hunk rest.isEmpty w).bind ?_
      obtain ⟨_ | _, w⟩ := hunkWalk props hunkIndex hunk rest.isEmpty w
      · exact hunkLoopIn_gives props (hunkIndex + 1) rest w
      · exact .pure

/-- どの build でも、panic しなければ `Iter` の走査と同じ行が渡る。折り返す build は panic しない。 -/
theorem iterateOverDiffIn_gives (props : IterateOverDiffProps) :
    b.Gives (iterateOverDiffIn b props) (iterateOverDiff props) :=
  (hunkLoopIn_gives b props 0 props.diff.hunks _).map _ rfl

end walk

end Cassy.Diffs
