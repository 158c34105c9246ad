import Mathlib.Data.List.Sort
import Cassy.Diffs.Types

/-!
# 差分を行に並べる

`iter.rs` の `iterate_over_diff`。hunk を順に辿り、見えている範囲の行を一つずつ渡す。

辿っている間に変わるのは、行数の勘定 `IterationState` と、畳まれた行数のうちまだどの行にも
付けていないもの（`leading.collapsed_lines`）と、渡した行である。三つをまとめて `Walk` とし、
途中で止めない callback に渡る行を `events` に溜める。

見えている範囲より前の塊は、行を作らずに勘定だけを進める。その判定が `should_skip` で、範囲の
始まりに丁度届く塊は飛ばさない。
-/

namespace Cassy.Diffs

open Infra

/-- 並べ方。 -/
inductive DiffStyle where
  | split | unified | both
  deriving DecidableEq, Repr

/-- 行の番号。 -/
structure DiffLineMetadata where
  lineNumber : Nat
  lineIndex : Nat
  unifiedLineIndex : Nat
  splitLineIndex : Nat
  noEofCr : Bool
  deriving DecidableEq, Repr

/-- 並べられた一行。 -/
inductive DiffLineEvent where
  | context (hunkIndex collapsedBefore collapsedAfter : Nat)
      (deletionLine additionLine : DiffLineMetadata)
  | contextExpanded (hunkIndex collapsedBefore collapsedAfter : Nat)
      (deletionLine additionLine : DiffLineMetadata)
  | change (hunkIndex collapsedBefore collapsedAfter : Nat)
      (deletionLine additionLine : Option DiffLineMetadata)
  deriving DecidableEq, Repr

/-- 畳まれた行のうち開かれている部分。 -/
structure HunkExpansionRegion where
  fromStart : Nat
  fromEnd : Nat
  deriving DecidableEq, Repr

/-- `iterate_over_diff` の引数。 -/
structure IterateOverDiffProps where
  diff : FileDiffMetadata
  diffStyle : DiffStyle
  startingLine : Nat
  totalLines : Nat
  expandedHunks : Nat → Option HunkExpansionRegion
  expandAll : Bool
  collapsedContextThreshold : Nat

/-! ## 勘定 -/

structure IterationState where
  diffStyle : DiffStyle
  viewportStart : Nat
  viewportEnd : Nat
  isWindowed : Bool
  splitCount : Nat
  unifiedCount : Nat

namespace IterationState

/-- `IterationState::new`。 -/
def new (props : IterateOverDiffProps) : IterationState where
  diffStyle := props.diffStyle
  viewportStart := props.startingLine
  viewportEnd := min (props.startingLine + props.totalLines) usizeMax
  isWindowed := 0 < props.startingLine ∨ props.totalLines < usizeMax
  splitCount := 0
  unifiedCount := 0

variable (s : IterationState)

/-- 並べ方に応じて、二つの条件から選ぶ。`both` のときの繋ぎ方だけが場合による。 -/
def choose (both : Bool → Bool → Bool) (unified split : Bool) : Bool :=
  match s.diffStyle with
  | .unified => unified
  | .split => split
  | .both => both unified split

/-- `should_break`。 -/
def shouldBreak : Bool :=
  s.isWindowed && s.choose and (s.viewportEnd ≤ s.unifiedCount) (s.viewportEnd ≤ s.splitCount)

/-- `should_skip`。 -/
def shouldSkip (unifiedHeight splitHeight : Nat) : Bool :=
  s.isWindowed && s.choose and (s.unifiedCount + unifiedHeight < s.viewportStart)
    (s.splitCount + splitHeight < s.viewportStart)

/-- `increment_counts`。 -/
def incrementCounts (unifiedValue splitValue : Nat) : IterationState :=
  match s.diffStyle with
  | .unified => { s with unifiedCount := s.unifiedCount + unifiedValue }
  | .split => { s with splitCount := s.splitCount + splitValue }
  | .both =>
    { s with
      unifiedCount := s.unifiedCount + unifiedValue, splitCount := s.splitCount + splitValue }

/-- `is_in_unified_window`。 -/
def isInUnifiedWindow (height : Nat) : Bool :=
  !s.isWindowed
    || (s.viewportStart ≤ s.unifiedCount + height && s.unifiedCount < s.viewportEnd)

/-- `is_in_split_window`。 -/
def isInSplitWindow (height : Nat) : Bool :=
  !s.isWindowed || (s.viewportStart ≤ s.splitCount + height && s.splitCount < s.viewportEnd)

/-- `is_in_window`。 -/
def isInWindow (unifiedHeight splitHeight : Nat) : Bool :=
  !s.isWindowed
    || s.choose or (s.isInUnifiedWindow unifiedHeight) (s.isInSplitWindow splitHeight)

end IterationState

/-! ## 開かれた部分 -/

/-- 畳まれる範囲のうち、前から開く行数・後ろから開く行数・畳まれたまま残る行数。 -/
structure ExpandedRegionResult where
  fromStart : Nat
  fromEnd : Nat
  rangeSize : Nat
  collapsedLines : Nat
  deriving DecidableEq, Repr

/-- `get_expanded_region`。 -/
def getExpandedRegion (isPartial : Bool) (rangeSize : Nat)
    (expandedHunks : Nat → Option HunkExpansionRegion) (expandAll : Bool) (hunkIndex : Nat)
    (collapsedContextThreshold : Nat) : ExpandedRegionResult :=
  if rangeSize = 0 ∨ isPartial then
    { fromStart := 0, fromEnd := 0, rangeSize, collapsedLines := rangeSize }
  else if expandAll ∨ rangeSize ≤ collapsedContextThreshold then
    { fromStart := rangeSize, fromEnd := 0, rangeSize, collapsedLines := 0 }
  else
    let region := expandedHunks hunkIndex
    let fromStart := min ((region.map HunkExpansionRegion.fromStart).getD 0) rangeSize
    let fromEnd := min ((region.map HunkExpansionRegion.fromEnd).getD 0) rangeSize
    if rangeSize ≤ fromStart + fromEnd then
      { fromStart := rangeSize, fromEnd := 0, rangeSize, collapsedLines := 0 }
    else
      { fromStart, fromEnd, rangeSize, collapsedLines := rangeSize - (fromStart + fromEnd) }

/-- `has_final_collapsed_hunk`。 -/
def hasFinalCollapsedHunk (diff : FileDiffMetadata) : Bool :=
  match diff.hunks.getLast? with
  | none => false
  | some last =>
    if diff.isPartial ∨ diff.additionLines = [] ∨ diff.deletionLines = [] then false
    else last.additionLineIndex + last.additionCount < diff.additionLines.length
      ∨ last.deletionLineIndex + last.deletionCount < diff.deletionLines.length

namespace IterateOverDiffProps

variable (props : IterateOverDiffProps)

/-- hunk の前の、開かれた部分。 -/
def leading (hunkIndex : Nat) (hunk : Hunk) : ExpandedRegionResult :=
  getExpandedRegion props.diff.isPartial hunk.collapsedBefore props.expandedHunks props.expandAll
    hunkIndex props.collapsedContextThreshold

/-- 最後の hunk の後ろの、開かれた部分。 -/
def trailing (isFinalHunk : Bool) (hunk : Hunk) : Option ExpandedRegionResult :=
  if isFinalHunk && hasFinalCollapsedHunk props.diff then
    let additionRemaining :=
      props.diff.additionLines.length - (hunk.additionLineIndex + hunk.additionCount)
    let deletionRemaining :=
      props.diff.deletionLines.length - (hunk.deletionLineIndex + hunk.deletionCount)
    some (getExpandedRegion props.diff.isPartial (min additionRemaining deletionRemaining)
      props.expandedHunks props.expandAll props.diff.hunks.length
      props.collapsedContextThreshold)
  else none

end IterateOverDiffProps

/-! ## 行を作る -/

/-- 辿っている位置。 -/
structure Cursor where
  unifiedLineIndex : Nat
  splitLineIndex : Nat
  deletionLineIndex : Nat
  additionLineIndex : Nat
  deletionLineNumber : Nat
  additionLineNumber : Nat

/-- hunk の始まり。 -/
def Cursor.start (hunk : Hunk) : Cursor where
  unifiedLineIndex := hunk.unifiedLineStart
  splitLineIndex := hunk.splitLineStart
  deletionLineIndex := hunk.deletionLineIndex
  additionLineIndex := hunk.additionLineIndex
  deletionLineNumber := hunk.deletionStart
  additionLineNumber := hunk.additionStart

/-- 塊を過ぎた位置。 -/
def Cursor.advance (c : Cursor) : HunkContent → Cursor
  | .context ctx =>
    { unifiedLineIndex := c.unifiedLineIndex + ctx.lines
      splitLineIndex := c.splitLineIndex + ctx.lines
      deletionLineIndex := c.deletionLineIndex + ctx.lines
      additionLineIndex := c.additionLineIndex + ctx.lines
      deletionLineNumber := c.deletionLineNumber + ctx.lines
      additionLineNumber := c.additionLineNumber + ctx.lines }
  | .change change =>
    { unifiedLineIndex := c.unifiedLineIndex + (change.deletions + change.additions)
      splitLineIndex := c.splitLineIndex + max change.deletions change.additions
      deletionLineIndex := c.deletionLineIndex + change.deletions
      additionLineIndex := c.additionLineIndex + change.additions
      deletionLineNumber := c.deletionLineNumber + change.deletions
      additionLineNumber := c.additionLineNumber + change.additions }

/-- hunk の始まりから `back` 行戻り、`index` 行進んだ行。戻り過ぎれば折り返す。行を数える `+` は release の build のもので
ある。 -/
def leadingRow (hunk : Hunk) (hunkIndex back index collapsedBefore : Nat) : DiffLineEvent :=
  let unifiedLineIndex := wrappingAdd (wrappingSub hunk.unifiedLineStart back) index
  let splitLineIndex := wrappingAdd (wrappingSub hunk.splitLineStart back) index
  .contextExpanded hunkIndex collapsedBefore 0
    { lineNumber := wrappingAdd (wrappingSub hunk.deletionStart back) index
      lineIndex := wrappingAdd (wrappingSub hunk.deletionLineIndex back) index
      unifiedLineIndex, splitLineIndex, noEofCr := false }
    { lineNumber := wrappingAdd (wrappingSub hunk.additionStart back) index
      lineIndex := wrappingAdd (wrappingSub hunk.additionLineIndex back) index
      unifiedLineIndex, splitLineIndex, noEofCr := false }

/-- `get_trailing_collapsed_after`。 -/
def getTrailingCollapsedAfter (style : DiffStyle) (hunk : Hunk)
    (trailing : Option ExpandedRegionResult) (unifiedLineIndex splitLineIndex : Nat) : Nat :=
  match trailing with
  | none => 0
  | some tr =>
    if 0 < tr.collapsedLines ∧ tr.fromStart + tr.fromEnd = 0 then
      match style with
      | .unified =>
        if unifiedLineIndex = wrappingSub (hunk.unifiedLineStart + hunk.unifiedLineCount) 1
        then tr.collapsedLines else 0
      | _ =>
        if splitLineIndex = wrappingSub (hunk.splitLineStart + hunk.splitLineCount) 1
        then tr.collapsedLines else 0
    else 0

/-- hunk の中のどこまで来たか。行の作り方が読む。 -/
structure HunkView where
  style : DiffStyle
  hunk : Hunk
  hunkIndex : Nat
  trailing : Option ExpandedRegionResult

namespace HunkView

variable (v : HunkView)

/-- 変わっていない行。 -/
def contextRow (ctx : ContextContent) (isLastContent : Bool) (c : Cursor)
    (index collapsedBefore : Nat) : DiffLineEvent :=
  let isLastLine : Bool := isLastContent ∧ index = ctx.lines - 1
  let unifiedLineIndex := c.unifiedLineIndex + index
  let splitLineIndex := c.splitLineIndex + index
  .context v.hunkIndex collapsedBefore
    (getTrailingCollapsedAfter v.style v.hunk v.trailing unifiedLineIndex splitLineIndex)
    { lineNumber := c.deletionLineNumber + index, lineIndex := c.deletionLineIndex + index
      unifiedLineIndex, splitLineIndex, noEofCr := isLastLine && v.hunk.noEofCrDeletions }
    { lineNumber := c.additionLineNumber + index, lineIndex := c.additionLineIndex + index
      unifiedLineIndex, splitLineIndex, noEofCr := isLastLine && v.hunk.noEofCrAdditions }

/-- `get_change_line_data`。`unified` では消された行の後に足された行が続き、他では横に並ぶ。 -/
def changeRow (content : ChangeContent) (isLastContent : Bool) (c : Cursor)
    (index collapsedBefore : Nat) : DiffLineEvent :=
  let isUnified : Bool := v.style = .unified
  let unifiedCount := content.deletions + content.additions
  let splitCount := max content.deletions content.additions
  -- 足された行としての番号。`unified` では消された行を数え終えてから始まる。
  let addition? := if isUnified
    then (if content.deletions ≤ index then some (index - content.deletions) else none)
    else (if index < content.additions then some index else none)
  let splitLineIndex := c.splitLineIndex
    + (if isUnified ∧ content.deletions ≤ index then index - content.deletions else index)
  let lastDeletion := if isUnified then content.deletions else splitCount
  let lastAddition := if isUnified then unifiedCount else splitCount
  let deletionLine := if index < content.deletions then some
      { lineNumber := c.deletionLineNumber + index, lineIndex := c.deletionLineIndex + index
        unifiedLineIndex := c.unifiedLineIndex + index, splitLineIndex
        noEofCr := isLastContent ∧ index = wrappingSub lastDeletion 1
          ∧ v.hunk.noEofCrDeletions }
    else none
  let additionLine := addition?.map fun i =>
    { lineNumber := c.additionLineNumber + i, lineIndex := c.additionLineIndex + i
      unifiedLineIndex := c.unifiedLineIndex + content.deletions + i, splitLineIndex
      noEofCr := isLastContent ∧ index = wrappingSub lastAddition 1 ∧ v.hunk.noEofCrAdditions }
  .change v.hunkIndex collapsedBefore
    (getTrailingCollapsedAfter v.style v.hunk v.trailing (c.unifiedLineIndex + index)
      splitLineIndex)
    deletionLine additionLine

/-- 最後の hunk の後ろの行。 -/
def trailingRow (hunkCount : Nat) (tr : ExpandedRegionResult) (c : Cursor) (index : Nat) :
    DiffLineEvent :=
  let isLastLine : Bool := index = tr.fromStart + tr.fromEnd - 1
  let unifiedLineIndex := c.unifiedLineIndex + index
  let splitLineIndex := c.splitLineIndex + index
  .contextExpanded hunkCount 0 (if isLastLine then tr.collapsedLines else 0)
    { lineNumber := c.deletionLineNumber + index, lineIndex := c.deletionLineIndex + index
      unifiedLineIndex, splitLineIndex, noEofCr := false }
    { lineNumber := c.additionLineNumber + index, lineIndex := c.additionLineIndex + index
      unifiedLineIndex, splitLineIndex, noEofCr := false }

end HunkView

/-! ## 変わった行の塊の見えている部分 -/

/-- `get_visible_range`。塊の中の、見えている番号の範囲。 -/
def getVisibleRange (s : IterationState) (start count : Nat) : Option (Nat × Nat) :=
  if start + count ≤ s.viewportStart ∨ s.viewportEnd ≤ start then none
  else
    let visibleStart := s.viewportStart - start
    let visibleEnd := min count (s.viewportEnd - start)
    if visibleStart < visibleEnd then some (visibleStart, visibleEnd) else none

/-- 並べ替えた範囲を、重なるか接するものどうし一つにする。 -/
def mergeRanges (last : Nat × Nat) : List (Nat × Nat) → List (Nat × Nat)
  | [] => [last]
  | r :: rs =>
    if r.1 ≤ last.2 then mergeRanges (last.1, max last.2 r.2) rs else last :: mergeRanges r rs

/-- 範囲を始まりの順に並べて一つにしていく。 -/
def sortAndMerge (ranges : List (Nat × Nat)) : List (Nat × Nat) :=
  match ranges.insertionSort fun r r' => r.1 ≤ r'.1 with
  | [] => []
  | r :: rs => mergeRanges r rs

/-- `get_change_iteration_ranges`。 -/
def getChangeIterationRanges (s : IterationState) (content : ChangeContent) (style : DiffStyle) :
    List (Nat × Nat) :=
  if !s.isWindowed then
    [(0, match style with
      | .unified => content.deletions + content.additions
      | _ => max content.deletions content.additions)]
  else
    -- `unified` の番号では、足された行は消された行の後に続く。
    let mapRange := fun r : Nat × Nat =>
      if style = .unified then (r.1 + content.deletions, r.2 + content.deletions) else r
    let unifiedRanges := if style = .split then []
      else (getVisibleRange s s.unifiedCount content.deletions).toList
        ++ ((getVisibleRange s (s.unifiedCount + content.deletions)
          content.additions).map mapRange).toList
    let splitRanges := if style = .unified then []
      else (getVisibleRange s s.splitCount content.deletions).toList
        ++ ((getVisibleRange s s.splitCount content.additions).map mapRange).toList
    sortAndMerge ((unifiedRanges ++ splitRanges).filter fun r => r.1 < r.2)

/-! ## 辿る -/

/-- 辿っている間の状態。 -/
structure Walk where
  state : IterationState
  collapsedLines : Nat
  events : List DiffLineEvent

namespace Walk

variable (w : Walk)

/-- 行を渡す。 -/
def emit (e : DiffLineEvent) : Walk := { w with events := w.events ++ [e] }

/-- 畳まれた行数を付けて行を渡す。付けた分は残らない。 -/
def emitTaking (row : Nat → DiffLineEvent) : Walk :=
  { w.emit (row w.collapsedLines) with collapsedLines := 0 }

/-- 勘定を進める。 -/
def count (unifiedValue splitValue : Nat) : Walk :=
  { w with state := w.state.incrementCounts unifiedValue splitValue }

end Walk

/-- 畳まれた行数を付けない行を、見えていれば渡しながら一行ずつ進む。 -/
def plainLoop (row : Nat → DiffLineEvent) : List Nat → Walk → Walk
  | [], w => w
  | index :: rest, w =>
    let w := if w.state.isInWindow 0 0 then w.emit (row index) else w
    plainLoop row rest (w.count 1 1)

/-- 見えている最初の行に畳まれた行数を付けながら、一行ずつ進む。 -/
def takingLoop (row : Nat → Nat → DiffLineEvent) : List Nat → Walk → Walk
  | [], w => w
  | index :: rest, w =>
    let w := if w.state.isInWindow 0 0 then w.emitTaking (row index) else w
    takingLoop row rest (w.count 1 1)

/-- 最後の hunk の後ろの行を渡す。見えている範囲を過ぎれば止まる。 -/
def trailingLoop (row : Nat → DiffLineEvent) : List Nat → Walk → Walk
  | [], w => w
  | index :: rest, w =>
    if w.state.shouldBreak then w
    else
      let w := if w.state.isInWindow 0 0 then w.emit (row index) else w
      trailingLoop row rest (w.count 1 1)

/-- 変わった行の塊の、見えている番号の行を渡す。 -/
def changeLoop (row : Nat → Nat → DiffLineEvent) (indices : List Nat) (w : Walk) : Walk :=
  indices.foldl (fun w index => w.emitTaking (row index)) w

/-- hunk の前の、開かれた部分を渡す。 -/
def leadingWalk (hunk : Hunk) (hunkIndex : Nat) (leading : ExpandedRegionResult) (w : Walk) :
    Walk :=
  let expandedLineCount := leading.fromStart + leading.fromEnd
  if !w.state.shouldSkip expandedLineCount expandedLineCount then
    let w := plainLoop (fun index => leadingRow hunk hunkIndex leading.rangeSize index 0)
      (List.range leading.fromStart) w
    takingLoop (leadingRow hunk hunkIndex leading.fromEnd) (List.range leading.fromEnd) w
  else { w.count expandedLineCount expandedLineCount with collapsedLines := 0 }

namespace HunkView

variable (v : HunkView)

/-- 一つの塊を渡す。 -/
def contentWalk (content : HunkContent) (isLastContent : Bool) (c : Cursor) (w : Walk) : Walk :=
  match content with
  | .context ctx =>
    if !w.state.shouldSkip ctx.lines ctx.lines then
      takingLoop (v.contextRow ctx isLastContent c) (List.range ctx.lines) w
    else { w.count ctx.lines ctx.lines with collapsedLines := 0 }
  | .change change =>
    let splitCount := max change.deletions change.additions
    let unifiedCount := change.deletions + change.additions
    let w := if !w.state.shouldSkip unifiedCount splitCount then
        changeLoop (v.changeRow change isLastContent c)
          ((getChangeIterationRanges w.state change v.style).flatMap fun r =>
            List.range' r.1 (r.2 - r.1)) w
      else w
    { w.count unifiedCount splitCount with collapsedLines := 0 }

/-- hunk の塊を順に渡す。見えている範囲を過ぎて止まったなら、位置は `none`。 -/
def contentLoop : List HunkContent → Cursor → Walk → Option Cursor × Walk
  | [], c, w => (some c, w)
  | content :: rest, c, w =>
    if w.state.shouldBreak then (none, w)
    else contentLoop rest (c.advance content) (v.contentWalk content rest.isEmpty c w)

end HunkView

/-- 一つの hunk を渡す。途中で止まったかを返す。 -/
def hunkWalk (props : IterateOverDiffProps) (hunkIndex : Nat) (hunk : Hunk) (isFinalHunk : Bool)
    (w : Walk) : Bool × Walk :=
  let leading := props.leading hunkIndex hunk
  let trailing := props.trailing isFinalHunk hunk
  let v : HunkView := { style := props.diffStyle, hunk, hunkIndex, trailing }
  let w := leadingWalk hunk hunkIndex leading { w with collapsedLines := leading.collapsedLines }
  match v.contentLoop hunk.hunkContent (.start hunk) w with
  | (none, w) => (true, w)
  | (some c, w) =>
    match trailing with
    | none => (false, w)
    | some tr =>
      (false, trailingLoop (HunkView.trailingRow props.diff.hunks.length tr c)
        (List.range (tr.fromStart + tr.fromEnd)) w)

/-- hunk を順に渡す。 -/
def hunkLoop (props : IterateOverDiffProps) : Nat → List Hunk → Walk → Walk
  | _, [], w => w
  | hunkIndex, hunk :: rest, w =>
    if w.state.shouldBreak then w
    else
      match hunkWalk props hunkIndex hunk rest.isEmpty w with
      | (true, w) => w
      | (false, w) => hunkLoop props (hunkIndex + 1) rest w

/-- `iterate_over_diff`。途中で止めない callback に渡る行を並べたもの。 -/
def iterateOverDiff (props : IterateOverDiffProps) : List DiffLineEvent :=
  (hunkLoop props 0 props.diff.hunks
    { state := IterationState.new props, collapsedLines := 0, events := [] }).events

end Cassy.Diffs
