import Cassy.Diffs.Files
import Cassy.Diffs.Iter
import Cassy.Infra.Window

/-!
# 差分の行

`iterate_over_diff` が窓の無いときに渡す行を、hunk ごとに `hunkRows` として作り、窓の無い走査がその
とおりの行を渡すことを示す。窓が無ければ勘定は何にも影響しないので、並べ方によらない。

畳まれたまま残る行数は、後ろから開かれた行があればその最初の行に、なければ hunk の最初の行に付く
（`Infra.mark`）。
-/

namespace Cassy.Diffs

open Infra

namespace IterateOverDiffProps

variable (props : IterateOverDiffProps)

/-- 窓の無い走査。 -/
def whole : IterateOverDiffProps := { props with startingLine := 0, totalLines := usizeMax }

/-- 並べ方に応じて、行数を選ぶ。 -/
def rows (unifiedValue splitValue : Nat) : Nat :=
  if props.diffStyle = .unified then unifiedValue else splitValue

/-- 塊が占める行数。 -/
def height (content : HunkContent) : Nat := props.rows content.unifiedHeight content.splitHeight

end IterateOverDiffProps

variable {props : IterateOverDiffProps}

/-! ## 行の列 -/

namespace HunkView

/-- 塊の行。 -/
def contentRow (v : HunkView) : HunkContent → Bool → Cursor → Nat → Nat → DiffLineEvent
  | .context ctx => v.contextRow ctx
  | .change change => v.changeRow change

/-- 塊の後に残る、畳まれた行数。 -/
def pendingAfter : HunkContent → Nat → Nat
  | .context ctx, q => if ctx.lines = 0 then q else 0
  | .change _, _ => 0

@[simp] theorem pendingAfter_zero (content : HunkContent) : pendingAfter content 0 = 0 := by
  cases content <;> simp [pendingAfter]

/-- 塊の行を全部並べたもの。`q` は付けるべき畳まれた行数。 -/
def contentRows (props : IterateOverDiffProps) (v : HunkView) :
    List HunkContent → Cursor → Nat → List DiffLineEvent
  | [], _, _ => []
  | content :: rest, c, q =>
    mark q ((List.range (props.height content)).map (v.contentRow content rest.isEmpty c))
      ++ contentRows props v rest (c.advance content) (pendingAfter content q)

variable {v : HunkView}

theorem length_contentRows : ∀ (contents : List HunkContent) (c : Cursor) (q : Nat),
    (contentRows props v contents c q).length = (contents.map props.height).sum
  | [], _, _ => rfl
  | content :: rest, c, q => by
    simp [contentRows, length_contentRows rest]

theorem height_context (ctx : ContextContent) : props.height (.context ctx) = ctx.lines := by
  simp [IterateOverDiffProps.height, IterateOverDiffProps.rows, HunkContent.unifiedHeight,
    HunkContent.splitHeight]

theorem height_change (change : ChangeContent) : props.height (.change change)
    = props.rows (change.deletions + change.additions)
      (max change.deletions change.additions) := rfl

end HunkView

section hunk

variable (props : IterateOverDiffProps) (hunkIndex : Nat) (hunk : Hunk) (isFinalHunk : Bool)

/-- 前から開かれた行。 -/
def startRows : List DiffLineEvent :=
  let leading := props.leading hunkIndex hunk
  (List.range leading.fromStart).map fun i => leadingRow hunk hunkIndex leading.rangeSize i 0

/-- 後ろから開かれた行。 -/
def endRows : List (Nat → DiffLineEvent) :=
  let leading := props.leading hunkIndex hunk
  (List.range leading.fromEnd).map (leadingRow hunk hunkIndex leading.fromEnd)

/-- 行を作るための見方。 -/
def hunkView : HunkView where
  style := props.diffStyle
  hunk := hunk
  hunkIndex := hunkIndex
  trailing := props.trailing isFinalHunk hunk

/-- 後ろから開かれた行が無いとき、畳まれた行数は hunk の最初の行に付く。 -/
def pendingFor : Nat :=
  let leading := props.leading hunkIndex hunk
  if leading.fromEnd = 0 then leading.collapsedLines else 0

/-- 最後の hunk の後ろの、開かれた行。 -/
def trailingRows : List DiffLineEvent :=
  match props.trailing isFinalHunk hunk with
  | none => []
  | some tr => (List.range (tr.fromStart + tr.fromEnd)).map
    (HunkView.trailingRow props.diff.hunks.length tr
      (hunk.hunkContent.foldl Cursor.advance (.start hunk)))

/-- hunk の中身の行。 -/
def innerRows (pending : Nat) : List DiffLineEvent :=
  HunkView.contentRows props (hunkView props hunkIndex hunk isFinalHunk) hunk.hunkContent
    (.start hunk) pending

/-- hunk の行を全部並べたもの。 -/
def hunkRows : List DiffLineEvent :=
  startRows props hunkIndex hunk
    ++ mark (props.leading hunkIndex hunk).collapsedLines (endRows props hunkIndex hunk)
    ++ innerRows props hunkIndex hunk isFinalHunk (pendingFor props hunkIndex hunk)
    ++ trailingRows props hunk isFinalHunk

end hunk

/-- 差分の行を全部並べたもの。 -/
def allRows (props : IterateOverDiffProps) : Nat → List Hunk → List DiffLineEvent
  | _, [] => []
  | hunkIndex, hunk :: rest =>
    hunkRows props hunkIndex hunk rest.isEmpty ++ allRows props (hunkIndex + 1) rest

/-! ## 窓によらないこと -/

theorem contentRows_whole {v : HunkView} : ∀ (contents : List HunkContent) (c : Cursor) (q : Nat),
    HunkView.contentRows props.whole v contents c q = HunkView.contentRows props v contents c q
  | [], _, _ => rfl
  | content :: rest, c, q => by
    have hh : props.whole.height content = props.height content := rfl
    rw [HunkView.contentRows, HunkView.contentRows, hh,
      contentRows_whole rest (c.advance content)]

theorem allRows_whole : ∀ (hunkIndex : Nat) (hunks : List Hunk),
    allRows props.whole hunkIndex hunks = allRows props hunkIndex hunks
  | _, [] => rfl
  | hunkIndex, hunk :: rest => by
    have hh : hunkRows props.whole hunkIndex hunk rest.isEmpty
        = hunkRows props hunkIndex hunk rest.isEmpty := by
      unfold hunkRows innerRows
      rw [contentRows_whole]
      rfl
    rw [allRows, allRows, hh, allRows_whole (hunkIndex + 1) rest]

/-! ## 窓の無い走査 -/

/-- 範囲の番号。 -/
def rangeIndices (r : Nat × Nat) : List Nat := List.range' r.1 (r.2 - r.1)

/-- 印は最初の行に付く。 -/
theorem changeLoop_eq (row : Nat → Nat → DiffLineEvent) : ∀ (idxs : List Nat) (w : Walk),
    (changeLoop row idxs w).state = w.state
      ∧ (changeLoop row idxs w).events = w.events ++ mark w.collapsedLines (idxs.map row)
  | [], w => ⟨rfl, by simp [changeLoop]⟩
  | i :: idxs, w => by
    obtain ⟨hst, hev⟩ := changeLoop_eq row idxs (w.emitTaking (row i))
    refine ⟨hst, hev.trans ?_⟩
    simp [Walk.emitTaking, Walk.emit, mark_zero]

/-- 窓の無い走査が `w` から `w'` まで `rows` を渡し、`q` が付けるべき行数として残っている。 -/
structure Shown (w w' : Walk) (q : Nat) (rows : List DiffLineEvent) : Prop where
  unwindowed : w'.state.isWindowed = false
  pending : w'.collapsedLines = q
  events : w'.events = w.events ++ rows

theorem Shown.trans {w w' w'' : Walk} {q q' : Nat} {rows rows' : List DiffLineEvent}
    (h : Shown w w' q rows) (h' : Shown w' w'' q' rows') : Shown w w'' q' (rows ++ rows') :=
  ⟨h'.unwindowed, h'.pending, by rw [h'.events, h.events, List.append_assoc]⟩

section unwindowed

variable (props) {w : Walk}

@[simp] theorem Walk.count_isWindowed (u p : Nat) :
    (w.count u p).state.isWindowed = w.state.isWindowed := by
  unfold Walk.count IterationState.incrementCounts
  split <;> rfl

theorem isInWindow_of_unwindowed {st : IterationState} (h : st.isWindowed = false) (u p : Nat) :
    st.isInWindow u p = true := by
  simp [IterationState.isInWindow, h]

theorem shouldSkip_of_unwindowed {st : IterationState} (h : st.isWindowed = false) (u p : Nat) :
    st.shouldSkip u p = false := by
  simp [IterationState.shouldSkip, h]

theorem shouldBreak_of_unwindowed {st : IterationState} (h : st.isWindowed = false) :
    st.shouldBreak = false := by
  simp [IterationState.shouldBreak, h]

theorem plainLoop_shown (row : Nat → DiffLineEvent) : ∀ (idxs : List Nat) {w : Walk},
    w.state.isWindowed = false → Shown w (plainLoop row idxs w) w.collapsedLines (idxs.map row)
  | [], _, hw => ⟨hw, rfl, by simp [plainLoop]⟩
  | i :: idxs, w, hw => by
    have hstep : Shown w ((w.emit (row i)).count 1 1) w.collapsedLines [row i] :=
      ⟨by rw [Walk.count_isWindowed]; exact hw, rfl, rfl⟩
    have hrest := hstep.trans (plainLoop_shown row idxs hstep.unwindowed)
    rw [hstep.pending] at hrest
    simpa [plainLoop, isInWindow_of_unwindowed hw] using hrest

theorem takingLoop_shown (row : Nat → Nat → DiffLineEvent) : ∀ (idxs : List Nat) {w : Walk},
    w.state.isWindowed = false → Shown w (takingLoop row idxs w)
      (if idxs.length = 0 then w.collapsedLines else 0) (mark w.collapsedLines (idxs.map row))
  | [], _, hw => ⟨hw, rfl, by simp [takingLoop]⟩
  | i :: idxs, w, hw => by
    have hstep : Shown w ((w.emitTaking (row i)).count 1 1) 0 [row i w.collapsedLines] :=
      ⟨by rw [Walk.count_isWindowed]; exact hw, rfl, rfl⟩
    have hrest := hstep.trans (takingLoop_shown row idxs hstep.unwindowed)
    rw [hstep.pending, mark_zero, ite_self] at hrest
    simpa [takingLoop, isInWindow_of_unwindowed hw] using hrest

theorem trailingLoop_shown (row : Nat → DiffLineEvent) : ∀ (idxs : List Nat) {w : Walk},
    w.state.isWindowed = false →
      Shown w (trailingLoop row idxs w) w.collapsedLines (idxs.map row)
  | [], _, hw => ⟨hw, rfl, by simp [trailingLoop]⟩
  | i :: idxs, w, hw => by
    have hstep : Shown w ((w.emit (row i)).count 1 1) w.collapsedLines [row i] :=
      ⟨by rw [Walk.count_isWindowed]; exact hw, rfl, rfl⟩
    have hrest := hstep.trans (trailingLoop_shown row idxs hstep.unwindowed)
    rw [hstep.pending] at hrest
    simpa [trailingLoop, isInWindow_of_unwindowed hw, shouldBreak_of_unwindowed hw] using hrest

theorem changeRanges_of_unwindowed {st : IterationState} (h : st.isWindowed = false)
    (content : ChangeContent) : (getChangeIterationRanges st content props.diffStyle).flatMap
      rangeIndices = List.range (props.height (.change content)) := by
  have hr : ∀ n, List.flatMap rangeIndices [(0, n)] = List.range n := by
    intro n
    simp [rangeIndices, List.range_eq_range']
  cases hst : props.diffStyle <;>
    simp [getChangeIterationRanges, h, hr, HunkView.height_change, IterateOverDiffProps.rows, hst]

theorem contentWalk_shown {v : HunkView} (hv : v.style = props.diffStyle) (content : HunkContent)
    (isLast : Bool) (c : Cursor) (hw : w.state.isWindowed = false) :
    Shown w (v.contentWalk content isLast c w)
      (HunkView.pendingAfter content w.collapsedLines) (mark w.collapsedLines
        ((List.range (props.height content)).map (v.contentRow content isLast c))) := by
  cases content with
  | context ctx =>
    have hloop := takingLoop_shown (v.contextRow ctx isLast c) (List.range ctx.lines) hw
    rw [HunkView.height_context]
    simpa [HunkView.contentWalk, shouldSkip_of_unwindowed hw, HunkView.pendingAfter,
      HunkView.contentRow] using hloop
  | change change =>
    obtain ⟨hst, hev⟩ := changeLoop_eq (v.changeRow change isLast c)
      (List.range (props.height (.change change))) w
    have hwalk : v.contentWalk (.change change) isLast c w
        = { (changeLoop (v.changeRow change isLast c)
              (List.range (props.height (.change change))) w).count
                (change.deletions + change.additions)
                (max change.deletions change.additions) with collapsedLines := 0 } := by
      rw [← changeRanges_of_unwindowed props hw]
      simp only [HunkView.contentWalk, shouldSkip_of_unwindowed hw, Bool.not_false, if_true, hv]
      rfl
    rw [hwalk]
    refine ⟨?_, rfl, hev⟩
    rw [← hw, ← hst]
    exact Walk.count_isWindowed _ _

theorem contentLoop_shown {v : HunkView} (hv : v.style = props.diffStyle) :
    ∀ (contents : List HunkContent) (c : Cursor) {w : Walk}, w.state.isWindowed = false →
      ∃ w' q, v.contentLoop contents c w = (some (contents.foldl Cursor.advance c), w')
        ∧ Shown w w' q (v.contentRows props contents c w.collapsedLines)
  | [], c, w, hw => ⟨w, w.collapsedLines, rfl, hw, rfl, by simp [HunkView.contentRows]⟩
  | content :: rest, c, w, hw => by
    have hstep := contentWalk_shown props hv content rest.isEmpty c hw
    obtain ⟨w', q, hloop, hrest⟩ :=
      contentLoop_shown hv rest (c.advance content) hstep.unwindowed
    rw [hstep.pending] at hrest
    refine ⟨w', q, ?_, hstep.trans hrest⟩
    simp only [HunkView.contentLoop, shouldBreak_of_unwindowed hw, Bool.false_eq_true, if_false]
    exact hloop

theorem leadingWalk_shown (hunkIndex : Nat) (hunk : Hunk) (hw : w.state.isWindowed = false)
    (hq : w.collapsedLines = (props.leading hunkIndex hunk).collapsedLines) :
    Shown w (leadingWalk hunk hunkIndex (props.leading hunkIndex hunk) w)
      (pendingFor props hunkIndex hunk) (startRows props hunkIndex hunk
        ++ mark (props.leading hunkIndex hunk).collapsedLines (endRows props hunkIndex hunk)) := by
  have hstart := plainLoop_shown
    (fun i => leadingRow hunk hunkIndex (props.leading hunkIndex hunk).rangeSize i 0)
    (List.range (props.leading hunkIndex hunk).fromStart) hw
  have hend := takingLoop_shown
    (leadingRow hunk hunkIndex (props.leading hunkIndex hunk).fromEnd)
    (List.range (props.leading hunkIndex hunk).fromEnd) hstart.unwindowed
  rw [hstart.pending, hq, List.length_range] at hend
  simpa [leadingWalk, shouldSkip_of_unwindowed hw, pendingFor, startRows, endRows]
    using hstart.trans hend

theorem hunkWalk_shown (hunkIndex : Nat) (hunk : Hunk) (isFinalHunk : Bool)
    (hw : w.state.isWindowed = false) :
    ∃ w' q, hunkWalk props hunkIndex hunk isFinalHunk w = (false, w')
      ∧ Shown w w' q (hunkRows props hunkIndex hunk isFinalHunk) := by
  have hlead := leadingWalk_shown props hunkIndex hunk
    (w := { w with collapsedLines := (props.leading hunkIndex hunk).collapsedLines }) hw rfl
  obtain ⟨w', q, hloop, hinner⟩ := contentLoop_shown props
    (v := hunkView props hunkIndex hunk isFinalHunk) rfl hunk.hunkContent (.start hunk)
    hlead.unwindowed
  rw [hlead.pending, ← innerRows] at hinner
  unfold hunkView at hloop
  have hshown := hlead.trans hinner
  cases htr : props.trailing isFinalHunk hunk with
  | none =>
    rw [htr] at hloop
    refine ⟨w', q, by simp [hunkWalk, htr, hloop], hshown.unwindowed, hshown.pending, ?_⟩
    rw [hshown.events]
    simp [hunkRows, trailingRows, htr]
  | some tr =>
    rw [htr] at hloop
    have hlast := hshown.trans (trailingLoop_shown (HunkView.trailingRow props.diff.hunks.length tr
      (hunk.hunkContent.foldl Cursor.advance (.start hunk)))
      (List.range (tr.fromStart + tr.fromEnd)) hshown.unwindowed)
    refine ⟨_, _, by simp [hunkWalk, htr, hloop], hlast.unwindowed, hlast.pending, ?_⟩
    rw [hlast.events]
    simp [hunkRows, trailingRows, htr]

theorem hunkLoop_shown : ∀ (hunks : List Hunk) (hunkIndex : Nat) {w : Walk},
    w.state.isWindowed = false →
      ∃ q, Shown w (hunkLoop props hunkIndex hunks w) q (allRows props hunkIndex hunks)
  | [], _, w, hw => ⟨w.collapsedLines, hw, rfl, by simp [hunkLoop, allRows]⟩
  | hunk :: rest, hunkIndex, w, hw => by
    obtain ⟨w', q, hwalk, hshown⟩ := hunkWalk_shown props hunkIndex hunk rest.isEmpty hw
    obtain ⟨q', hrest⟩ := hunkLoop_shown rest (hunkIndex + 1) hshown.unwindowed
    refine ⟨q', ?_⟩
    simp only [hunkLoop, shouldBreak_of_unwindowed hw, Bool.false_eq_true, if_false, hwalk,
      allRows]
    exact hshown.trans hrest

end unwindowed

/-- 窓の無い走査は、差分の行を全部並べる。 -/
theorem iterateOverDiff_whole (props : IterateOverDiffProps) :
    iterateOverDiff props.whole = allRows props 0 props.diff.hunks := by
  have hw : (IterationState.new props.whole).isWindowed = false := by
    simp [IterationState.new, IterateOverDiffProps.whole]
  obtain ⟨q, hshown⟩ := hunkLoop_shown props.whole props.diff.hunks 0
    (w := { state := IterationState.new props.whole, collapsedLines := 0, events := [] }) hw
  rw [← allRows_whole]
  exact hshown.events

end Cassy.Diffs
