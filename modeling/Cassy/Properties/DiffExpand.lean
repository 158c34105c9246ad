import Cassy.Diffs.IterBuild
import Cassy.Infra.Lines
import Cassy.Properties.DiffRows

/-!
# 全部開いた差分

`diff_files` の差分を全部開いて並べると、古い本文と新しい本文のどの行も一度ずつ、番号の順に現れる
ことを示す。古い側と新しい側は同じ議論なので、`Side` を引数にして一度だけ示す。

`similar` が返す操作の組について使うのは `Clusters` だけである。組の中で操作は隙間なく続き、組の間と
両端では、両側の同じ長さの変わらない行が省かれている。省かれた行の後の組は、変わらない行から
始まる。`diff_files` の hunk は同じ形をしていて（`Layout`）、走査が渡す番号はそこから読み取れる。

`similar` は単独の `\r` でも行を終える。本文に後へ文字の続く単独の `\r` が無ければ、その行は `diff_files` の行と同じである。

本文が等しければ組は無く、何も並ばない。
-/

namespace Cassy.Diffs

open Infra

/-- 古い側と新しい側。 -/
inductive Side where
  | old | new
  deriving DecidableEq, Repr

namespace Side

/-- 側を選ぶ。 -/
def pick {α : Type} : Side → α → α → α
  | old, a, _ => a
  | new, _, b => b

/-- 行の、その側での番号。 -/
def index? (side : Side) : DiffLineEvent → Option Nat
  | .context _ _ _ d a => some (side.pick d a).lineIndex
  | .contextExpanded _ _ _ d a => some (side.pick d a).lineIndex
  | .change _ _ _ d a => (side.pick d a).map DiffLineMetadata.lineIndex

/-- 並んだ行の、その側での番号。 -/
def indices (side : Side) (events : List DiffLineEvent) : List Nat := events.filterMap side.index?

/-- 塊の、その側での行数。 -/
def count (side : Side) : HunkContent → Nat
  | .context ctx => ctx.lines
  | .change change => side.pick change.deletions change.additions

/-- 位置の、その側での番号。 -/
def cursor (side : Side) (c : Cursor) : Nat := side.pick c.deletionLineIndex c.additionLineIndex

/-- hunk の始まりの番号。 -/
def start (side : Side) (hunk : Hunk) : Nat :=
  side.pick hunk.deletionLineIndex hunk.additionLineIndex

/-- hunk の行数。 -/
def lines (side : Side) (hunk : Hunk) : Nat := side.pick hunk.deletionCount hunk.additionCount

/-- hunk の始まりの行番号。 -/
def startNumber (side : Side) (hunk : Hunk) : Nat :=
  side.pick hunk.deletionStart hunk.additionStart

end Side

/-! ## 行の切り方 -/

/-- `TextDiff::from_lines` の行。`\n`・`\r\n`・単独の `\r` で終わる。 -/
def fromLines : Text → List Text
  | [] => []
  | c :: cs =>
    if c = '\n' ∨ c = '\r' ∧ cs.head? ≠ some '\n' then [c] :: fromLines cs
    else match fromLines cs with
      | [] => [[c]]
      | l :: ls => (c :: l) :: ls

/-- 後に `\n` でない文字の続く `\r` がある。 -/
def hasInnerReturn : Text → Bool
  | [] => false
  | c :: cs => (c == '\r' && !cs.isEmpty && cs.head? != some '\n') || hasInnerReturn cs

/-- 単独の `\r` が文字の前に無ければ、二つの切り方は一致する。 -/
theorem fromLines_eq {t : Text} (h : hasInnerReturn t = false) : fromLines t = splitInclusive t := by
  induction t with
  | nil => rfl
  | cons c cs ih =>
    unfold hasInnerReturn at h
    obtain ⟨hc, hcs⟩ := Bool.or_eq_false_iff.mp h
    unfold fromLines splitInclusive
    rw [ih hcs]
    by_cases hn : c = '\n'
    · rw [if_pos (.inl hn), if_pos hn]
    · rw [if_neg hn]
      by_cases hr : c = '\r' ∧ cs.head? ≠ some '\n'
      · -- 最後の文字である。
        cases cs with
        | nil => rw [if_pos (.inr hr)]; rfl
        | cons d ds =>
          simp only [hr.1, beq_self_eq_true, List.isEmpty_cons, Bool.not_false, Bool.and_true,
            Bool.true_and, bne_eq_false_iff_eq] at hc
          exact absurd hc hr.2
      · exact if_neg (by rintro (h | h); exacts [hn h, hr h])

/-! ## 操作の組 -/

/-- 操作が、両側の番号 `(i, j)` から `(i', j')` まで隙間なく続いている。 -/
inductive Contiguous : Nat → Nat → List DiffOp → Nat → Nat → Prop
  | nil (i j : Nat) : Contiguous i j [] i j
  | cons {i j i' j' : Nat} {op : DiffOp} {rest : List DiffOp} :
      op.oldStart = i → op.newStart = j → Contiguous op.oldEnd op.newEnd rest i' j' →
        Contiguous i j (op :: rest) i' j'

/-- `grouped_ops(n)` の返す形。両側が `oldLines` 行と `newLines` 行のとき、番号 `(i, j)` から後の組。
`gap` は省かれた変わらない行の数で、それが `0` でなければ、組は `n` 行の変わらない行から始まる。 -/
inductive Clusters (n oldLines newLines : Nat) : Nat → Nat → List (List DiffOp) → Prop
  | rest {i j : Nat} (gap : Nat) : oldLines = i + gap → newLines = j + gap →
      Clusters n oldLines newLines i j []
  | group {i j i' j' : Nat} {ops : List DiffOp} {groups : List (List DiffOp)} (gap : Nat) :
      ops ≠ [] → Contiguous (i + gap) (j + gap) ops i' j' →
      (0 < gap → ops.head? = some (.equal (i + gap) (j + gap) n)) →
      Clusters n oldLines newLines i' j' groups → Clusters n oldLines newLines i j (ops :: groups)

/-- `similar` が `from_lines` の行について返す組。 -/
structure FromLinesGroups (oldContent newContent : Text) (groups : List (List DiffOp)) : Prop where
  clusters : Clusters defaultContext (fromLines oldContent).length (fromLines newContent).length 0 0 groups
  equal : ∀ group ∈ groups, ∀ i j len, DiffOp.equal i j len ∈ group →
    ∀ k < len, (fromLines oldContent)[i + k]? = (fromLines newContent)[j + k]?
  nil_iff : groups = [] ↔ oldContent = newContent

/-! ## hunk の並び -/

/-- hunk が、両側の番号 `(a, b)` から `(i', j')` までを占める。 -/
structure Spans (hunk : Hunk) (a b i' j' : Nat) : Prop where
  start : ∀ side : Side, side.start hunk = side.pick a b
  stop : ∀ side : Side, side.start hunk + side.lines hunk = side.pick i' j'
  content : ∀ side : Side, (hunk.hunkContent.map side.count).sum = side.lines hunk

/-- hunk の並び。番号 `(i, j)` から後の hunk が、`gap` 行ずつ空けて続く。 -/
inductive Layout (oldLines newLines : Nat) : Nat → Nat → List Hunk → Prop
  | rest {i j : Nat} (gap : Nat) : oldLines = i + gap → newLines = j + gap →
      Layout oldLines newLines i j []
  | hunk {i j i' j' : Nat} {hunk : Hunk} {hunks : List Hunk} :
      Spans hunk (i + hunk.collapsedBefore) (j + hunk.collapsedBefore) i' j' →
      (∀ side : Side, hunk.collapsedBefore ≤ side.startNumber hunk) →
      Layout oldLines newLines i' j' hunks → Layout oldLines newLines i j (hunk :: hunks)

theorem Contiguous.sum {i j i' j' : Nat} {ops : List DiffOp} (h : Contiguous i j ops i' j')
    (side : Side) : side.pick i j + ((ops.map DiffOp.content).map side.count).sum
      = side.pick i' j' := by
  induction h with
  | nil i j => simp
  | @cons i j i' j' op rest hi hj h ih =>
    have hstep : side.pick op.oldStart op.newStart + side.count op.content
        = side.pick op.oldEnd op.newEnd := by
      cases op <;> cases side <;> rfl
    subst hi hj
    simp only [List.map_cons, List.sum_cons]
    omega

theorem Contiguous.last {i j i' j' : Nat} {ops : List DiffOp} (h : Contiguous i j ops i' j') :
    ∀ {op : DiffOp}, ops.getLast? = some op → op.oldEnd = i' ∧ op.newEnd = j' := by
  induction h with
  | nil i j => intro op hl; simp at hl
  | @cons i j i' j' op rest hi hj h ih =>
    intro last hl
    cases rest with
    | nil =>
      cases h
      simp only [List.getLast?_singleton, Option.some.injEq] at hl
      exact ⟨by rw [hl], by rw [hl]⟩
    | cons next rest => exact ih (by rwa [List.getLast?_cons_cons] at hl)

section groups

variable (oldNoEof newNoEof isLast : Bool) (oldLines newLines : Nat) {s : GroupState}
  {i j i' j' gap : Nat} {ops : List DiffOp}

/-- 組を一つ読むと、hunk が一つ増える。 -/
theorem groupStep_eq (hs : s.prevHunkOldEnd = i) (hne : ops ≠ [])
    (hc : Contiguous (i + gap) (j + gap) ops i' j')
    (hctx : 0 < gap → ops.head? = some (.equal (i + gap) (j + gap) defaultContext)) :
    ∃ hunk, (groupStep oldNoEof newNoEof isLast s ops).hunks = s.hunks ++ [hunk]
      ∧ (groupStep oldNoEof newNoEof isLast s ops).prevHunkOldEnd = i'
      ∧ ∀ {hunks}, Layout oldLines newLines i' j' hunks →
        Layout oldLines newLines i j (hunk :: hunks) := by
  obtain ⟨first, rest, rfl⟩ := List.exists_cons_of_ne_nil hne
  obtain ⟨last, hlast⟩ : ∃ last, (first :: rest).getLast? = some last :=
    ⟨_, List.getLast?_eq_some_getLast hne⟩
  obtain ⟨hold, hnew⟩ := hc.last hlast
  have hsum := hc.sum
  have hfirst : first.oldStart = i + gap ∧ first.newStart = j + gap := by
    cases hc with
    | cons hi hj _ => exact ⟨hi, hj⟩
  have hstart : ∀ side : Side, side.pick first.oldStart first.newStart
      = side.pick (i + gap) (j + gap) := by
    rw [hfirst.1, hfirst.2]
    exact fun _ => rfl
  have hlines : ∀ side : Side,
      side.pick (last.oldEnd - first.oldStart) (last.newEnd - first.newStart)
        = (((first :: rest).map DiffOp.content).map side.count).sum := by
    intro side
    have h := hsum side
    cases side
    · change i + gap + _ = i' at h
      change last.oldEnd - first.oldStart = _
      omega
    · change j + gap + _ = j' at h
      change last.newEnd - first.newStart = _
      omega
  have hgap : (groupHunk oldNoEof newNoEof isLast s (first :: rest) first last).collapsedBefore
      = gap := by
    change first.oldStart - s.prevHunkOldEnd = gap
    omega
  refine ⟨groupHunk oldNoEof newNoEof isLast s (first :: rest) first last,
    by simp [groupStep, hlast], by simp [groupStep, hlast, hold],
    fun hrest => Layout.hunk ⟨?_, ?_, ?_⟩ ?_ hrest⟩
  · rw [hgap]
    exact hstart
  · intro side
    exact (congrArg₂ (· + ·) (hstart side) (hlines side)).trans (hsum side)
  · exact fun side => (hlines side).symm
  · rw [hgap]
    intro side
    rcases Nat.eq_zero_or_pos gap with hz | hpos
    · omega
    · -- 省かれた行の後の組は変わらない行から始まるので、どちらの側にも行がある。
      have heq : first = .equal (i + gap) (j + gap) defaultContext := by simpa using hctx hpos
      have hne' : side.pick (last.oldEnd - first.oldStart) (last.newEnd - first.newStart) ≠ 0 := by
        rw [hlines side, heq]
        simp [DiffOp.content, Side.count, defaultContext]
      cases side
      · change gap ≤ if last.oldEnd - first.oldStart = 0 then 0 else first.oldStart + 1
        rw [if_neg (show last.oldEnd - first.oldStart ≠ 0 from hne')]
        omega
      · change gap ≤ if last.newEnd - first.newStart = 0 then 0 else first.newStart + 1
        rw [if_neg (show last.newEnd - first.newStart ≠ 0 from hne')]
        omega

/-- 組から作られる hunk は、組と同じ形に並ぶ。 -/
theorem groupLoop_layout {groups : List (List DiffOp)}
    (h : Clusters defaultContext oldLines newLines i j groups) :
    ∀ {s : GroupState}, s.prevHunkOldEnd = i →
      ∃ hunks, (groupLoop oldNoEof newNoEof groups s).hunks = s.hunks ++ hunks
        ∧ Layout oldLines newLines i j hunks ∧ (hunks = [] ↔ groups = []) := by
  induction h with
  | rest gap hold hnew =>
    exact fun _ => ⟨[], by simp [groupLoop], Layout.rest gap hold hnew, by simp⟩
  | @group i j i' j' ops groups gap hne hc hctx _ ih =>
    intro s hs
    obtain ⟨hunk, hhunks, hend, hlayout⟩ := groupStep_eq oldNoEof newNoEof groups.isEmpty oldLines
      newLines hs hne hc hctx
    obtain ⟨hunks, hrest, hl, _⟩ := ih hend
    refine ⟨hunk :: hunks, ?_, hlayout hl, by simp⟩
    rw [groupLoop, hrest, hhunks, List.append_assoc]
    rfl

end groups

/-- `diff_files` の hunk の並び。 -/
theorem diffFiles_layout {groupedOps : GroupedOps} (oldName : Text) {oldContent : Text}
    (newName : Text) {newContent : Text}
    (h : FromLinesGroups oldContent newContent (groupedOps oldContent newContent defaultContext))
    (hold : hasInnerReturn oldContent = false) (hnew : hasInnerReturn newContent = false) :
    Layout (splitLinesKeepNewline oldContent).length (splitLinesKeepNewline newContent).length 0 0
        (diffFiles groupedOps oldName oldContent newName newContent).hunks
      ∧ ((diffFiles groupedOps oldName oldContent newName newContent).hunks = []
        ↔ oldContent = newContent) := by
  have hclusters := h.clusters
  rw [fromLines_eq hold, fromLines_eq hnew] at hclusters
  obtain ⟨hunks, hrun, hlayout, hnil⟩ := groupLoop_layout (noEof oldContent) (noEof newContent)
    _ _ hclusters (s := { hunks := [], splitTotal := 0, unifiedTotal := 0, prevHunkOldEnd := 0 }) rfl
  rw [List.nil_append] at hrun
  have hhunks : (diffFiles groupedOps oldName oldContent newName newContent).hunks = hunks := hrun
  rw [hhunks]
  exact ⟨hlayout, hnil.trans h.nil_iff⟩

/-! ## 番号 -/

variable {props : IterateOverDiffProps} {side : Side}

theorem filterMap_some (f : Nat → Option Nat) (d n : Nat) (h : ∀ i < n, f i = some (d + i)) :
    (List.range n).filterMap f = List.range' d n := by
  rw [List.range'_eq_map_range, ← List.filterMap_eq_map]
  refine List.filterMap_congr fun i hi => ?_
  exact h i (List.mem_range.1 hi)

/-- 前の `k` 個だけが番号を持つ。 -/
theorem filterMap_below (f : Nat → Option Nat) (d k n : Nat) (h : ∀ i < k, f i = some (d + i))
    (h' : ∀ i, k ≤ i → f i = none) (hn : k ≤ n) :
    (List.range n).filterMap f = List.range' d k := by
  rw [show n = k + (n - k) by omega, List.range_add, List.filterMap_append, filterMap_some f d k h,
    List.filterMap_eq_nil_iff.2, List.append_nil]
  intro i hi
  obtain ⟨i', _, rfl⟩ := List.mem_map.1 hi
  exact h' _ (by omega)

/-- 後ろの `n` 個だけが番号を持つ。 -/
theorem filterMap_above (f : Nat → Option Nat) (d k n : Nat) (h : ∀ i < k, f i = none)
    (h' : ∀ i < n, f (k + i) = some (d + i)) :
    (List.range (k + n)).filterMap f = List.range' d n := by
  have hnone : (List.range k).filterMap f = [] :=
    List.filterMap_eq_nil_iff.2 fun i hi => h i (List.mem_range.1 hi)
  rw [List.range_add, List.filterMap_append, hnone, List.nil_append, List.filterMap_map]
  exact filterMap_some _ d n h'

theorem range'_append_of_le {a b d : Nat} (hab : a ≤ b) (hbd : b ≤ d) :
    List.range' a (b - a) ++ List.range' b (d - b) = List.range' a (d - a) := by
  rw [show d - a = b - a + (d - b) by omega, ← List.range'_append_1,
    show a + (b - a) = b by omega]

theorem Side.indices_append (events events' : List DiffLineEvent) :
    side.indices (events ++ events') = side.indices events ++ side.indices events' :=
  List.filterMap_append

section rows

variable {v : HunkView} {isLast : Bool} {c : Cursor} {i q : Nat}

theorem index_contextRow (ctx : ContextContent) :
    side.index? (v.contextRow ctx isLast c i q) = some (side.cursor c + i) := by
  cases side <;> rfl

theorem old_index_changeRow (change : ChangeContent) :
    Side.old.index? (v.changeRow change isLast c i q)
      = if i < change.deletions then some (c.deletionLineIndex + i) else none := by
  simp only [HunkView.changeRow, Side.index?, Side.pick]
  split <;> rfl

theorem new_index_changeRow (change : ChangeContent) :
    Side.new.index? (v.changeRow change isLast c i q)
      = if v.style = .unified
        then (if change.deletions ≤ i then some (c.additionLineIndex + (i - change.deletions))
          else none)
        else (if i < change.additions then some (c.additionLineIndex + i) else none) := by
  by_cases hst : v.style = .unified
  · by_cases hi : change.deletions ≤ i <;>
      simp [HunkView.changeRow, Side.index?, Side.pick, hst, hi]
  · by_cases hi : i < change.additions <;>
      simp [HunkView.changeRow, Side.index?, Side.pick, hst, hi]

/-- 塊の行の番号は、その側の行数だけ続く。 -/
theorem indices_contentRow (hv : v.style = props.diffStyle) (content : HunkContent) :
    side.indices (mark 0 ((List.range (props.height content)).map (v.contentRow content isLast c)))
      = List.range' (side.cursor c) (side.count content) := by
  rw [mark_zero, List.map_map, Side.indices, List.filterMap_map]
  cases content with
  | context ctx =>
    rw [HunkView.height_context]
    exact filterMap_some _ _ _ fun i _ => index_contextRow ctx
  | change change =>
    rw [HunkView.height_change]
    cases side with
    | old =>
      have hcount : Side.old.count (.change change) = change.deletions := rfl
      rw [hcount]
      refine filterMap_below _ _ _ _ (fun i hi => ?_) (fun i hi => ?_) ?_
      · exact (old_index_changeRow change).trans (if_pos hi)
      · exact (old_index_changeRow change).trans (if_neg (by omega))
      · unfold IterateOverDiffProps.rows
        split <;> omega
    | new =>
      have hcount : Side.new.count (.change change) = change.additions := rfl
      rw [hcount]
      by_cases hst : props.diffStyle = .unified
      · -- `unified` では、足された行は消された行の後に続く。
        have hr : props.rows (change.deletions + change.additions)
            (max change.deletions change.additions) = change.deletions + change.additions :=
          if_pos hst
        rw [hr]
        refine filterMap_above _ _ _ _ (fun i hi => ?_) (fun i hi => ?_)
        · exact (new_index_changeRow change).trans (by rw [if_pos (hv.trans hst), if_neg (by omega)])
        · refine (new_index_changeRow change).trans ?_
          rw [if_pos (hv.trans hst), if_pos (by omega), Nat.add_sub_cancel_left]
          rfl
      · have hne : ¬ v.style = .unified := by rwa [hv]
        have hr : props.rows (change.deletions + change.additions)
            (max change.deletions change.additions) = max change.deletions change.additions :=
          if_neg hst
        rw [hr]
        refine filterMap_below _ _ _ _ (fun i hi => ?_) (fun i hi => ?_) ?_
        · exact (new_index_changeRow change).trans (by rw [if_neg hne, if_pos hi]; rfl)
        · exact (new_index_changeRow change).trans (by rw [if_neg hne, if_neg (by omega)])
        · omega

theorem cursor_advance (content : HunkContent) :
    side.cursor (c.advance content) = side.cursor c + side.count content := by
  cases content <;> cases side <;> rfl

theorem indices_contentRows (hv : v.style = props.diffStyle) : ∀ (contents : List HunkContent)
    (c : Cursor), side.indices (v.contentRows props contents c 0)
      = List.range' (side.cursor c) (contents.map side.count).sum
  | [], _ => rfl
  | content :: rest, c => by
    have ih := indices_contentRows hv rest (c.advance content)
    rw [HunkView.contentRows, Side.indices_append, indices_contentRow hv,
      HunkView.pendingAfter_zero, ih, cursor_advance, List.map_cons, List.sum_cons,
      List.range'_append_1]

end rows

theorem cursor_foldl : ∀ (contents : List HunkContent) (c : Cursor),
    side.cursor (contents.foldl Cursor.advance c)
      = side.cursor c + (contents.map side.count).sum
  | [], _ => rfl
  | content :: rest, c => by
    have ih := cursor_foldl rest (c.advance content)
    rw [cursor_advance] at ih
    rw [List.foldl_cons, ih, List.map_cons, List.sum_cons, Nat.add_assoc]

/-! ## 全部開いたとき -/

/-- 全部開けば、畳まれる行は残らない。 -/
theorem getExpandedRegion_expandAll (rangeSize hunkIndex threshold : Nat)
    (expandedHunks : Nat → Option HunkExpansionRegion) :
    getExpandedRegion false rangeSize expandedHunks true hunkIndex threshold
      = { fromStart := rangeSize, fromEnd := 0, rangeSize, collapsedLines := 0 } := by
  unfold getExpandedRegion
  by_cases hz : rangeSize = 0
  · simp [hz]
  · simp [hz]

/-- 戻り過ぎなければ、折り返さない。 -/
theorem wrappingAdd_wrappingSub {a b i : Nat} (hb : b ≤ a) (ha : a ≤ usizeMax) (hi : i < b) :
    wrappingAdd (wrappingSub a b) i = a - b + i := by
  have hmax : usizeMax < 2 ^ 64 := by decide
  rw [wrappingSub, if_pos hb, wrappingAdd, Nat.mod_eq_of_lt (by omega)]

/-- 差分が `oldLines` 行と `newLines` 行の本文のもので、全部開かれている。 -/
structure Expanded (props : IterateOverDiffProps) (oldLines newLines : Nat) : Prop where
  expandAll : props.expandAll = true
  isPartial : props.diff.isPartial = false
  lines : ∀ side : Side, (side.pick props.diff.deletionLines props.diff.additionLines).length
    = side.pick oldLines newLines
  fits : ∀ side : Side, side.pick oldLines newLines ≤ usizeMax

section expanded

variable {oldLines newLines hunkIndex : Nat} {hunk : Hunk} {i j i' j' : Nat}

theorem leading_expandAll (he : Expanded props oldLines newLines) :
    props.leading hunkIndex hunk = { fromStart := hunk.collapsedBefore, fromEnd := 0
                                     rangeSize := hunk.collapsedBefore, collapsedLines := 0 } := by
  rw [IterateOverDiffProps.leading, he.expandAll, he.isPartial, getExpandedRegion_expandAll]

theorem index_leadingRow {back k q : Nat} (hb : back ≤ side.start hunk)
    (hmax : side.start hunk ≤ usizeMax) (hk : k < back) :
    side.index? (leadingRow hunk hunkIndex back k q) = some (side.start hunk - back + k) := by
  rw [← wrappingAdd_wrappingSub hb hmax hk]
  cases side <;> rfl

/-- hunk の前と中身の行。 -/
theorem indices_body (side : Side) (hunkIndex : Nat) (isFinalHunk : Bool)
    (he : Expanded props oldLines newLines)
    (hspan : Spans hunk (i + hunk.collapsedBefore) (j + hunk.collapsedBefore) i' j')
    (hle : side.pick i' j' ≤ usizeMax) :
    side.indices (startRows props hunkIndex hunk
        ++ mark (props.leading hunkIndex hunk).collapsedLines (endRows props hunkIndex hunk)
        ++ innerRows props hunkIndex hunk isFinalHunk (pendingFor props hunkIndex hunk))
      = List.range' (side.pick i j) (side.pick i' j' - side.pick i j) := by
  have hstart : side.start hunk = side.pick i j + hunk.collapsedBefore := by
    rw [hspan.start side]
    cases side <;> rfl
  have hstop := hspan.stop side
  have hpend : pendingFor props hunkIndex hunk = 0 := by
    simp [pendingFor, leading_expandAll he]
  have hend : endRows props hunkIndex hunk = [] := by
    simp [endRows, leading_expandAll he]
  have hlead : side.indices (startRows props hunkIndex hunk)
      = List.range' (side.pick i j) hunk.collapsedBefore := by
    simp only [startRows, leading_expandAll he, Side.indices, List.filterMap_map]
    refine filterMap_some _ _ _ fun k hk => ?_
    refine (index_leadingRow (by omega) (by omega) hk).trans ?_
    rw [hstart, Nat.add_sub_cancel]
  have hinner : side.indices (innerRows props hunkIndex hunk isFinalHunk 0)
      = List.range' (side.start hunk) (side.lines hunk) := by
    rw [innerRows, indices_contentRows rfl, hspan.content side]
    cases side <;> rfl
  rw [hpend, hend, mark_nil, List.append_nil, Side.indices_append, hlead, hinner, hstart,
    List.range'_append_1]
  congr 1
  omega

/-- 最後の hunk の後ろの行。 -/
theorem indices_trailingRows (he : Expanded props oldLines newLines) {gap : Nat}
    (hspan : Spans hunk (i + hunk.collapsedBefore) (j + hunk.collapsedBefore) i' j')
    (hold : oldLines = i' + gap) (hnew : newLines = j' + gap)
    (hlast : props.diff.hunks.getLast? = some hunk) :
    side.indices (trailingRows props hunk true) = List.range' (side.pick i' j') gap := by
  have hstopOld : hunk.deletionLineIndex + hunk.deletionCount = i' := hspan.stop .old
  have hstopNew : hunk.additionLineIndex + hunk.additionCount = j' := hspan.stop .new
  have hlenOld : props.diff.deletionLines.length = oldLines := he.lines .old
  have hlenNew : props.diff.additionLines.length = newLines := he.lines .new
  rcases Nat.eq_zero_or_pos gap with hz | hpos
  · -- 残りの行が無ければ、後ろの部分は無い。
    have hnone : props.trailing true hunk = none := by
      simp only [IterateOverDiffProps.trailing, hasFinalCollapsedHunk, hlast, hstopOld, hstopNew,
        hlenOld, hlenNew]
      simp [hold, hnew, hz]
    simp [trailingRows, hnone, hz, Side.indices]
  · have hsome : props.trailing true hunk
        = some { fromStart := gap, fromEnd := 0, rangeSize := gap, collapsedLines := 0 } := by
      have hneOld : props.diff.deletionLines ≠ [] := by
        rw [← List.length_pos_iff]
        omega
      have hneNew : props.diff.additionLines ≠ [] := by
        rw [← List.length_pos_iff]
        omega
      have hfinal : hasFinalCollapsedHunk props.diff = true := by
        simp only [hasFinalCollapsedHunk, hlast, he.isPartial, hneOld, hneNew]
        simp
        omega
      have hsize : min (props.diff.additionLines.length
          - (hunk.additionLineIndex + hunk.additionCount)) (props.diff.deletionLines.length
          - (hunk.deletionLineIndex + hunk.deletionCount)) = gap := by
        omega
      simp only [IterateOverDiffProps.trailing, hfinal, hsize, he.expandAll, he.isPartial,
        getExpandedRegion_expandAll, Bool.and_self, if_true]
    have hcursor : side.cursor (hunk.hunkContent.foldl Cursor.advance (.start hunk))
        = side.pick i' j' := by
      rw [cursor_foldl, hspan.content side, ← hspan.stop side]
      cases side <;> rfl
    simp only [trailingRows, hsome, Side.indices, List.filterMap_map]
    refine filterMap_some _ _ _ fun k _ => ?_
    rw [← hcursor]
    cases side <;> rfl

theorem Spans.le (hspan : Spans hunk (i + hunk.collapsedBefore) (j + hunk.collapsedBefore) i' j')
    (side : Side) : side.pick i j ≤ side.pick i' j' := by
  have hstart := hspan.start side
  have hstop := hspan.stop side
  cases side
  · change i ≤ i'
    change _ = i + hunk.collapsedBefore at hstart
    change _ = i' at hstop
    omega
  · change j ≤ j'
    change _ = j + hunk.collapsedBefore at hstart
    change _ = j' at hstop
    omega

theorem Layout.le {hunks : List Hunk} (h : Layout oldLines newLines i j hunks) (side : Side) :
    side.pick i j ≤ side.pick oldLines newLines := by
  induction h with
  | rest gap hold hnew =>
    cases side
    · exact hold ▸ Nat.le_add_right _ _
    · exact hnew ▸ Nat.le_add_right _ _
  | hunk hspan _ _ ih => exact (hspan.le side).trans ih

/-- 全部の行の番号。 -/
theorem indices_allRows (he : Expanded props oldLines newLines) {hunks : List Hunk}
    (h : Layout oldLines newLines i j hunks) : ∀ (hunkIndex : Nat) (pre : List Hunk), hunks ≠ [] →
      props.diff.hunks = pre ++ hunks →
      side.indices (allRows props hunkIndex hunks)
        = List.range' (side.pick i j) (side.pick oldLines newLines - side.pick i j) := by
  induction h with
  | rest => exact fun _ _ hne => absurd rfl hne
  | @hunk i j i' j' hunk rest hspan _ hrest ih =>
    intro hunkIndex pre _ hpre
    have hle := hspan.le side
    have hle' := hrest.le side
    have hfits := he.fits side
    have hbody := indices_body side hunkIndex rest.isEmpty he hspan (by omega)
    rw [allRows, hunkRows, Side.indices_append, Side.indices_append, hbody]
    cases rest with
    | nil =>
      -- 最後の hunk。残りの変わらない行が後ろに並ぶ。
      cases hrest with
      | rest gap hold hnew =>
        have hlast : props.diff.hunks.getLast? = some hunk := by simp [hpre]
        have htotal : side.pick oldLines newLines = side.pick i' j' + gap := by
          cases side
          · exact hold
          · exact hnew
        rw [List.isEmpty_nil, indices_trailingRows he hspan hold hnew hlast, allRows, htotal,
          show gap = side.pick i' j' + gap - side.pick i' j' by omega,
          range'_append_of_le hle (by omega)]
        simp [Side.indices]
    | cons next later =>
      have htrail : trailingRows props hunk (next :: later).isEmpty = [] := by
        simp [trailingRows, IterateOverDiffProps.trailing]
      rw [htrail, ih (hunkIndex + 1) (pre ++ [hunk]) (by simp) (by simp [hpre]), Side.indices,
        List.filterMap_nil, List.append_nil, range'_append_of_le hle hle']

end expanded

/-- hunk の前の行の番号と行番号を作る引き算が、どちらの側でも折り返さない。 -/
def LeadingInRange (hunk : Hunk) : Prop :=
  ∀ side : Side, hunk.collapsedBefore ≤ side.start hunk
    ∧ hunk.collapsedBefore ≤ side.startNumber hunk

theorem Layout.leadingInRange {oldLines newLines i j : Nat} {hunks : List Hunk}
    (h : Layout oldLines newLines i j hunks) : ∀ hunk ∈ hunks, LeadingInRange hunk := by
  induction h with
  | rest => exact fun _ h => absurd h List.not_mem_nil
  | hunk hspan hnum _ ih =>
    intro hunk' hmem
    rcases List.mem_cons.1 hmem with rfl | hmem
    · intro side
      refine ⟨?_, hnum side⟩
      rw [hspan.start side]
      cases side <;> exact Nat.le_add_left _ _
    · exact ih hunk' hmem

theorem length_le_length_flatten : ∀ {ls : List Text}, (∀ l ∈ ls, l ≠ []) →
    ls.length ≤ ls.flatten.length
  | [], _ => Nat.le_refl _
  | l :: ls, h => by
    have ih := length_le_length_flatten fun l' hl' => h l' (List.mem_cons_of_mem _ hl')
    have hl := List.length_pos_iff.2 (h l List.mem_cons_self)
    rw [List.flatten_cons, List.length_append, List.length_cons]
    omega

/-- 行数は本文の長さを超えない。 -/
theorem length_splitLinesKeepNewline_le (content : Text) :
    (splitLinesKeepNewline content).length ≤ content.length := by
  have h := length_le_length_flatten (lined_splitInclusive content).ne_nil
  rwa [flatten_splitInclusive] at h

/-- 全部開いた、窓の無い走査。 -/
def expandAllProps (diff : FileDiffMetadata) (diffStyle : DiffStyle)
    (expandedHunks : Nat → Option HunkExpansionRegion) (collapsedContextThreshold : Nat) :
    IterateOverDiffProps :=
  { diff, diffStyle, startingLine := 0, totalLines := usizeMax, expandedHunks, expandAll := true
    collapsedContextThreshold }

/-- 違う本文の差分を全部開けば、どちらの側の行も番号の順に一度ずつ並ぶ。 -/
theorem indices_expandAll {groupedOps : GroupedOps} {oldName oldContent newName newContent : Text}
    (diffStyle : DiffStyle) (expandedHunks : Nat → Option HunkExpansionRegion) (threshold : Nat)
    (hlayout : Layout (splitLinesKeepNewline oldContent).length
      (splitLinesKeepNewline newContent).length 0 0
      (diffFiles groupedOps oldName oldContent newName newContent).hunks)
    (hhunks : (diffFiles groupedOps oldName oldContent newName newContent).hunks ≠ [])
    (hold : oldContent.length ≤ usizeMax) (hnew : newContent.length ≤ usizeMax) (side : Side) :
    side.indices (iterateOverDiff (expandAllProps
        (diffFiles groupedOps oldName oldContent newName newContent) diffStyle expandedHunks threshold))
      = List.range (side.pick (splitLinesKeepNewline oldContent).length
        (splitLinesKeepNewline newContent).length) := by
  have he : Expanded (expandAllProps
      (diffFiles groupedOps oldName oldContent newName newContent) diffStyle expandedHunks threshold)
      (splitLinesKeepNewline oldContent).length (splitLinesKeepNewline newContent).length := by
    refine ⟨rfl, rfl, ?_, ?_⟩
    · intro side
      cases side <;> rfl
    · intro side
      cases side
      · exact (length_splitLinesKeepNewline_le oldContent).trans hold
      · exact (length_splitLinesKeepNewline_le newContent).trans hnew
  have hevents := iterateOverDiff_whole (expandAllProps
    (diffFiles groupedOps oldName oldContent newName newContent) diffStyle expandedHunks threshold)
  rw [List.range_eq_range']
  refine (congrArg side.indices hevents).trans ((indices_allRows he hlayout 0 [] hhunks rfl).trans ?_)
  cases side <;> rfl

/-- 等しい本文の差分は何も並べない。違う本文の差分を全部開けば、どちらの側の行も番号の順に一度ずつ
並び、行の番号を作る引き算は折り返さない。足し算の溢れる build で panic するときのほかは、どの build でもそうなる。 -/
theorem expandAll_shows_every_line (groupedOps : GroupedOps)
    (oldName oldContent newName newContent : Text) (diffStyle : DiffStyle)
    (expandedHunks : Nat → Option HunkExpansionRegion) (threshold : Nat)
    (hgroups : FromLinesGroups oldContent newContent
      (groupedOps oldContent newContent defaultContext))
    (hold : hasInnerReturn oldContent = false) (hnew : hasInnerReturn newContent = false)
    (holdSize : oldContent.length ≤ usizeMax) (hnewSize : newContent.length ≤ usizeMax) :
    let diff := diffFiles groupedOps oldName oldContent newName newContent
    let run := fun b => iterateOverDiffIn b (expandAllProps diff diffStyle expandedHunks threshold)
    (oldContent = newContent → diff.hunks = [] ∧ ∀ b, run b = some [])
      ∧ (oldContent ≠ newContent → run .wrapping ≠ none ∧ (∀ hunk ∈ diff.hunks, LeadingInRange hunk)
        ∧ ∀ b events, run b = some events →
          Side.old.indices events = List.range (splitLinesKeepNewline oldContent).length
            ∧ Side.new.indices events = List.range (splitLinesKeepNewline newContent).length) := by
  intro diff run
  obtain ⟨hlayout, hnil⟩ := diffFiles_layout oldName newName hgroups hold hnew
  have hrun : ∀ b : Build, b.Gives (run b) _ := fun b => iterateOverDiffIn_gives b _
  constructor
  · intro heq
    have hhunks : diff.hunks = [] := hnil.2 heq
    refine ⟨hhunks, fun b => ?_⟩
    unfold run iterateOverDiffIn
    show (hunkLoopIn b _ 0 diff.hunks _).map Walk.events = _
    rw [hhunks]
    rfl
  · intro hne
    have hindices := indices_expandAll diffStyle expandedHunks threshold hlayout
      (fun h => hne (hnil.1 h)) holdSize hnewSize
    refine ⟨?_, hlayout.leadingInRange, ?_⟩
    · rw [(hrun .wrapping).wrapping]
      exact Option.some_ne_none _
    · intro b events hevents
      rw [(hrun b).eq hevents]
      exact ⟨hindices .old, hindices .new⟩

/-- 七行目だけが変わった二つの本文の差分。 -/
theorem expandAll_shows_every_line_lastLine :
    let old := "1\n2\n3\n4\n5\n6\nx\n".toList
    let new := "1\n2\n3\n4\n5\n6\ny\n".toList
    let groupedOps : GroupedOps := fun _ _ _ => [[.equal 3 3 3, .replace 6 1 6 1]]
    let props := expandAllProps (diffFiles groupedOps [] old [] new) .split (fun _ => none) 1
    FromLinesGroups old new (groupedOps old new defaultContext) ∧ hasInnerReturn old = false
      ∧ hasInnerReturn new = false ∧ old.length ≤ usizeMax ∧ new.length ≤ usizeMax ∧ old ≠ new
      ∧ ∀ b events, iterateOverDiffIn b props = some events →
        Side.old.indices events = List.range 7 ∧ Side.new.indices events = List.range 7 := by
  intro old new groupedOps props
  have hgroups : FromLinesGroups old new (groupedOps old new defaultContext) := by
    refine ⟨.group 3 (by simp) (.cons rfl rfl (.cons rfl rfl (.nil _ _))) (fun _ => rfl)
      (.rest 0 (by decide) (by decide)), ?_, ?_⟩
    · intro group hg i j len hmem k hk
      rw [List.mem_singleton.mp hg] at hmem
      simp only [List.mem_cons, DiffOp.equal.injEq, reduceCtorEq, List.not_mem_nil, or_false] at hmem
      obtain ⟨rfl, rfl, rfl⟩ := hmem
      decide +revert
    · exact iff_of_false (by simp [groupedOps]) (by decide)
  have hold : hasInnerReturn old = false := by decide
  have hnew : hasInnerReturn new = false := by decide
  have holdSize : old.length ≤ usizeMax := by decide
  have hnewSize : new.length ≤ usizeMax := by decide
  have hne : old ≠ new := by decide
  obtain ⟨-, -, hrun⟩ := (expandAll_shows_every_line groupedOps [] old [] new .split
    (fun _ => none) 1 hgroups hold hnew holdSize hnewSize).2 hne
  refine ⟨hgroups, hold, hnew, holdSize, hnewSize, hne, ?_⟩
  intro b events hevents
  obtain ⟨hindices, hindices'⟩ := hrun b events hevents
  exact ⟨hindices.trans (by decide), hindices'.trans (by decide)⟩

/-- 七行目と二十四行目が変わると、二つめの hunk の前の行を数える足し算は、溢れを調べる build では panic する。 -/
example :
    let old := List.replicate 34 '\n'
    let new := List.replicate 6 '\n' ++ 'x' :: List.replicate 17 '\n' ++ 'x' :: List.replicate 11 '\n'
    let groupedOps : GroupedOps := fun _ _ _ =>
      [[.equal 3 3 3, .replace 6 1 6 1, .equal 7 7 3], [.equal 20 20 3, .replace 23 1 23 1, .equal 24 24 3]]
    iterateOverDiffIn .checked (expandAllProps (diffFiles groupedOps [] old [] new) .split
      (fun _ => none) 1) = none := by
  decide

/-- 等しい本文の差分には hunk が無く、全部開いても行は並ばない。 -/
theorem expandAll_hides_identical :
    Side.old.indices (iterateOverDiff (expandAllProps
        (diffFiles (fun _ _ _ => []) [] "a\n".toList [] "a\n".toList) .unified (fun _ => none) 1))
      ≠ List.range (splitLinesKeepNewline "a\n".toList).length := by
  decide

end Cassy.Diffs
