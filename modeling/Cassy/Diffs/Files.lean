import Cassy.Diffs.Types

/-!
# 二つの本文の差分を作る

`diff_files.rs` の `diff_files`。crate `similar` の `TextDiff::from_lines(old, new).grouped_ops(n)` が
返す操作の組を読み、組ごとに一つの hunk を作る。`similar` は外の crate なので、その呼び出しは引数
`groupedOps` として受け取る。

hunk の `split_line_start`・`unified_line_start` には、それまでの hunk の行数だけが入り、畳まれた行は
数えられない。`parser.rs` の同じ欄は畳まれた行も数える。
-/

namespace Cassy.Diffs

open Infra

/-- `DEFAULT_CONTEXT`。 -/
def defaultContext : Nat := 3

/-- `similar::DiffOp`。 -/
inductive DiffOp where
  | equal (oldIndex newIndex len : Nat)
  | delete (oldIndex oldLen newIndex : Nat)
  | insert (oldIndex newIndex newLen : Nat)
  | replace (oldIndex oldLen newIndex newLen : Nat)
  deriving DecidableEq, Repr

namespace DiffOp

/-- `op_old_start`。 -/
def oldStart : DiffOp → Nat
  | equal oldIndex _ _ | delete oldIndex _ _ | insert oldIndex _ _ | replace oldIndex _ _ _ =>
    oldIndex

/-- `op_old_end`。 -/
def oldEnd : DiffOp → Nat
  | equal oldIndex _ len => oldIndex + len
  | delete oldIndex oldLen _ => oldIndex + oldLen
  | insert oldIndex _ _ => oldIndex
  | replace oldIndex oldLen _ _ => oldIndex + oldLen

/-- `op_new_start`。 -/
def newStart : DiffOp → Nat
  | equal _ newIndex _ | delete _ _ newIndex | insert _ newIndex _ | replace _ _ newIndex _ =>
    newIndex

/-- `op_new_end`。 -/
def newEnd : DiffOp → Nat
  | equal _ newIndex len => newIndex + len
  | delete _ _ newIndex => newIndex
  | insert _ newIndex newLen => newIndex + newLen
  | replace _ _ newIndex newLen => newIndex + newLen

/-- 操作の写し。 -/
def content : DiffOp → HunkContent
  | equal oldIndex newIndex len =>
    .context { lines := len, deletionLineIndex := oldIndex, additionLineIndex := newIndex }
  | delete oldIndex oldLen newIndex =>
    .change { deletions := oldLen, deletionLineIndex := oldIndex
              additions := 0, additionLineIndex := newIndex }
  | insert oldIndex newIndex newLen =>
    .change { deletions := 0, deletionLineIndex := oldIndex
              additions := newLen, additionLineIndex := newIndex }
  | replace oldIndex oldLen newIndex newLen =>
    .change { deletions := oldLen, deletionLineIndex := oldIndex
              additions := newLen, additionLineIndex := newIndex }

/-- 消される行数。 -/
def deleted : DiffOp → Nat
  | equal .. | insert .. => 0
  | delete _ oldLen _ | replace _ oldLen _ _ => oldLen

/-- 足される行数。 -/
def inserted : DiffOp → Nat
  | equal .. | delete .. => 0
  | insert _ _ newLen | replace _ _ _ newLen => newLen

end DiffOp

/-- `TextDiff::from_lines(old, new).grouped_ops(n)`。 -/
abbrev GroupedOps := Text → Text → Nat → List (List DiffOp)

/-- 塊が `split` で占める行数。 -/
def HunkContent.splitHeight : HunkContent → Nat
  | .context c => c.lines
  | .change c => max c.deletions c.additions

/-- 塊が `unified` で占める行数。 -/
def HunkContent.unifiedHeight : HunkContent → Nat
  | .context c => c.lines
  | .change c => c.deletions + c.additions

/-- `compute_hunk_line_counts`。 -/
def computeHunkLineCounts (content : List HunkContent) : Nat × Nat :=
  ((content.map HunkContent.splitHeight).sum, (content.map HunkContent.unifiedHeight).sum)

/-- `split_lines_keep_newline`。 -/
def splitLinesKeepNewline (content : Text) : List Text := splitInclusive content

/-- `determine_change_type`。 -/
def determineChangeType (oldName oldContent newName newContent : Text) : ChangeType :=
  if oldContent.isEmpty && !newContent.isEmpty then .new
  else if !oldContent.isEmpty && newContent.isEmpty then .deleted
  else
    match (oldName ≠ newName : Bool), (oldContent ≠ newContent : Bool) with
    | true, true => .renameChanged
    | true, false => .renamePure
    | false, _ => .change

/-- `hunk_specs` の文字列。 -/
def hunkSpecsText (deletionStart deletionCount additionStart additionCount : Nat) : Text :=
  "@@ -".toList ++ (toString deletionStart).toList ++ ",".toList
    ++ (toString deletionCount).toList ++ " +".toList ++ (toString additionStart).toList
    ++ ",".toList ++ (toString additionCount).toList ++ " @@".toList

/-- 本文が改行で終わっていない。 -/
def noEof (content : Text) : Bool := !content.isEmpty && content.getLast? != some '\n'

/-- 組を順に読んでいる間の状態。 -/
structure GroupState where
  hunks : List Hunk
  splitTotal : Nat
  unifiedTotal : Nat
  prevHunkOldEnd : Nat

/-- 組から作る hunk。`isLastGroup` の組だけが、改行の無い終わりを持ちうる。 -/
def groupHunk (oldNoEof newNoEof isLastGroup : Bool) (s : GroupState) (group : List DiffOp)
    (firstOp lastOp : DiffOp) : Hunk :=
  let hunkContent := group.map DiffOp.content
  let deletionCount := lastOp.oldEnd - firstOp.oldStart
  let additionCount := lastOp.newEnd - firstOp.newStart
  -- 行番号は 1 から数える。行の無い側では 0。
  let deletionStart := if deletionCount = 0 then 0 else firstOp.oldStart + 1
  let additionStart := if additionCount = 0 then 0 else firstOp.newStart + 1
  { collapsedBefore := firstOp.oldStart - s.prevHunkOldEnd
    additionStart, additionCount
    additionLines := (group.map DiffOp.inserted).sum
    additionLineIndex := firstOp.newStart
    deletionStart, deletionCount
    deletionLines := (group.map DiffOp.deleted).sum
    deletionLineIndex := firstOp.oldStart
    hunkContent, hunkContext := none
    hunkSpecs := some (hunkSpecsText deletionStart deletionCount additionStart additionCount)
    splitLineStart := s.splitTotal
    splitLineCount := (computeHunkLineCounts hunkContent).1
    unifiedLineStart := s.unifiedTotal
    unifiedLineCount := (computeHunkLineCounts hunkContent).2
    noEofCrDeletions := if isLastGroup then oldNoEof else false
    noEofCrAdditions := if isLastGroup then newNoEof else false }

/-- 組を一つ読む。空の組は飛ばす。 -/
def groupStep (oldNoEof newNoEof isLastGroup : Bool) (s : GroupState) (group : List DiffOp) :
    GroupState :=
  match group.head?, group.getLast? with
  | some firstOp, some lastOp =>
    let hunk := groupHunk oldNoEof newNoEof isLastGroup s group firstOp lastOp
    { hunks := s.hunks ++ [hunk]
      splitTotal := s.splitTotal + hunk.splitLineCount
      unifiedTotal := s.unifiedTotal + hunk.unifiedLineCount
      prevHunkOldEnd := lastOp.oldEnd }
  | _, _ => s

/-- 組を順に読む。 -/
def groupLoop (oldNoEof newNoEof : Bool) : List (List DiffOp) → GroupState → GroupState
  | [], s => s
  | group :: rest, s =>
    groupLoop oldNoEof newNoEof rest (groupStep oldNoEof newNoEof rest.isEmpty s group)

/-- `diff_files`。 -/
def diffFiles (groupedOps : GroupedOps) (oldName oldContent newName newContent : Text) :
    FileDiffMetadata :=
  let final := groupLoop (noEof oldContent) (noEof newContent)
    (groupedOps oldContent newContent defaultContext)
    { hunks := [], splitTotal := 0, unifiedTotal := 0, prevHunkOldEnd := 0 }
  { name := newName
    prevName := if oldName ≠ newName then some oldName else none
    changeType := determineChangeType oldName oldContent newName newContent
    hunks := final.hunks
    splitLineCount := final.splitTotal
    unifiedLineCount := final.unifiedTotal
    isPartial := false
    deletionLines := splitLinesKeepNewline oldContent
    additionLines := splitLinesKeepNewline newContent }

end Cassy.Diffs
