import Cassy.Diffs.Parser

/-!
# `usize` の足し算

見出しの数は patch の書き手が決めるので、その足し算は溢れうる。溢れたときにどうなるかは build による。開発の build では
panic し、release の build では 2⁶⁴ で折り返す。

`Parser` の定義は溢れない足し算で書いてある。ここでは同じ関数を、足し算を build の `+` に替えて書く。`none` は panic で
ある。足し算のうち見出しの数の入るものは次の五つで、ほかは行を一つずつ数えるだけである。

* `split_line_start` と `unified_line_start`
* `split_line_count` と `unified_line_count` の加算
* `addition_start + addition_count`
-/

namespace Cassy.Diffs

open Infra

/-- build の種類。 -/
inductive Build where
  /-- 溢れを調べる。 -/
  | checked
  /-- 折り返す。 -/
  | wrapping
  deriving DecidableEq, Repr

/-- `usize` の `+`。 -/
def Build.add : Build → Nat → Nat → Option Nat
  | checked, a, b => if a + b ≤ usizeMax then some (a + b) else none
  | wrapping, a, b => some (wrappingAdd a b)

/-- hunk の行を順に読む。 -/
def readHunkLines (file : FileDiffMetadata) (contentLines : List Text) : HunkState :=
  (stripBareNewlines contentLines).foldl HunkState.pushLine
    { deletionLines := file.deletionLines, additionLines := file.additionLines
      deletionLineIndex := file.deletionLines.length
      additionLineIndex := file.additionLines.length
      hunkContent := [], current := none, lastLineType := none
      deletionLinesCount := 0, additionLinesCount := 0
      noEofCrDeletions := false, noEofCrAdditions := false }

/-- 見出しの `deletion_count`。 -/
def HunkHeader.deletionCountNumber (header : HunkHeader) : Nat :=
  (header.deletionCount.map (headerNumber 1)).getD 1

/-- 見出しの `addition_start`。 -/
def HunkHeader.additionStartNumber (header : HunkHeader) : Nat := headerNumber 0 header.additionStart

/-- 見出しの `addition_count`。 -/
def HunkHeader.additionCountNumber (header : HunkHeader) : Nat :=
  (header.additionCount.map (headerNumber 1)).getD 1

section build

variable (b : Build)

/-- hunk を一つ読む。 -/
def parseHunkIn (file : FileDiffMetadata) (lastHunkEnd : Nat) (firstLine : Text)
    (header : HunkHeader) (contentLines : List Text) : Option (FileDiffMetadata × Nat) := do
  let deletionStart := headerNumber 0 header.deletionStart
  let deletionCount := (header.deletionCount.map (headerNumber 1)).getD 1
  let additionStart := header.additionStartNumber
  let additionCount := header.additionCountNumber
  let s := readHunkLines file contentLines
  let hunkContent := s.hunkContent ++ s.current.toList
  let collapsedBefore := additionStart - 1 - lastHunkEnd
  let splitLineCount := (computeHunkLineCounts hunkContent).1
  let unifiedLineCount := (computeHunkLineCounts hunkContent).2
  let splitLineStart ← b.add file.splitLineCount collapsedBefore
  let unifiedLineStart ← b.add file.unifiedLineCount collapsedBefore
  let splitTotal ← b.add file.splitLineCount (← b.add collapsedBefore splitLineCount)
  let unifiedTotal ← b.add file.unifiedLineCount (← b.add collapsedBefore unifiedLineCount)
  let hunkEnd ← b.add additionStart additionCount
  let hunk : Hunk :=
    { collapsedBefore, additionStart, additionCount
      additionLines := s.additionLinesCount
      additionLineIndex := file.additionLines.length
      deletionStart, deletionCount
      deletionLines := s.deletionLinesCount
      deletionLineIndex := file.deletionLines.length
      hunkContent, hunkContext := header.context, hunkSpecs := some firstLine
      splitLineStart, splitLineCount, unifiedLineStart, unifiedLineCount
      noEofCrDeletions := s.noEofCrDeletions, noEofCrAdditions := s.noEofCrAdditions }
  some
    ({ file with
        hunks := file.hunks ++ [hunk]
        splitLineCount := splitTotal
        unifiedLineCount := unifiedTotal
        deletionLines := s.deletionLines, additionLines := s.additionLines },
      hunkEnd - 1)

variable (decimal : Char → Bool)

/-- `process_file` の、一つの部分。 -/
def processSectionIn (isGitDiff : Bool) (state : Option FileDiffMetadata × Nat) (part : Text) :
    Option (Option FileDiffMetadata × Nat) :=
  match splitWithNewlines part with
  | [] => some state
  | first :: rest =>
    match state.1, hunkHeader decimal (trimLine first) with
    | none, _ => some (some (parseFileHeader emptyFile (first :: rest) isGitDiff), state.2)
    | some _, none => some state
    | some file, some header =>
      (parseHunkIn b file state.2 (trimLine first) header rest).map fun r => (some r.1, r.2)

/-- `process_file`。 -/
def processFileIn (fileDiff : Text) (isGitDiff : Bool) : Option (Option FileDiffMetadata) :=
  ((splitAtMatches hunkSplit fileDiff).foldlM (processSectionIn b decimal isGitDiff)
    (none, 0)).map fun state => state.1.map (finishFile isGitDiff)

/-- `process_patch`。 -/
def processPatchIn (data : Text) : Option (Option ParsedPatch) :=
  let isGitDiff := isMatch gitDiffFileBreak data
  let fileBreak := if isGitDiff then gitDiffFileBreak else unifiedDiffFileBreak
  let rawFiles := splitAtMatches fileBreak data
  ((rawFiles.filter (isMatch fileBreak)).mapM fun part => processFileIn b decimal part isGitDiff).map
    fun files =>
      some
        { patchMetadata := rawFiles.find? fun part => !isMatch fileBreak part
          files := files.reduceOption }

/-- `parse_patch_files`。 -/
def parsePatchFilesIn (data : Text) : Option (List ParsedPatch) :=
  ((splitAtMatches commitMetadataSplit data).mapM (processPatchIn b decimal)).map List.reduceOption

end build

end Cassy.Diffs
