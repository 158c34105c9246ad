import Cassy.Diffs.Files
import Cassy.Infra.Cut

/-!
# patch を読む

`parser.rs`。patch を commit ごと、file ごと、hunk ごとに切り分け、行を一つずつ読む。切り分けはどれも、
行の先頭の pattern で行う。file の切れ目の pattern `^---\s+\S` は、hunk の中身を読む前に試される。

正規表現は、一致の長さか捕獲を返す関数として、pattern ごとに書く。`\s` は `White_Space` で改行も含み、
`.` は改行のほかの文字である。`\d` は Unicode の十進数字で、その表は crate `regex` のものなので、引数
`decimal` として受け取る。
-/

namespace Cassy.Diffs

open Infra

/-! ## pattern -/

/-- `COMMIT_METADATA_SPLIT`：`^From [a-f0-9]+ .+$`。 -/
def commitMetadataSplit : Text → Option Nat
  | 'F' :: 'r' :: 'o' :: 'm' :: ' ' :: t =>
    let hex := t.takeWhile fun c => ('a' ≤ c && c ≤ 'f') || ('0' ≤ c && c ≤ '9')
    match t.drop hex.length with
    | ' ' :: rest =>
      let line := rest.takeWhile (· ≠ '\n')
      if hex = [] ∨ line = [] then none else some (5 + hex.length + 1 + line.length)
    | _ => none
  | _ => none

/-- `GIT_DIFF_FILE_BREAK`：`^diff --git `。 -/
def gitDiffFileBreak : Text → Option Nat
  | 'd' :: 'i' :: 'f' :: 'f' :: ' ' :: '-' :: '-' :: 'g' :: 'i' :: 't' :: ' ' :: _ => some 11
  | _ => none

/-- `UNIFIED_DIFF_FILE_BREAK`：`^---\s+\S`。 -/
def unifiedDiffFileBreak : Text → Option Nat
  | '-' :: '-' :: '-' :: t =>
    let space := t.takeWhile isWhitespace
    if space = [] ∨ t.dropWhile isWhitespace = [] then none else some (3 + space.length + 1)
  | _ => none

/-- `HUNK_SPLIT`：`^@@ `。 -/
def hunkSplit : Text → Option Nat
  | '@' :: '@' :: ' ' :: _ => some 3
  | _ => none

/-- `HUNK_HEADER` の捕獲。 -/
structure HunkHeader where
  deletionStart : Text
  deletionCount : Option Text
  additionStart : Text
  additionCount : Option Text
  context : Option Text
  deriving DecidableEq, Repr

section header

variable (decimal : Char → Bool)

/-- `\d+`。 -/
def digits (t : Text) : Option (Text × Text) :=
  if t.takeWhile decimal = [] then none
  else some (t.takeWhile decimal, t.dropWhile decimal)

/-- `(\d+)(?:,(\d+))?`。 -/
def lineRange (t : Text) : Option (Text × Option Text × Text) :=
  (digits decimal t).map fun (start, rest) =>
    match rest with
    | ',' :: rest' =>
      match digits decimal rest' with
      | some (count, rest'') => (start, some count, rest'')
      | none => (start, none, rest)
    | _ => (start, none, rest)

/-- `HUNK_HEADER`：`^@@ -(\d+)(?:,(\d+))? \+(\d+)(?:,(\d+))? @@(?: (.*))?`。 -/
def hunkHeader : Text → Option HunkHeader
  | '@' :: '@' :: ' ' :: '-' :: t =>
    (lineRange decimal t).bind fun (deletionStart, deletionCount, t) =>
      match t with
      | ' ' :: '+' :: t =>
        (lineRange decimal t).bind fun (additionStart, additionCount, t) =>
          match t with
          | ' ' :: '@' :: '@' :: t =>
            let context := match t with
              | ' ' :: rest => some (rest.takeWhile (· ≠ '\n'))
              | _ => none
            some { deletionStart, deletionCount, additionStart, additionCount, context }
          | _ => none
      | _ => none
  | _ => none

end header

/-- `[^\t\r\n]`。 -/
def isNameChar (c : Char) : Bool := c ≠ '\t' && c ≠ '\r' && c ≠ '\n'

/-- `\s+` が取る空白を、長い方から順に試す。 -/
def afterSpaces {α : Type} (t : Text) (f : Text → Option α) : Option α :=
  (List.range' 1 (t.takeWhile isWhitespace).length).reverse.findSome? fun k => f (t.drop k)

/-- `[^\t\r\n]+`。 -/
def nameText (t : Text) : Option Text :=
  if t.takeWhile isNameChar = [] then none else some (t.takeWhile isNameChar)

/-- `FILENAME_HEADER`：`^(---|\+\+\+)\s+([^\t\r\n]+)`。最初の成分は `---` か。 -/
def filenameHeader : Text → Option (Bool × Text)
  | '-' :: '-' :: '-' :: t => (afterSpaces t nameText).map (true, ·)
  | '+' :: '+' :: '+' :: t => (afterSpaces t nameText).map (false, ·)
  | _ => none

/-- `[ab]/([^\t\r\n]+)`。 -/
def gitNameText : Text → Option Text
  | side :: '/' :: t => if side = 'a' ∨ side = 'b' then nameText t else none
  | _ => none

/-- `FILENAME_HEADER_GIT`：`^(---|\+\+\+)\s+[ab]/([^\t\r\n]+)`。 -/
def filenameHeaderGit : Text → Option (Bool × Text)
  | '-' :: '-' :: '-' :: t => (afterSpaces t gitNameText).map (true, ·)
  | '+' :: '+' :: '+' :: t => (afterSpaces t gitNameText).map (false, ·)
  | _ => none

/-- `(?:"b/(.+?)"|b/(.+?))$`。 -/
def alternateName : Text → Option Text
  | '"' :: 'b' :: '/' :: t =>
    if 2 ≤ t.length ∧ t.getLast? = some '"' then some t.dropLast else none
  | 'b' :: '/' :: t => if t = [] then none else some t
  | _ => none

/-- `ALTERNATE_FILE_NAMES_GIT`。`.+?` は短い方から順に試す。 -/
def alternateFileNamesGit (line : Text) : Option (Text × Text) :=
  match gitDiffFileBreak line, line.drop 11 with
  | some _, '"' :: 'a' :: '/' :: t =>
    (List.range' 1 t.length).findSome? fun k =>
      match t.drop k with
      | '"' :: ' ' :: rest => (alternateName rest).map (t.take k, ·)
      | _ => none
  | some _, 'a' :: '/' :: t =>
    (List.range' 1 t.length).findSome? fun k =>
      match t.drop k with
      | ' ' :: rest => (alternateName rest).map (t.take k, ·)
      | _ => none
  | _, _ => none

/-! ## 行 -/

/-- `parse_line_type`。 -/
def parseLineType (raw : Text) : Option (HunkLineType × Text) :=
  let line := fun rest : Text => if rest = [] then ['\n'] else rest
  match raw with
  | ' ' :: rest => some (.context, line rest)
  | '+' :: rest => some (.addition, line rest)
  | '-' :: rest => some (.deletion, line rest)
  | '\\' :: rest => some (.metadata, line rest)
  | _ => none

/-- `clean_last_newline`。 -/
def cleanLastNewline (s : Text) : Text := stripLineEnd s

/-- `split_at_matches`。空の入力は、空の部分一つになる。 -/
def splitAtMatches (re : Text → Option Nat) (input : Text) : List Text :=
  if cut re input = [] then [input] else cut re input

/-- `Regex::is_match`。 -/
def isMatch (re : Text → Option Nat) (input : Text) : Bool := matchGo re true input

/-- `split_with_newlines`。 -/
def splitWithNewlines (input : Text) : List Text := splitInclusive input

/-- 行末の改行と、その前の復帰を落とす。 -/
def trimLine (line : Text) : Text := trimEndMatches (· == '\r') (trimEndMatches (· == '\n') line)

/-! ## file の見出し -/

def devNull : Text := "/dev/null".toList

/-- `parse_git_metadata_line`。 -/
def parseGitMetadataLine (file : FileDiffMetadata) (line : Text) : FileDiffMetadata :=
  if "new file mode".toList.isPrefixOf line then { file with changeType := .new }
  else if "deleted file mode".toList.isPrefixOf line then { file with changeType := .deleted }
  else if "similarity index 100%".toList.isPrefixOf line then
    { file with changeType := .renamePure }
  else if "similarity index".toList.isPrefixOf line then { file with changeType := .renameChanged }
  else if "rename from ".toList.isPrefixOf line then
    { file with prevName := some (line.drop "rename from ".toList.length) }
  else if "rename to ".toList.isPrefixOf line then
    { file with name := trim (line.drop "rename to ".toList.length) }
  else file

/-- `parse_file_header` の一行。 -/
def parseFileHeaderLine (isGitDiff : Bool) (file : FileDiffMetadata) (rawLine : Text) :
    FileDiffMetadata :=
  let line := trimLine rawLine
  if "diff --git".toList.isPrefixOf line then
    match alternateFileNamesGit (trim line) with
    | none => file
    | some (prevName, name) =>
      let file := { file with name := trim name }
      if trim prevName ≠ trim name then { file with prevName := some (trim prevName) } else file
  else
    match if isGitDiff then filenameHeaderGit line else filenameHeader line with
    | some (isOld, captured) =>
      let filename := trim captured
      if isOld ∧ filename ≠ devNull then
        { file with prevName := some filename, name := filename }
      else if ¬ isOld ∧ filename ≠ devNull then { file with name := filename }
      else file
    | none => if isGitDiff then parseGitMetadataLine file line else file

/-- `parse_file_header`。 -/
def parseFileHeader (file : FileDiffMetadata) (lines : List Text) (isGitDiff : Bool) :
    FileDiffMetadata :=
  lines.foldl (parseFileHeaderLine isGitDiff) file

/-! ## hunk の中身 -/

/-- hunk の行を順に読んでいる間の状態。`current` はまだ閉じていない塊。 -/
structure HunkState where
  deletionLines : List Text
  additionLines : List Text
  deletionLineIndex : Nat
  additionLineIndex : Nat
  hunkContent : List HunkContent
  current : Option HunkContent
  lastLineType : Option HunkLineType
  deletionLinesCount : Nat
  additionLinesCount : Nat
  noEofCrDeletions : Bool
  noEofCrAdditions : Bool

namespace HunkState

variable (s : HunkState)

/-- 変わった行の塊を開く。開いていればそのまま。 -/
def openChange : HunkState :=
  match s.current with
  | some (.change _) => s
  | _ =>
    { s with
      hunkContent := s.hunkContent ++ s.current.toList
      current := some (.change { deletions := 0, deletionLineIndex := s.deletionLineIndex
                                 additions := 0, additionLineIndex := s.additionLineIndex }) }

/-- 変わっていない行の塊を開く。開いていればそのまま。 -/
def openContext : HunkState :=
  match s.current with
  | some (.context _) => s
  | _ =>
    { s with
      hunkContent := s.hunkContent ++ s.current.toList
      current := some (.context { lines := 0, additionLineIndex := s.additionLineIndex
                                  deletionLineIndex := s.deletionLineIndex }) }

/-- 足された行。 -/
def pushAddition (line : Text) : HunkState :=
  let s := s.openChange
  { s with
    additionLineIndex := s.additionLineIndex + 1
    additionLines := s.additionLines ++ [line]
    current := s.current.map fun
      | .change c => .change { c with additions := c.additions + 1 }
      | c => c
    additionLinesCount := s.additionLinesCount + 1
    lastLineType := some .addition }

/-- 消された行。 -/
def pushDeletion (line : Text) : HunkState :=
  let s := s.openChange
  { s with
    deletionLineIndex := s.deletionLineIndex + 1
    deletionLines := s.deletionLines ++ [line]
    current := s.current.map fun
      | .change c => .change { c with deletions := c.deletions + 1 }
      | c => c
    deletionLinesCount := s.deletionLinesCount + 1
    lastLineType := some .deletion }

/-- 変わっていない行。 -/
def pushContext (line : Text) : HunkState :=
  let s := s.openContext
  { s with
    additionLineIndex := s.additionLineIndex + 1
    deletionLineIndex := s.deletionLineIndex + 1
    deletionLines := s.deletionLines ++ [line]
    additionLines := s.additionLines ++ [line]
    current := s.current.map fun
      | .context c => .context { c with lines := c.lines + 1 }
      | c => c
    lastLineType := some .context }

/-- 最後の行の改行を落とす。 -/
def cleanLast (lines : List Text) : List Text :=
  match lines.getLast? with
  | none => lines
  | some last => lines.dropLast ++ [cleanLastNewline last]

/-- `\ No newline at end of file`。 -/
def pushMetadata : HunkState :=
  let deletion : Bool := s.lastLineType = some .deletion ∨ s.lastLineType = some .context
  let addition : Bool := s.lastLineType = some .addition ∨ s.lastLineType = some .context
  { s with
    noEofCrDeletions := s.noEofCrDeletions || deletion
    noEofCrAdditions := s.noEofCrAdditions || addition
    deletionLines := if deletion then cleanLast s.deletionLines else s.deletionLines
    additionLines := if addition then cleanLast s.additionLines else s.additionLines }

/-- 一行を読む。種類の分からない行は飛ばす。 -/
def pushLine (rawLine : Text) : HunkState :=
  match parseLineType (trimLine rawLine) with
  | some (.addition, line) => s.pushAddition line
  | some (.deletion, line) => s.pushDeletion line
  | some (.context, line) => s.pushContext line
  | some (.metadata, _) => s.pushMetadata
  | _ => s

end HunkState

/-- 終わりの空行を落とす。 -/
def stripBareNewlines (lines : List Text) : List Text :=
  (lines.reverse.dropWhile fun line =>
    trimEndMatches (· == '\r') line = [] ∨ trimEndMatches (· == '\r') line = ['\n']).reverse

/-- 見出しの数。溢れれば `default`。 -/
def headerNumber (default : Nat) (t : Text) : Nat := (parseUnsigned usizeMax t).getD default

/-- hunk を一つ読む。 -/
def parseHunk (file : FileDiffMetadata) (lastHunkEnd : Nat) (firstLine : Text)
    (header : HunkHeader) (contentLines : List Text) : FileDiffMetadata × Nat :=
  let deletionStart := headerNumber 0 header.deletionStart
  let deletionCount := (header.deletionCount.map (headerNumber 1)).getD 1
  let additionStart := headerNumber 0 header.additionStart
  let additionCount := (header.additionCount.map (headerNumber 1)).getD 1
  -- 番号は patch にある行だけを数えたものである。
  let s := (stripBareNewlines contentLines).foldl HunkState.pushLine
    { deletionLines := file.deletionLines, additionLines := file.additionLines
      deletionLineIndex := file.deletionLines.length
      additionLineIndex := file.additionLines.length
      hunkContent := [], current := none, lastLineType := none
      deletionLinesCount := 0, additionLinesCount := 0
      noEofCrDeletions := false, noEofCrAdditions := false }
  let hunkContent := s.hunkContent ++ s.current.toList
  let collapsedBefore := additionStart - 1 - lastHunkEnd
  let splitLineCount := (computeHunkLineCounts hunkContent).1
  let unifiedLineCount := (computeHunkLineCounts hunkContent).2
  let hunk : Hunk :=
    { collapsedBefore, additionStart, additionCount
      additionLines := s.additionLinesCount
      additionLineIndex := file.additionLines.length
      deletionStart, deletionCount
      deletionLines := s.deletionLinesCount
      deletionLineIndex := file.deletionLines.length
      hunkContent, hunkContext := header.context, hunkSpecs := some firstLine
      splitLineStart := file.splitLineCount + collapsedBefore, splitLineCount
      unifiedLineStart := file.unifiedLineCount + collapsedBefore, unifiedLineCount
      noEofCrDeletions := s.noEofCrDeletions, noEofCrAdditions := s.noEofCrAdditions }
  ({ file with
      hunks := file.hunks ++ [hunk]
      splitLineCount := file.splitLineCount + (collapsedBefore + splitLineCount)
      unifiedLineCount := file.unifiedLineCount + (collapsedBefore + unifiedLineCount)
      deletionLines := s.deletionLines, additionLines := s.additionLines },
    additionStart + additionCount - 1)

/-! ## file と patch -/

/-- 何も読んでいない file。 -/
def emptyFile : FileDiffMetadata where
  name := []
  prevName := none
  changeType := .change
  hunks := []
  splitLineCount := 0
  unifiedLineCount := 0
  isPartial := true
  deletionLines := []
  additionLines := []

section patch

variable (decimal : Char → Bool)

/-- `process_file` の、一つの部分。最初の部分は file の見出しで、見出しの合わない後の部分は飛ばす。 -/
def processSection (isGitDiff : Bool) (state : Option FileDiffMetadata × Nat) (part : Text) :
    Option FileDiffMetadata × Nat :=
  match splitWithNewlines part with
  | [] => state
  | first :: rest =>
    match state.1, hunkHeader decimal (trimLine first) with
    | none, _ => (some (parseFileHeader emptyFile (first :: rest) isGitDiff), state.2)
    | some _, none => state
    | some file, some header =>
      let r := parseHunk file state.2 (trimLine first) header rest
      (some r.1, r.2)

/-- `process_file` の終わり。名前の変更を種類に写し、変更でなければ前の名前を消す。 -/
def finishFile (isGitDiff : Bool) (file : FileDiffMetadata) : FileDiffMetadata :=
  let file := match file.prevName with
    | some prev =>
      if !isGitDiff ∧ prev ≠ file.name then
        { file with changeType := if file.hunks = [] then .renamePure else .renameChanged }
      else file
    | none => file
  if file.changeType = .renamePure ∨ file.changeType = .renameChanged then file
  else { file with prevName := none }

/-- `process_file`。 -/
def processFile (fileDiff : Text) (isGitDiff : Bool) : Option FileDiffMetadata :=
  ((splitAtMatches hunkSplit fileDiff).foldl (processSection decimal isGitDiff)
    (none, 0)).1.map (finishFile isGitDiff)

/-- `process_patch`。 -/
def processPatch (data : Text) : Option ParsedPatch :=
  let isGitDiff := isMatch gitDiffFileBreak data
  let fileBreak := if isGitDiff then gitDiffFileBreak else unifiedDiffFileBreak
  let rawFiles := splitAtMatches fileBreak data
  some
    { patchMetadata := rawFiles.find? fun part => !isMatch fileBreak part
      files := (rawFiles.filter (isMatch fileBreak)).filterMap fun part =>
        processFile decimal part isGitDiff }

/-- `parse_patch_files`。 -/
def parsePatchFiles (data : Text) : List ParsedPatch :=
  (splitAtMatches commitMetadataSplit data).filterMap (processPatch decimal)

end patch

end Cassy.Diffs
