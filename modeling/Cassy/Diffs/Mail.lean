import Cassy.Diffs.Build
import Cassy.Infra.Cut

/-!
# `git format-patch` の mail

git の書く mail の列。mail は `From <sha>` の行で始まり、見出しと commit の message と diffstat、file ごとの diff が続き、
`-- ` の行と署名で終わる。

hunk の行数は、見出しの数とちょうど合う。message も署名も diff の行に見える行を持たない。git も message の中の `diff -` で
始まる行を diff の始まりと読むので、そのような message は mail にならない。
-/

namespace Cassy.Diffs

open Infra

/-- hunk の行の種類。行の先頭の文字で決まる。 -/
def lineKind (line : Text) : Option HunkLineType := (parseLineType line).map (·.1)

/-- 種類が `kind` の行の数。 -/
def countKind (kind : HunkLineType) (ls : List Text) : Nat := ls.countP fun l => lineKind l = some kind

/-- 行の数が見出しの数と合う。 -/
def HunkHeader.Counts (header : HunkHeader) (body : List Text) : Prop :=
  countKind .context body + countKind .deletion body = header.deletionCountNumber
    ∧ countKind .context body + countKind .addition body = header.additionCountNumber

/-- diff の構造に見えない行。 -/
structure Unmarked (line : Text) : Prop where
  noNewline : '\n' ∉ line
  notCommit : commitMetadataSplit line = none
  notFile : gitDiffFileBreak line = none

/-- mail の hunk。 -/
structure MailHunk (decimal : Char → Bool) where
  headerLine : Text
  header : HunkHeader
  body : List Text
  oneLine : '\n' ∉ headerLine ∧ '\r' ∉ headerLine
  read : hunkHeader decimal headerLine = some header
  marked : ∀ l ∈ body, '\n' ∉ l ∧ (lineKind l).isSome = true
  counts : header.Counts body

/-- mail の file。 -/
structure MailFile (decimal : Char → Bool) where
  diffLine : Text
  isDiff : '\n' ∉ diffLine ∧ (gitDiffFileBreak diffLine).isSome = true
  headerLines : List Text
  plain : ∀ l ∈ headerLines, Unmarked l ∧ hunkSplit l = none
  hunks : List (MailHunk decimal)

/-- mail。file の無い mail の message は、hunk の見出しに見える行も持たない。 -/
structure Mail (decimal : Char → Bool) where
  fromLine : Text
  isFrom : '\n' ∉ fromLine ∧ (commitMetadataSplit fromLine).isSome = true
  preamble : List Text
  plain : ∀ l ∈ preamble, Unmarked l
  files : List (MailFile decimal)
  coverLetter : files = [] → ∀ l ∈ preamble, hunkSplit l = none
  signature : List Text
  signed : ∀ l ∈ signature, Unmarked l ∧ hunkSplit l = none

section lines

variable {decimal : Char → Bool}

/-- hunk の行。 -/
def MailHunk.lines (h : MailHunk decimal) : List Text := h.headerLine :: h.body

/-- file の行。 -/
def MailFile.lines (f : MailFile decimal) : List Text :=
  f.diffLine :: (f.headerLines ++ (f.hunks.map MailHunk.lines).flatten)

namespace Mail

variable (m : Mail decimal)

/-- `-- ` の行と署名。 -/
def trailer : List Text := "-- ".toList :: m.signature

/-- mail の行。 -/
def lines : List Text :=
  (m.fromLine :: m.preamble) ++ ((m.files.map MailFile.lines).flatten ++ m.trailer)

end Mail

/-- mail の列の text。 -/
def mailText (mails : List (Mail decimal)) : Text := unlines (mails.map Mail.lines).flatten

end lines

/-- 変わっていない行の数。 -/
def Hunk.contextTotal (h : Hunk) : Nat :=
  (h.hunkContent.map fun
    | .context c => c.lines
    | .change _ => 0).sum

/-- 変わっていない行と消された行・足された行の数が、見出しの数と合う。 -/
def Hunk.Exact (h : Hunk) : Prop :=
  h.contextTotal + h.deletionLines = h.deletionCount ∧ h.contextTotal + h.additionLines = h.additionCount

end Cassy.Diffs
