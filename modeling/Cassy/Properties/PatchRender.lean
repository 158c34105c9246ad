import Cassy.Diffs.Parser
import Cassy.Infra.Lines

/-!
# unified diff を書く

file の変更を、`diff --git` の行の無い unified diff として書き、それを切り分けた結果を求める。読み取った
結果と比べるのは、名前・hunk の見出し・塊ごとの行の文字列である（`FileReading`）。

書かれた行の先頭は `-`・`+`・空白・`@` のどれかなので、commit の切れ目と `diff --git` の行はどこにも
現れない。file の切れ目の pattern は、`---` の見出しのほかに、`-- ` で始まる行や `--` だけの行を消す行にも
一致しうる（`looksLikeBreak`）。
-/

namespace Cassy.Diffs

open Infra

/-! ## 変更 -/

inductive LineKind where
  | context | deletion | addition
  deriving DecidableEq, Repr

/-- hunk の一行。 -/
structure ChangedLine where
  kind : LineKind
  text : Text
  deriving DecidableEq, Repr

/-- hunk。 -/
structure HunkChange where
  deletionStart : Nat
  deletionCount : Nat
  additionStart : Nat
  additionCount : Nat
  context : Option Text
  lines : List ChangedLine
  deriving DecidableEq, Repr

/-- file の変更。作られた file の前の名前と、消された file の後の名前は `/dev/null` である。 -/
structure FileChange where
  oldName : Text
  newName : Text
  hunks : List HunkChange
  deriving DecidableEq, Repr

/-- 一行に収まる文字列。 -/
def OneLine (t : Text) : Prop := '\n' ∉ t ∧ '\r' ∉ t

/-- 見出しに書ける名前。 -/
structure ValidName (name : Text) : Prop where
  nonempty : name ≠ []
  trimmed : trim name = name
  chars : ∀ c ∈ name, isNameChar c = true

/-- 書いて読める hunk。数は `usize` に収まり、文字列は一行に収まる。 -/
structure HunkChange.Valid (h : HunkChange) : Prop where
  deletionStart : h.deletionStart ≤ usizeMax
  deletionCount : h.deletionCount ≤ usizeMax
  additionStart : h.additionStart ≤ usizeMax
  additionCount : h.additionCount ≤ usizeMax
  context : ∀ c, h.context = some c → OneLine c
  lines : ∀ l ∈ h.lines, OneLine l.text

structure FileChange.Valid (f : FileChange) : Prop where
  oldName : ValidName f.oldName
  newName : ValidName f.newName
  hunks : ∀ h ∈ f.hunks, h.Valid

/-! ## 書く -/

def LineKind.marker : LineKind → Char
  | context => ' '
  | deletion => '-'
  | addition => '+'

/-- 改行を除いた行。 -/
def ChangedLine.body (l : ChangedLine) : Text := l.kind.marker :: l.text

def renderLines : List ChangedLine → Text
  | [] => []
  | l :: ls => l.body ++ '\n' :: renderLines ls

/-- hunk の見出し。 -/
def HunkChange.header (h : HunkChange) : Text :=
  hunkSpecsText h.deletionStart h.deletionCount h.additionStart h.additionCount
    ++ (match h.context with
      | none => []
      | some c => ' ' :: c)

def renderHunk (h : HunkChange) : Text := h.header ++ '\n' :: renderLines h.lines

def renderHunks : List HunkChange → Text
  | [] => []
  | h :: hs => renderHunk h ++ renderHunks hs

/-- file の見出し。 -/
def FileChange.header (f : FileChange) : Text :=
  ("--- ".toList ++ f.oldName) ++ '\n' :: (("+++ ".toList ++ f.newName) ++ ['\n'])

def renderFile (f : FileChange) : Text := f.header ++ renderHunks f.hunks

def renderFiles : List FileChange → Text
  | [] => []
  | f :: fs => renderFile f ++ renderFiles fs

/-! ## 読み取った結果 -/

/-- 行の塊の文字列。 -/
inductive Block where
  | context (deletionLines additionLines : List Text)
  | change (deletions additions : List Text)
  deriving DecidableEq, Repr

structure HunkReading where
  deletionStart : Nat
  deletionCount : Nat
  additionStart : Nat
  additionCount : Nat
  context : Option Text
  blocks : List Block
  deriving DecidableEq, Repr

@[ext]
structure FileReading where
  name : Text
  prevName : Option Text
  hunks : List HunkReading
  deriving DecidableEq, Repr

/-- 塊が指す行の文字列。 -/
def HunkContent.block (deletionLines additionLines : List Text) : HunkContent → Block
  | .context c =>
    .context ((deletionLines.drop c.deletionLineIndex).take c.lines)
      ((additionLines.drop c.additionLineIndex).take c.lines)
  | .change c =>
    .change ((deletionLines.drop c.deletionLineIndex).take c.deletions)
      ((additionLines.drop c.additionLineIndex).take c.additions)

def Hunk.reading (deletionLines additionLines : List Text) (h : Hunk) : HunkReading where
  deletionStart := h.deletionStart
  deletionCount := h.deletionCount
  additionStart := h.additionStart
  additionCount := h.additionCount
  context := h.hunkContext
  blocks := h.hunkContent.map (HunkContent.block deletionLines additionLines)

def FileDiffMetadata.reading (f : FileDiffMetadata) : FileReading where
  name := f.name
  prevName := f.prevName
  hunks := f.hunks.map (Hunk.reading f.deletionLines f.additionLines)

/-- 空の行は、改行一つとして読まれる。 -/
def readBack (text : Text) : Text := if text = [] then ['\n'] else text

/-- 行を塊にまとめる。続いた消された行と足された行は、一つの塊になる。 -/
def blocksOf : List ChangedLine → List Block
  | [] => []
  | l :: ls =>
    let text := readBack l.text
    match l.kind, blocksOf ls with
    | .context, .context ds as :: rest => .context (text :: ds) (text :: as) :: rest
    | .context, blocks => .context [text] [text] :: blocks
    | .deletion, .change ds as :: rest => .change (text :: ds) as :: rest
    | .deletion, blocks => .change [text] [] :: blocks
    | .addition, .change ds as :: rest => .change ds (text :: as) :: rest
    | .addition, blocks => .change [] [text] :: blocks

def HunkChange.reading (h : HunkChange) : HunkReading where
  deletionStart := h.deletionStart
  deletionCount := h.deletionCount
  additionStart := h.additionStart
  additionCount := h.additionCount
  context := h.context
  blocks := blocksOf h.lines

/-- 後の名前。消された file では前の名前。 -/
def FileChange.name (f : FileChange) : Text :=
  if f.newName ≠ devNull then f.newName else if f.oldName ≠ devNull then f.oldName else []

def FileChange.reading (f : FileChange) : FileReading where
  name := f.name
  prevName := if f.oldName ≠ devNull ∧ f.oldName ≠ f.name then some f.oldName else none
  hunks := f.hunks.map HunkChange.reading

/-! ## 切れ目に見える行 -/

/-- `text` を消す行に `following` が続くと、file の切れ目に見える。`--` の後が空か空白で始まり、その先に
空白でない文字がある。 -/
def looksLikeBreak (text following : Text) : Bool :=
  match text with
  | '-' :: '-' :: rest =>
    (rest.head?.all isWhitespace) && (rest ++ following).any fun c => !isWhitespace c
  | _ => false

def linesClear (following : Text) : List ChangedLine → Bool
  | [] => true
  | l :: ls =>
    !(l.kind = .deletion && looksLikeBreak l.text (renderLines ls ++ following))
      && linesClear following ls

def hunksClear (following : Text) : List HunkChange → Bool
  | [] => true
  | h :: hs => linesClear (renderHunks hs ++ following) h.lines && hunksClear following hs

/-- 消される行のどれも、file の切れ目に見えない。 -/
def filesClear : List FileChange → Bool
  | [] => true
  | f :: fs => hunksClear (renderFiles fs) f.hunks && filesClear fs

/-!
## 見出しを読む

書いた見出しを読むと、数と名前が元に戻ることを示す。`\d` の表について要るのは、ASCII の範囲で `0` から `9`
だけに当たることである。
-/

/-! ## 行末 -/

theorem reverse_dropWhile_of_not {α : Type} {p : α → Bool} {l : List α}
    (h : ∀ a ∈ l, p a = false) : (l.reverse.dropWhile p).reverse = l := by
  have hdrop : l.reverse.dropWhile p = l.reverse := by
    rw [List.dropWhile_eq_self_iff]
    intro hpos
    rw [h _ (List.mem_reverse.1 (List.getElem_mem hpos))]
    simp
  rw [hdrop, List.reverse_reverse]

theorem trimLine_append_newline {l : Text} (hl : OneLine l) : trimLine (l ++ ['\n']) = l := by
  have h₁ : trimEndMatches (· == '\n') (l ++ ['\n']) = l := by
    have hstep : trimEndMatches (· == '\n') (l ++ ['\n']) = trimEndMatches (· == '\n') l := by
      simp [trimEndMatches]
    rw [hstep]
    refine reverse_dropWhile_of_not fun c hc => ?_
    have hne : c ≠ '\n' := fun he => hl.1 (he ▸ hc)
    simpa using hne
  rw [trimLine, h₁]
  refine reverse_dropWhile_of_not fun c hc => ?_
  have hne : c ≠ '\r' := fun he => hl.2 (he ▸ hc)
  simpa using hne

theorem OneLine.cons {c : Char} {t : Text} (ht : OneLine t) (h : c ≠ '\n') (h' : c ≠ '\r') :
    OneLine (c :: t) := by
  refine ⟨?_, ?_⟩
  · rw [List.mem_cons, not_or]
    exact ⟨Ne.symm h, ht.1⟩
  · rw [List.mem_cons, not_or]
    exact ⟨Ne.symm h', ht.2⟩

theorem OneLine.append {t t' : Text} (ht : OneLine t) (ht' : OneLine t') : OneLine (t ++ t') := by
  refine ⟨?_, ?_⟩
  · rw [List.mem_append, not_or]
    exact ⟨ht.1, ht'.1⟩
  · rw [List.mem_append, not_or]
    exact ⟨ht.2, ht'.2⟩

/-! ## 数 -/

/-- 数の十進表記。 -/
abbrev numberText (n : Nat) : Text := Nat.toDigits 10 n

theorem numberText_ne_nil (n : Nat) : numberText n ≠ [] := Nat.toDigits_ne_nil

theorem oneLine_numberText (n : Nat) : OneLine (numberText n) := by
  refine ⟨fun h => ?_, fun h => ?_⟩
  · exact absurd (isAsciiDigit_of_mem_toDigits h) (by decide)
  · exact absurd (isAsciiDigit_of_mem_toDigits h) (by decide)

theorem headerNumber_numberText {n : Nat} (h : n ≤ usizeMax) (default : Nat) :
    headerNumber default (numberText n) = n := by
  rw [headerNumber, parseUnsigned_toDigits h]
  rfl

section header

variable {decimal : Char → Bool}

/-- 見出しの数を読む。 -/
theorem digits_numberText (hd : ∀ c : Char, c.toNat < 128 → decimal c = isAsciiDigit c) (n : Nat)
    {c : Char} (hc : c.toNat < 128) (hc' : isAsciiDigit c = false) (t : Text) :
    digits decimal (numberText n ++ c :: t) = some (numberText n, c :: t) := by
  have hpos : ∀ c ∈ numberText n, decimal c = true := by
    intro c hc
    have hdigit := isAsciiDigit_of_mem_toDigits hc
    rw [hd c ?_, hdigit]
    simp only [isAsciiDigit, Bool.and_eq_true, decide_eq_true_eq] at hdigit
    have hle : c.toNat ≤ '9'.toNat := hdigit.2
    exact hle.trans_lt (by decide)
  have hneg : ¬ decimal c = true := by rw [hd c hc, hc']; decide
  rw [digits, List.takeWhile_append_of_pos hpos, List.dropWhile_append_of_pos hpos,
    List.takeWhile_cons_of_neg hneg, List.dropWhile_cons_of_neg hneg, List.append_nil,
    if_neg (numberText_ne_nil n)]

theorem lineRange_numberText (hd : ∀ c : Char, c.toNat < 128 → decimal c = isAsciiDigit c)
    (start count : Nat) (t : Text) :
    lineRange decimal (numberText start ++ ',' :: (numberText count ++ ' ' :: t))
      = some (numberText start, some (numberText count), ' ' :: t) := by
  simp only [lineRange, digits_numberText hd start (c := ',') (by decide) (by decide),
    Option.map_some, digits_numberText hd count (c := ' ') (by decide) (by decide)]

/-- 見出しの終わりの文脈。 -/
def contextText : Option Text → Text
  | none => []
  | some c => ' ' :: c

theorem HunkChange.header_eq (h : HunkChange) : h.header
    = '@' :: '@' :: ' ' :: '-' :: (numberText h.deletionStart
        ++ ',' :: (numberText h.deletionCount ++ ' ' :: '+' :: (numberText h.additionStart
          ++ ',' :: (numberText h.additionCount ++ ' ' :: '@' :: '@' :: contextText h.context)))) := by
  unfold HunkChange.header hunkSpecsText contextText
  simp only [Nat.toString_eq_ofList_toDigits]
  cases h.context <;> simp

/-- hunk の見出しを読む。 -/
theorem hunkHeader_header (hd : ∀ c : Char, c.toNat < 128 → decimal c = isAsciiDigit c)
    {h : HunkChange} (hv : h.Valid) : hunkHeader decimal h.header
    = some { deletionStart := numberText h.deletionStart
             deletionCount := some (numberText h.deletionCount)
             additionStart := numberText h.additionStart
             additionCount := some (numberText h.additionCount)
             context := h.context } := by
  simp only [h.header_eq, hunkHeader, lineRange_numberText hd, Option.bind_some]
  cases hc : h.context with
  | none => rfl
  | some c =>
    have hall : ∀ a ∈ c, (decide (a ≠ '\n')) = true := by
      intro a ha
      rw [decide_eq_true_eq]
      rintro rfl
      exact (hv.context c hc).1 ha
    simp only [contextText, List.takeWhile_eq_self_iff.2 hall]

end header

theorem oneLine_header {h : HunkChange} (hv : h.Valid) : OneLine h.header := by
  have hctx : OneLine (contextText h.context) := by
    cases hc : h.context with
    | none => exact ⟨List.not_mem_nil, List.not_mem_nil⟩
    | some c => exact (hv.context c hc).cons (by decide) (by decide)
  have htail : ∀ {t : Text} (c : Char) (n : Nat), c ≠ '\n' → c ≠ '\r' → OneLine t →
      OneLine (numberText n ++ c :: t) := fun c n hn hr ht =>
    (oneLine_numberText n).append (ht.cons hn hr)
  rw [h.header_eq]
  refine OneLine.cons (OneLine.cons (OneLine.cons (OneLine.cons ?_ ?_ ?_) ?_ ?_) ?_ ?_) ?_ ?_ <;>
    try decide
  refine htail _ _ (by decide) (by decide) (htail _ _ (by decide) (by decide) ?_)
  refine OneLine.cons ?_ (by decide) (by decide)
  refine htail _ _ (by decide) (by decide) (htail _ _ (by decide) (by decide) ?_)
  exact (hctx.cons (by decide) (by decide)).cons (by decide) (by decide)

/-! ## 名前 -/

namespace ValidName

variable {name : Text}

theorem oneLine (h : ValidName name) : OneLine name := by
  refine ⟨fun hmem => ?_, fun hmem => ?_⟩
  · exact absurd (h.chars _ hmem) (by decide)
  · exact absurd (h.chars _ hmem) (by decide)

theorem oneLine_marked (h : ValidName name) {c : Char} (hn : c ≠ '\n') (hr : c ≠ '\r') :
    OneLine (c :: c :: c :: ' ' :: name) :=
  (((h.oneLine.cons (by decide) (by decide)).cons hn hr).cons hn hr).cons hn hr

/-- 名前は空白で始まらない。 -/
theorem exists_cons (h : ValidName name) : ∃ c t, name = c :: t ∧ isWhitespace c = false := by
  obtain ⟨c, t, rfl⟩ := List.exists_cons_of_ne_nil h.nonempty
  refine ⟨c, t, rfl, ?_⟩
  by_contra hc
  rw [Bool.not_eq_false] at hc
  have hlen : (trim (c :: t)).length ≤ t.length := by
    rw [trim, trimStart, List.dropWhile_cons_of_pos hc, trimEnd, List.length_reverse]
    refine (List.length_dropWhile_le _ _).trans ?_
    rw [List.length_reverse]
    exact List.length_dropWhile_le _ _
  rw [h.trimmed, List.length_cons] at hlen
  omega

/-- 空白一つの後の名前を読む。 -/
theorem afterSpaces_nameText (h : ValidName name) : afterSpaces (' ' :: name) nameText = some name := by
  have hspaces : (' ' :: name).takeWhile isWhitespace = [' '] := by
    obtain ⟨c, t, rfl, hc⟩ := h.exists_cons
    rw [List.takeWhile_cons_of_pos (by decide), List.takeWhile_cons_of_neg (by simp [hc])]
  have hname : nameText name = some name := by
    rw [nameText, List.takeWhile_eq_self_iff.2 h.chars, if_neg h.nonempty]
  rw [afterSpaces, hspaces]
  simp [hname]

/-- 前の名前の行を読む。 -/
theorem parseFileHeaderLine_old (h : ValidName name) (file : FileDiffMetadata) :
    parseFileHeaderLine false file ("--- ".toList ++ name ++ ['\n'])
      = if name ≠ devNull then { file with prevName := some name, name := name } else file := by
  have hline : trimLine ("--- ".toList ++ name ++ ['\n']) = '-' :: '-' :: '-' :: ' ' :: name :=
    trimLine_append_newline (h.oneLine_marked (by decide) (by decide))
  have hdiff : "diff --git".toList.isPrefixOf ('-' :: '-' :: '-' :: ' ' :: name) = false := rfl
  simp only [parseFileHeaderLine, hline, hdiff, filenameHeader, h.afterSpaces_nameText,
    Option.map_some]
  simp [h.trimmed]

/-- 後の名前の行を読む。 -/
theorem parseFileHeaderLine_new (h : ValidName name) (file : FileDiffMetadata) :
    parseFileHeaderLine false file ("+++ ".toList ++ name ++ ['\n'])
      = if name ≠ devNull then { file with name := name } else file := by
  have hline : trimLine ("+++ ".toList ++ name ++ ['\n']) = '+' :: '+' :: '+' :: ' ' :: name :=
    trimLine_append_newline (h.oneLine_marked (by decide) (by decide))
  have hdiff : "diff --git".toList.isPrefixOf ('+' :: '+' :: '+' :: ' ' :: name) = false := rfl
  simp only [parseFileHeaderLine, hline, hdiff, filenameHeader, h.afterSpaces_nameText,
    Option.map_some]
  simp [h.trimmed]

end ValidName

end Cassy.Diffs
