import Mathlib.Data.List.Basic
import Mathlib.Tactic.Common

/-!
# 文字列の部品

`str` の操作のうち、モデルが使うものを文字の列の上に書く。Lean の `Char.isWhitespace` は
ASCII の四文字しか空白と見ないので、Unicode の `White_Space` をここで定義し直す。
-/

namespace Cassy.Infra

/-- 文字の列としての文字列。 -/
abbrev Text := List Char

instance : LawfulBEq Text := List.instLawfulBEq

/-- `char::is_whitespace`。Unicode の `White_Space` 属性である。 -/
def isWhitespace (c : Char) : Bool :=
  let n := c.toNat
  (0x9 ≤ n && n ≤ 0xD) || n == 0x20 || n == 0x85 || n == 0xA0 || n == 0x1680
    || (0x2000 ≤ n && n ≤ 0x200A) || n == 0x2028 || n == 0x2029 || n == 0x202F
    || n == 0x205F || n == 0x3000

/-- `str::trim_start`。 -/
def trimStart (t : Text) : Text := t.dropWhile isWhitespace

/-- `str::trim_end`。 -/
def trimEnd (t : Text) : Text := (t.reverse.dropWhile isWhitespace).reverse

/-- `str::trim`。 -/
def trim (t : Text) : Text := trimEnd (trimStart t)

/-- `str::trim_end_matches`。 -/
def trimEndMatches (p : Char → Bool) (t : Text) : Text := (t.reverse.dropWhile p).reverse

/-- `trim().is_empty()` の否定。空白しかない文字列は値が無いものとして扱われる。 -/
def nonBlank (s : String) : Bool := !(trim s.toList).isEmpty

/-- `u8::to_ascii_lowercase`。 -/
def toAsciiLower (c : Char) : Char :=
  if 'A' ≤ c ∧ c ≤ 'Z' then Char.ofNat (c.toNat + 32) else c

/-- `str::eq_ignore_ascii_case`。 -/
def eqIgnoreAsciiCase (s t : Text) : Bool := s.map toAsciiLower == t.map toAsciiLower

/-! ## 行 -/

/-- `str::split_inclusive('\n')`。行末の改行は行に含める。 -/
def splitInclusive : Text → List Text
  | [] => []
  | c :: cs =>
    if c = '\n' then [c] :: splitInclusive cs
    else match splitInclusive cs with
      | [] => [[c]]
      | l :: ls => (c :: l) :: ls

/-- `str::lines` が行末から落とすもの。改行と、その直前の復帰一つである。 -/
def stripLineEnd (l : Text) : Text :=
  if l.getLast? = some '\n' then
    if l.dropLast.getLast? = some '\r' then l.dropLast.dropLast else l.dropLast
  else l

/-- `str::lines`。最後の行が改行で終わらなければ、復帰も残る。 -/
def lines (t : Text) : List Text := (splitInclusive t).map stripLineEnd

/-- 改行の直後から始まる接尾辞。 -/
def afterNewlines : Text → List Text
  | [] => []
  | c :: cs => if c = '\n' then cs :: afterNewlines cs else afterNewlines cs

/-- 行頭から始まる接尾辞。 -/
def lineStarts (t : Text) : List Text := t :: afterNewlines t

/-! ## 段落 -/

/-- `str::split("\n\n")`。左から重ならないように切る。 -/
def splitParagraphs : Text → List Text
  | [] => [[]]
  | '\n' :: '\n' :: cs => [] :: splitParagraphs cs
  | c :: cs =>
    match splitParagraphs cs with
    | [] => [[c]]
    | p :: ps => (c :: p) :: ps

/-- 段落を空行で繋ぐ。 -/
def joinParagraphs (ps : List Text) : Text := List.intercalate ['\n', '\n'] ps

/-! ## byte での切り出し -/

/-- 先頭から丁度 `n` byte を切り出す。文字の途中に当たるか足りなければ `none`。 -/
def splitBytes : Nat → Text → Option (Text × Text)
  | 0, t => some ([], t)
  | _ + 1, [] => none
  | n + 1, c :: cs =>
    if c.utf8Size ≤ n + 1 then
      (splitBytes (n + 1 - c.utf8Size) cs).map fun r => (c :: r.1, r.2)
    else none

/-- `u8::is_ascii_hexdigit`。 -/
def isAsciiHexdigit (c : Char) : Bool :=
  ('0' ≤ c && c ≤ '9') || ('A' ≤ c && c ≤ 'F') || ('a' ≤ c && c ≤ 'f')

/-! ## 数 -/

/-- `char::is_ascii_digit`。 -/
def isAsciiDigit (c : Char) : Bool := '0' ≤ c && c ≤ '9'

/-- 十進の桁を読む。 -/
def digitsValue (digits : Text) : Nat :=
  digits.foldl (fun n c => n * 10 + (c.toNat - '0'.toNat)) 0

/-- 符号なし整数の `from_str`。先頭に `+` を一つ許し、上限を超えれば失敗する。 -/
def parseUnsigned (max : Nat) (t : Text) : Option Nat :=
  let digits := match t with
    | '+' :: rest => rest
    | _ => t
  if digits ≠ [] ∧ digits.all isAsciiDigit ∧ digitsValue digits ≤ max then
    some (digitsValue digits)
  else none

theorem parseUnsigned_le {max n : Nat} {t : Text} (h : parseUnsigned max t = some n) : n ≤ max := by
  simp only [parseUnsigned, Option.ite_none_right_eq_some, Option.some.injEq] at h
  obtain ⟨⟨-, -, hle⟩, rfl⟩ := h
  exact hle

/-- 十進で書いた数は数字だけからなる。 -/
theorem isAsciiDigit_of_mem_toDigits {n : Nat} {c : Char} (h : c ∈ Nat.toDigits 10 n) :
    isAsciiDigit c = true := by
  have hd := Nat.isDigit_of_mem_toDigits (by decide) (by decide) h
  simp only [Char.isDigit, Bool.and_eq_true, decide_eq_true_eq] at hd
  simp only [isAsciiDigit, Bool.and_eq_true, decide_eq_true_eq]
  exact hd

theorem digitsValue_toDigits (n : Nat) : digitsValue (Nat.toDigits 10 n) = n := by
  have h := Nat.ofDigitChars_ten_toDigits (n := n)
  rw [Nat.ofDigitChars_eq_foldl] at h
  simpa only [digitsValue, Nat.mul_comm 10] using h

/-- 上限までの数は、十進で書けば読み戻せる。 -/
theorem parseUnsigned_toDigits {max n : Nat} (h : n ≤ max) :
    parseUnsigned max (Nat.toDigits 10 n) = some n := by
  have hall : (Nat.toDigits 10 n).all isAsciiDigit = true :=
    List.all_eq_true.2 fun c hc => isAsciiDigit_of_mem_toDigits hc
  have hplus : ∀ rest, Nat.toDigits 10 n ≠ '+' :: rest := by
    intro rest he
    have hmem : '+' ∈ Nat.toDigits 10 n := he ▸ List.mem_cons_self
    exact absurd (isAsciiDigit_of_mem_toDigits hmem) (by decide)
  -- `+` で始まらないので、数はそのまま読まれる
  simp only [parseUnsigned]
  rw [if_pos ⟨Nat.toDigits_ne_nil, hall, by rwa [digitsValue_toDigits]⟩, digitsValue_toDigits]

end Cassy.Infra
