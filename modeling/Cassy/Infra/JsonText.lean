import Mathlib.Algebra.Ring.Nat
import Cassy.Infra.Text

/-!
# 文字列の JSON

文字列と、文字列の列の JSON の読み書き。使う側が頼るのは `JsonStrings` の性質だけである。書いた列は読み戻され、読んだ文字列は
その JSON より短い。`serdeJson` はその一つで、`serde_json` と同じ文法で読み、同じ形に書く。
-/

namespace Cassy.Infra

/-- 文字列の JSON を読み書きする部品。 -/
structure JsonStrings where
  /-- `from_str::<String>`。 -/
  unquote : Text → Option Text
  /-- `into_iter::<Vec<String>>` の最初の値と、その後の文字列。 -/
  readList : Text → Option (List Text × Text)
  /-- `to_string(&Vec<String>)`。 -/
  writeList : List Text → Text
  unquote_length : ∀ {t s}, unquote t = some s → s.length < t.length
  readList_length : ∀ {t xs rest}, readList t = some (xs, rest) →
    (xs.map fun x => x.length + 3).sum + 1 + rest.length ≤ t.length
  writeList_shape : ∀ xs, ∃ body, writeList xs = '[' :: (body ++ [']'])
  readList_writeList : ∀ xs, readList (writeList xs) = some (xs, [])

/-! ## 文字 -/

/-- JSON の空白。 -/
def isJsonWhitespace (c : Char) : Bool := c = ' ' || c = '\n' || c = '\t' || c = '\r'

def skipWhitespace (t : Text) : Text := t.dropWhile isJsonWhitespace

theorem length_skipWhitespace (t : Text) : (skipWhitespace t).length ≤ t.length :=
  (List.dropWhile_suffix isJsonWhitespace).length_le

def hexValue (c : Char) : Option Nat :=
  if '0' ≤ c ∧ c ≤ '9' then some (c.toNat - 0x30)
  else if 'a' ≤ c ∧ c ≤ 'f' then some (c.toNat - 0x61 + 10)
  else if 'A' ≤ c ∧ c ≤ 'F' then some (c.toNat - 0x41 + 10)
  else none

/-- `\u` に続く四桁。 -/
def readHex4 : Text → Option (Nat × Text)
  | a :: b :: c :: d :: rest => do
    let a ← hexValue a
    let b ← hexValue b
    let c ← hexValue c
    let d ← hexValue d
    some (((a * 16 + b) * 16 + c) * 16 + d, rest)
  | _ => none

/-- `\u` の後ろ。surrogate は対でなければならない。 -/
def readUnicode (t : Text) : Option (Char × Text) :=
  (readHex4 t).bind fun (n, rest) =>
    if 0xD800 ≤ n ∧ n ≤ 0xDBFF then
      match rest with
      | '\\' :: 'u' :: rest => (readHex4 rest).bind fun (m, rest) =>
        if 0xDC00 ≤ m ∧ m ≤ 0xDFFF then
          some (Char.ofNat (0x10000 + (n - 0xD800) * 0x400 + (m - 0xDC00)), rest)
        else none
      | _ => none
    else if 0xDC00 ≤ n ∧ n ≤ 0xDFFF then none
    else some (Char.ofNat n, rest)

/-- 逆斜線の後ろ。 -/
def readEscape : Text → Option (Char × Text)
  | '"' :: rest => some ('"', rest)
  | '\\' :: rest => some ('\\', rest)
  | '/' :: rest => some ('/', rest)
  | 'b' :: rest => some ('\x08', rest)
  | 'f' :: rest => some ('\x0c', rest)
  | 'n' :: rest => some ('\n', rest)
  | 'r' :: rest => some ('\r', rest)
  | 't' :: rest => some ('\t', rest)
  | 'u' :: rest => readUnicode rest
  | _ => none

/-- 閉じる引用符まで。一度に一文字は進むので、`fuel` は残りの長さより大きければ足りる。 -/
def readChars : Nat → Text → Option (Text × Text)
  | 0, _ => none
  | _ + 1, [] => none
  | fuel + 1, c :: t =>
    if c = '"' then some ([], t)
    else if c = '\\' then
      (readEscape t).bind fun (c, t) => (readChars fuel t).map fun (s, t) => (c :: s, t)
    else if c.toNat < 0x20 then none
    else (readChars fuel t).map fun (s, t) => (c :: s, t)

/-- 一つの文字列。 -/
def readString : Text → Option (Text × Text)
  | '"' :: t => readChars (t.length + 1) t
  | _ => none

/-- 列の、一つめの文字列から閉じる括弧まで。 -/
def readItems : Nat → Text → Option (List Text × Text)
  | 0, _ => none
  | fuel + 1, t => (readString (skipWhitespace t)).bind fun (s, t) =>
    match skipWhitespace t with
    | ',' :: t => (readItems fuel t).map fun (xs, t) => (s :: xs, t)
    | ']' :: t => some ([s], t)
    | _ => none

/-- 列。 -/
def readTexts (t : Text) : Option (List Text × Text) :=
  match skipWhitespace t with
  | '[' :: t =>
    match skipWhitespace t with
    | ']' :: t => some ([], t)
    | _ => readItems (t.length + 1) t
  | _ => none

/-- 文字列だけからなる文書。 -/
def readDocument (t : Text) : Option Text :=
  (readString (skipWhitespace t)).bind fun (s, t) => if skipWhitespace t = [] then some s else none

/-! ## 書く -/

def hexDigit (n : Nat) : Char := Char.ofNat (if n < 10 then 0x30 + n else 0x61 + (n - 10))

/-- 文字の書き方。 -/
def escapeChar (c : Char) : Text :=
  if c = '"' then ['\\', '"']
  else if c = '\\' then ['\\', '\\']
  else if c = '\x08' then ['\\', 'b']
  else if c = '\x0c' then ['\\', 'f']
  else if c = '\n' then ['\\', 'n']
  else if c = '\r' then ['\\', 'r']
  else if c = '\t' then ['\\', 't']
  else if c.toNat < 0x20 then ['\\', 'u', '0', '0', hexDigit (c.toNat / 16), hexDigit (c.toNat % 16)]
  else [c]

def writeString (s : Text) : Text := '"' :: (s.flatMap escapeChar ++ ['"'])

def writeTexts (xs : List Text) : Text := '[' :: (List.intercalate [','] (xs.map writeString) ++ [']'])

/-! ## 長さ -/

theorem length_readHex4 {t : Text} {n : Nat} {rest : Text} (h : readHex4 t = some (n, rest)) :
    rest.length + 4 ≤ t.length := by
  unfold readHex4 at h
  split at h
  · simp only [Option.bind_eq_bind, Option.bind_eq_some_iff, Option.some.injEq, Prod.mk.injEq] at h
    obtain ⟨_, -, _, -, _, -, _, -, -, rfl⟩ := h
    simp only [List.length_cons]
    omega
  · cases h

theorem length_readUnicode {t : Text} {c : Char} {rest : Text} (h : readUnicode t = some (c, rest)) :
    rest.length < t.length := by
  obtain ⟨⟨n, t₁⟩, hhex, h⟩ := Option.bind_eq_some_iff.mp h
  have hlen := length_readHex4 hhex
  dsimp only at h
  split at h
  · split at h
    · obtain ⟨⟨m, t₂⟩, hhex₂, h⟩ := Option.bind_eq_some_iff.mp h
      have hlen₂ := length_readHex4 hhex₂
      dsimp only at h
      split at h
      · have hrest : t₂ = rest := (Prod.mk.inj (Option.some.inj h)).2
        subst hrest
        simp only [List.length_cons] at hlen
        omega
      · cases h
    · cases h
  · split at h
    · cases h
    · cases h
      omega

theorem length_readEscape {t : Text} {c : Char} {rest : Text} (h : readEscape t = some (c, rest)) :
    rest.length < t.length := by
  unfold readEscape at h
  split at h
  case h_9 => exact Nat.lt_succ_of_lt (length_readUnicode h)
  case h_10 => cases h
  all_goals
    cases h
    exact Nat.lt_succ_self _

/-- 読んだ文字列と残りは、閉じる引用符の分だけ短い。 -/
theorem length_readChars : ∀ {fuel : Nat} {t s rest : Text}, readChars fuel t = some (s, rest) →
    s.length + 1 + rest.length ≤ t.length
  | 0, _, _, _, h => by cases h
  | _ + 1, [], _, _, h => by cases h
  | fuel + 1, c :: t, s, rest, h => by
    rw [readChars] at h
    split at h
    · cases h
      simp only [List.length_nil, List.length_cons]
      omega
    · split at h
      · obtain ⟨⟨d, t₁⟩, hescape, h⟩ := Option.bind_eq_some_iff.mp h
        obtain ⟨⟨s', rest'⟩, hchars, h⟩ := Option.map_eq_some_iff.mp h
        have hlen := length_readEscape hescape
        have ih := length_readChars hchars
        cases h
        simp only [List.length_cons]
        omega
      · split at h
        · cases h
        · obtain ⟨⟨s', rest'⟩, hchars, h⟩ := Option.map_eq_some_iff.mp h
          have ih := length_readChars hchars
          cases h
          simp only [List.length_cons]
          omega

theorem length_readString {t s rest : Text} (h : readString t = some (s, rest)) :
    s.length + 2 + rest.length ≤ t.length := by
  unfold readString at h
  split at h
  · have hlen := length_readChars h
    simp only [List.length_cons]
    omega
  · cases h

theorem length_readItems : ∀ {fuel : Nat} {t : Text} {xs : List Text} {rest : Text},
    readItems fuel t = some (xs, rest) →
    (xs.map fun x => x.length + 3).sum + rest.length ≤ t.length
  | 0, _, _, _, h => by cases h
  | fuel + 1, t, xs, rest, h => by
    rw [readItems] at h
    obtain ⟨⟨s, t₁⟩, hstring, h⟩ := Option.bind_eq_some_iff.mp h
    have hlen := length_readString hstring
    have hskip := length_skipWhitespace t
    have hskip₁ := length_skipWhitespace t₁
    dsimp only at h
    split at h
    · rename_i t₂ ht₂
      obtain ⟨⟨ys, rest'⟩, hitems, h⟩ := Option.map_eq_some_iff.mp h
      have ih := length_readItems hitems
      cases h
      rw [ht₂] at hskip₁
      simp only [List.map_cons, List.sum_cons, List.length_cons] at *
      omega
    · rename_i t₂ ht₂
      cases h
      rw [ht₂] at hskip₁
      simp only [List.map_cons, List.map_nil, List.sum_cons, List.sum_nil, List.length_cons] at *
      omega
    · cases h

theorem length_readTexts {t : Text} {xs : List Text} {rest : Text} (h : readTexts t = some (xs, rest)) :
    (xs.map fun x => x.length + 3).sum + 1 + rest.length ≤ t.length := by
  unfold readTexts at h
  have hskip := length_skipWhitespace t
  split at h
  · rename_i t₁ ht₁
    have hskip₁ := length_skipWhitespace t₁
    rw [ht₁] at hskip
    split at h
    · rename_i t₂ ht₂
      cases h
      rw [ht₂] at hskip₁
      simp only [List.map_nil, List.sum_nil, List.length_cons] at *
      omega
    · have hlen := length_readItems h
      simp only [List.length_cons] at hskip
      omega
  · cases h

theorem length_readDocument {t s : Text} (h : readDocument t = some s) : s.length < t.length := by
  obtain ⟨⟨s', rest⟩, hstring, h⟩ := Option.bind_eq_some_iff.mp h
  have hlen := length_readString hstring
  have hskip := length_skipWhitespace t
  dsimp only at h
  split at h
  · cases h
    omega
  · cases h

/-! ## 読み戻す -/

theorem hexValue_hexDigit : ∀ n < 16, hexValue (hexDigit n) = some n := by decide

theorem readHex4_low {n : Nat} (hn : n < 256) (t : Text) :
    readHex4 ('0' :: '0' :: hexDigit (n / 16) :: hexDigit (n % 16) :: t) = some (n, t) := by
  have hzero : hexValue '0' = some 0 := by decide
  have hhigh := hexValue_hexDigit (n / 16) (by omega)
  have hlow := hexValue_hexDigit (n % 16) (by omega)
  unfold readHex4
  dsimp only
  rw [hzero, hhigh, hlow]
  show some (((0 * 16 + 0) * 16 + n / 16) * 16 + n % 16, t) = some (n, t)
  rw [Nat.zero_mul, Nat.zero_add, Nat.div_add_mod' n 16]

/-- 書いた文字は、そのままか、逆斜線の後ろから読み戻せる。 -/
theorem escapeChar_cases (c : Char) :
    (escapeChar c = [c] ∧ c ≠ '"' ∧ c ≠ '\\' ∧ ¬c.toNat < 0x20)
      ∨ ∃ e, escapeChar c = '\\' :: e ∧ ∀ t, readEscape (e ++ t) = some (c, t) := by
  unfold escapeChar
  by_cases hquote : c = '"'
  · subst hquote
    exact Or.inr ⟨['"'], rfl, fun _ => rfl⟩
  by_cases hslash : c = '\\'
  · subst hslash
    exact Or.inr ⟨['\\'], rfl, fun _ => rfl⟩
  by_cases hb : c = '\x08'
  · subst hb
    exact Or.inr ⟨['b'], rfl, fun _ => rfl⟩
  by_cases hf : c = '\x0c'
  · subst hf
    exact Or.inr ⟨['f'], rfl, fun _ => rfl⟩
  by_cases hn : c = '\n'
  · subst hn
    exact Or.inr ⟨['n'], rfl, fun _ => rfl⟩
  by_cases hr : c = '\r'
  · subst hr
    exact Or.inr ⟨['r'], rfl, fun _ => rfl⟩
  by_cases ht : c = '\t'
  · subst ht
    exact Or.inr ⟨['t'], rfl, fun _ => rfl⟩
  rw [if_neg hquote, if_neg hslash, if_neg hb, if_neg hf, if_neg hn, if_neg hr, if_neg ht]
  by_cases hcontrol : c.toNat < 0x20
  · rw [if_pos hcontrol]
    refine Or.inr ⟨_, rfl, ?_⟩
    intro t
    show readUnicode ('0' :: '0' :: hexDigit (c.toNat / 16) :: hexDigit (c.toNat % 16) :: t) = _
    unfold readUnicode
    rw [readHex4_low (by omega), Option.bind_some]
    dsimp only
    rw [if_neg (by omega), if_neg (by omega), Char.ofNat_toNat]
  · rw [if_neg hcontrol]
    exact Or.inl ⟨rfl, hquote, hslash, hcontrol⟩

theorem readChars_escape : ∀ (s t : Text) {fuel : Nat}, s.length < fuel →
    readChars fuel (s.flatMap escapeChar ++ '"' :: t) = some (s, t)
  | [], t, fuel + 1, _ => by
    show readChars (fuel + 1) ('"' :: t) = _
    rw [readChars, if_pos rfl]
  | c :: s, t, fuel + 1, h => by
    have ih := readChars_escape s t (Nat.lt_of_succ_lt_succ h)
    rw [List.flatMap_cons, List.append_assoc]
    rcases escapeChar_cases c with ⟨hc, hquote, hslash, hcontrol⟩ | ⟨e, hc, he⟩
    · rw [hc, List.singleton_append, readChars, if_neg hquote, if_neg hslash, if_neg hcontrol, ih]
      rfl
    · rw [hc, List.cons_append, readChars, if_neg (by decide), if_pos rfl, he, Option.bind_some]
      dsimp only
      rw [ih]
      rfl

theorem length_le_flatMap_escape (s : Text) : s.length ≤ (s.flatMap escapeChar).length := by
  induction s with
  | nil => exact Nat.le_refl 0
  | cons c s ih =>
    have hpos : 1 ≤ (escapeChar c).length := by
      rcases escapeChar_cases c with ⟨hc, -⟩ | ⟨e, hc, -⟩
      · rw [hc]
        exact Nat.le_refl 1
      · rw [hc]
        exact Nat.succ_le_succ (Nat.zero_le _)
    rw [List.flatMap_cons, List.length_append, List.length_cons]
    omega

theorem readString_writeString (s t : Text) : readString (writeString s ++ t) = some (s, t) := by
  unfold writeString
  rw [List.cons_append, List.append_assoc, List.singleton_append]
  refine readChars_escape s t ?_
  have := length_le_flatMap_escape s
  rw [List.length_append]
  omega

theorem skipWhitespace_writeString (s t : Text) :
    skipWhitespace (writeString s ++ t) = writeString s ++ t := rfl

theorem readItems_writeString : ∀ (x : Text) (xs : List Text) (t : Text) {fuel : Nat}, xs.length < fuel →
    readItems fuel (List.intercalate [','] ((x :: xs).map writeString) ++ ']' :: t) = some (x :: xs, t)
  | x, [], t, fuel + 1, _ => by
    rw [List.map_singleton, List.intercalate_singleton, readItems, skipWhitespace_writeString,
      readString_writeString]
    rfl
  | x, y :: ys, t, fuel + 1, h => by
    have ih := readItems_writeString y ys t (Nat.lt_of_succ_lt_succ h)
    rw [List.map_cons] at ih
    rw [List.map_cons, List.map_cons, List.intercalate_cons_cons, List.append_assoc, List.append_assoc,
      readItems, skipWhitespace_writeString, readString_writeString, Option.bind_some]
    show Option.map _ (readItems fuel
      (List.intercalate [','] (writeString y :: ys.map writeString) ++ ']' :: t)) = _
    rw [ih]
    rfl

theorem length_le_intercalate_writeString : ∀ xs : List Text,
    xs.length ≤ (List.intercalate [','] (xs.map writeString)).length
  | [] => Nat.le_refl 0
  | [x] => by
    rw [List.map_singleton, List.intercalate_singleton]
    exact Nat.succ_le_succ (Nat.zero_le _)
  | x :: y :: ys => by
    have ih := length_le_intercalate_writeString (y :: ys)
    rw [List.map_cons] at ih
    rw [List.map_cons, List.map_cons, List.intercalate_cons_cons, List.length_append, List.length_append]
    simp only [List.length_cons, List.length_nil] at ih ⊢
    omega

theorem readTexts_writeTexts (xs : List Text) : readTexts (writeTexts xs) = some (xs, []) := by
  cases xs with
  | nil => rfl
  | cons x xs =>
    have hlen := length_le_intercalate_writeString (x :: xs)
    have hitems := @readItems_writeString x xs []
      ((List.intercalate [','] ((x :: xs).map writeString) ++ [']']).length + 1) (by
        rw [List.length_append]
        rw [List.length_cons] at hlen
        omega)
    unfold readTexts writeTexts
    rw [show skipWhitespace ('[' :: (List.intercalate [','] ((x :: xs).map writeString) ++ [']']))
      = '[' :: (List.intercalate [','] ((x :: xs).map writeString) ++ [']']) from rfl]
    have hhead : ∃ rest, List.intercalate [','] ((x :: xs).map writeString) ++ [']'] = '"' :: rest := by
      cases xs with
      | nil => exact ⟨_, by rw [List.map_singleton, List.intercalate_singleton]; rfl⟩
      | cons y ys => exact ⟨_, by rw [List.map_cons, List.map_cons, List.intercalate_cons_cons]; rfl⟩
    obtain ⟨rest, hrest⟩ := hhead
    rw [hrest] at hitems ⊢
    exact hitems

/-- `serde_json` の読み書き。 -/
def serdeJson : JsonStrings where
  unquote := readDocument
  readList := readTexts
  writeList := writeTexts
  unquote_length := length_readDocument
  readList_length := length_readTexts
  writeList_shape _ := ⟨_, rfl⟩
  readList_writeList := readTexts_writeTexts

end Cassy.Infra
