import Cassy.Infra.JsonText
import Cassy.Infra.Lines

/-!
# 目印の現れ方

決まった文字列（目印）が文字列の中に現れる位置。`str::match_indices` は左から重ならないように数える。

* `matchIndices` — 現れる位置。目印が現れないことと、位置が無いことは同じである
* 改行を含まない目印は、改行の前と後で別々に数えられる
* JSON の文字列に書いた値に目印が現れるのは、元の値に現れるときだけである
-/

namespace Cassy.Infra

/-! ## 位置 -/

/-- `match_indices` の繰り返し。`skip` は直前の一致の残りである。 -/
def matchFrom (pat : Text) : Nat → Nat → Text → List Nat
  | _, _, [] => []
  | skip + 1, i, _ :: t => matchFrom pat skip (i + 1) t
  | 0, i, c :: t =>
    if pat.isPrefixOf (c :: t) then i :: matchFrom pat (pat.length - 1) (i + 1) t
    else matchFrom pat 0 (i + 1) t

/-- `match_indices`。 -/
def matchIndices (pat t : Text) : List Nat := matchFrom pat 0 0 t

section Matches

variable {pat : Text}

theorem matchFrom_bounds : ∀ (t : Text) (skip i : Nat), ∀ j ∈ matchFrom pat skip i t,
    i ≤ j ∧ j < i + t.length
  | [], _, _, _, h => absurd h (by simp [matchFrom])
  | c :: t, skip + 1, i, j, h => by
    have hj := matchFrom_bounds t skip (i + 1) j h
    rw [List.length_cons]
    omega
  | c :: t, 0, i, j, h => by
    rw [matchFrom] at h
    rw [List.length_cons]
    split at h
    · rcases List.mem_cons.mp h with rfl | h
      · omega
      · have hj := matchFrom_bounds t (pat.length - 1) (i + 1) j h
        omega
    · have hj := matchFrom_bounds t 0 (i + 1) j h
      omega

/-- 長さを超えて読み飛ばせば、位置は無い。 -/
theorem matchFrom_of_length_le : ∀ (t : Text) {skip : Nat} (i : Nat), t.length ≤ skip →
    matchFrom pat skip i t = []
  | [], _, _, _ => by simp [matchFrom]
  | _ :: t, 0, _, h => absurd h (by simp)
  | _ :: t, skip + 1, i, h => matchFrom_of_length_le t (i + 1) (Nat.le_of_succ_le_succ h)

/-- 空か、改行で終わる。 -/
def EndsLine (x : Text) : Prop := x = [] ∨ ∃ x', x = x' ++ ['\n']

/-- 空か、改行で始まる。 -/
def BeginsLine (x : Text) : Prop := x = [] ∨ ∃ x', x = '\n' :: x'

/-- 空白で終わらない目印は、末尾の空白に現れない。 -/
theorem infix_append_blank {last : Char} (hlast : pat.getLast? = some last)
    (hsolid : isWhitespace last = false) {x w : Text} (hw : Blank w) :
    pat <:+: x ++ w ↔ pat <:+: x := by
  induction w using List.reverseRecOn with
  | nil => rw [List.append_nil]
  | append_singleton w c ih =>
    obtain ⟨hw, hc⟩ := blank_append.mp hw
    rw [← List.append_assoc, List.infix_concat_iff, ih hw]
    have hnot : ¬ pat <:+ (x ++ w) ++ [c] := by
      rintro ⟨s, hs⟩
      have hend := congrArg List.getLast? hs
      rw [List.getLast?_append, hlast, List.getLast?_append] at hend
      have heq : last = c := by simpa using hend
      have hblank := hc c (List.mem_singleton_self c)
      rw [← heq, hsolid] at hblank
      cases hblank
    exact ⟨fun h => h.resolve_left hnot, .inr⟩

variable (hne : pat ≠ [])
include hne

/-- 目印そのものには、頭に一つだけ現れる。 -/
theorem matchFrom_self (i : Nat) : matchFrom pat 0 i pat = [i] := by
  obtain ⟨c, t, rfl⟩ := List.exists_cons_of_ne_nil hne
  rw [matchFrom, if_pos (List.isPrefixOf_iff_prefix.mpr (List.prefix_refl _)),
    matchFrom_of_length_le t (i + 1) (Nat.le_of_eq (by simp))]

/-- 目印が現れなければ位置は無く、現れれば位置がある。 -/
theorem matchFrom_eq_nil_iff : ∀ (t : Text) (i : Nat),
    matchFrom pat 0 i t = [] ↔ ¬ pat <:+: t
  | [], i => by simp [matchFrom, hne]
  | c :: t, i => by
    rw [matchFrom, List.infix_cons_iff]
    by_cases hpre : pat.isPrefixOf (c :: t) = true
    · rw [if_pos hpre]
      exact iff_of_false (by simp) fun h => h (.inl (List.isPrefixOf_iff_prefix.mp hpre))
    · rw [if_neg hpre, matchFrom_eq_nil_iff t (i + 1)]
      have hnot : ¬ pat <+: c :: t := fun h => hpre (List.isPrefixOf_iff_prefix.mpr h)
      simp [hnot]

variable (hline : '\n' ∉ pat)
include hline

theorem matchFrom_append_newline (y : Text) :
    ∀ (x : Text) (skip i : Nat), skip ≤ x.length →
      matchFrom pat skip i (x ++ '\n' :: y)
        = matchFrom pat skip i x ++ matchFrom pat 0 (i + x.length + 1) y
  | [], 0, i, _ => by
    have hnot : ¬ pat.isPrefixOf ('\n' :: y) = true := by
      intro h
      have hpre : pat <+: [] ++ '\n' :: y := List.isPrefixOf_iff_prefix.mp h
      exact hne (List.prefix_nil.mp ((prefix_append_newline hline).mp hpre))
    show matchFrom pat 0 i ('\n' :: y) = matchFrom pat 0 (i + 1) y
    rw [matchFrom, if_neg hnot]
  | [], skip + 1, _, h => absurd h (by simp)
  | c :: x, skip + 1, i, h => by
    have hskip : skip ≤ x.length := Nat.le_of_succ_le_succ h
    rw [List.cons_append, matchFrom, matchFrom, matchFrom_append_newline y x skip _ hskip]
    rw [List.length_cons, Nat.add_right_comm i 1 x.length, Nat.add_assoc i x.length 1]
  | c :: x, 0, i, _ => by
    have hlen : i + 1 + x.length + 1 = i + (c :: x).length + 1 := by
      rw [List.length_cons]
      omega
    rw [List.cons_append, matchFrom, matchFrom]
    by_cases hpre : pat.isPrefixOf (c :: x) = true
    · have hpre' : pat.isPrefixOf (c :: (x ++ '\n' :: y)) = true := by
        rw [List.isPrefixOf_iff_prefix] at hpre ⊢
        exact (prefix_append_newline (x := c :: x) hline).mpr hpre
      have hskip : pat.length - 1 ≤ x.length := by
        have hle := (List.isPrefixOf_iff_prefix.mp hpre).length_le
        rw [List.length_cons] at hle
        omega
      rw [if_pos hpre, if_pos hpre', matchFrom_append_newline y x _ _ hskip, hlen]
      rfl
    · have hpre' : ¬ pat.isPrefixOf (c :: (x ++ '\n' :: y)) = true := by
        intro h
        rw [List.isPrefixOf_iff_prefix] at h hpre
        exact hpre ((prefix_append_newline (x := c :: x) hline).mp h)
      rw [if_neg hpre, if_neg hpre', matchFrom_append_newline y x _ _ (Nat.zero_le _), hlen]

/-- 改行を含まない目印が現れるのは、改行の前か後である。 -/
theorem infix_append_newline {x y : Text} : pat <:+: x ++ '\n' :: y ↔ pat <:+: x ∨ pat <:+: y := by
  have hnil : matchFrom pat 0 0 (x ++ '\n' :: y) = []
      ↔ matchFrom pat 0 0 x = [] ∧ matchFrom pat 0 (0 + x.length + 1) y = [] := by
    rw [matchFrom_append_newline hne hline y x 0 0 (Nat.zero_le _), List.append_eq_nil_iff]
  rw [matchFrom_eq_nil_iff hne, matchFrom_eq_nil_iff hne, matchFrom_eq_nil_iff hne] at hnil
  rw [← not_iff_not, not_or]
  exact hnil

/-- 行の切れ目の前と後は、別々に数えられる。 -/
theorem matchFrom_append_of_endsLine {x : Text} (hx : EndsLine x) (y : Text) (i : Nat) :
    matchFrom pat 0 i (x ++ y) = matchFrom pat 0 i x ++ matchFrom pat 0 (i + x.length) y := by
  rcases hx with rfl | ⟨x', rfl⟩
  · simp [matchFrom]
  · have hx' := matchFrom_append_newline hne hline [] x' 0 i (Nat.zero_le _)
    have hxy := matchFrom_append_newline hne hline y x' 0 i (Nat.zero_le _)
    have hnil : matchFrom pat 0 (i + x'.length + 1) [] = [] := by simp [matchFrom]
    rw [hnil, List.append_nil] at hx'
    rw [List.append_assoc, List.singleton_append, hxy, hx', List.length_append, List.length_singleton,
      Nat.add_assoc]

theorem matchFrom_append_of_beginsLine (x : Text) {y : Text} (hy : BeginsLine y) (i : Nat) :
    matchFrom pat 0 i (x ++ y) = matchFrom pat 0 i x ++ matchFrom pat 0 (i + x.length) y := by
  rcases hy with rfl | ⟨y', rfl⟩
  · simp [matchFrom]
  · have hy' := matchFrom_append_newline hne hline y' [] 0 (i + x.length) (Nat.zero_le _)
    have hnil : matchFrom pat 0 (i + x.length) [] = [] := by simp [matchFrom]
    rw [hnil, List.nil_append, List.nil_append, List.length_nil, Nat.add_zero] at hy'
    rw [matchFrom_append_newline hne hline y' x 0 i (Nat.zero_le _), hy']

theorem infix_append_of_endsLine {x : Text} (hx : EndsLine x) {y : Text} :
    pat <:+: x ++ y ↔ pat <:+: x ∨ pat <:+: y := by
  have hnil := congrArg (· = []) (matchFrom_append_of_endsLine hne hline hx y 0)
  simp only [List.append_eq_nil_iff, matchFrom_eq_nil_iff hne, eq_iff_iff] at hnil
  rw [← not_iff_not, not_or]
  exact hnil

/-- 行を繋いだものに現れるのは、どれかの行に現れるときである。 -/
theorem infix_intercalate_newline : ∀ {ls : List Text},
    pat <:+: List.intercalate ['\n'] ls ↔ ∃ l ∈ ls, pat <:+: l
  | [] => by simp [List.intercalate, hne]
  | [l] => by simp [List.intercalate]
  | l :: l' :: ls => by
    have hcons : List.intercalate ['\n'] (l :: l' :: ls)
        = l ++ '\n' :: List.intercalate ['\n'] (l' :: ls) := by
      simp [List.intercalate]
    rw [hcons, infix_append_newline hne hline, infix_intercalate_newline]
    simp

/-- 段落を繋いだものに現れるのは、どれかの段落に現れるときである。 -/
theorem infix_joinParagraphs : ∀ {ps : List Text},
    pat <:+: joinParagraphs ps ↔ ∃ p ∈ ps, pat <:+: p
  | [] => by simp [joinParagraphs, List.intercalate, hne]
  | [p] => by simp [joinParagraphs, List.intercalate]
  | p :: p' :: ps => by
    have hcons : joinParagraphs (p :: p' :: ps) = p ++ '\n' :: ([] ++ '\n' :: joinParagraphs (p' :: ps)) := by
      simp [joinParagraphs, List.intercalate]
    rw [hcons, infix_append_newline hne hline, infix_append_newline hne hline,
      infix_joinParagraphs]
    simp [hne]

end Matches

/-! ## 値に現れる目印 -/

section Json

variable {d : Char} {ps : Text}

/-- 頭の文字の無いところから、目印は始まらない。 -/
theorem infix_append_of_notMem {x y : Text} (hd : d ∉ x) :
    d :: ps <:+: x ++ y ↔ d :: ps <:+: y := by
  induction x with
  | nil => rfl
  | cons c x ih =>
    have hc : d ≠ c := fun h => hd (h ▸ List.mem_cons_self)
    rw [List.cons_append, List.infix_cons_iff, ih fun h => hd (List.mem_cons_of_mem c h)]
    simp [List.cons_prefix_cons, hc]

/-- JSON の文字列にそのまま書かれる目印。頭の文字は、書き換えられた文字の中に現れない。 -/
structure PlainPattern (d : Char) (ps : Text) : Prop where
  chars : ∀ c ∈ d :: ps, escapeChar c = [c] ∧ c ≠ '"'
  head : ∀ c, d ∈ escapeChar c → c = d

/-- 数字は `-` でない。 -/
theorem hexDigit_ne_hyphen : ∀ n < 16, hexDigit n ≠ '-' := by decide

theorem eq_hyphen_of_mem_escapeChar {c : Char} (h : '-' ∈ escapeChar c) : c = '-' := by
  unfold escapeChar at h
  split at h
  · simp at h
  split at h
  · simp at h
  split at h
  · simp at h
  split at h
  · simp at h
  split at h
  · simp at h
  split at h
  · simp at h
  split at h
  · simp at h
  split at h
  next hlow =>
    have hhigh := hexDigit_ne_hyphen (c.toNat / 16) (by omega)
    have hrest := hexDigit_ne_hyphen (c.toNat % 16) (Nat.mod_lt _ (by decide))
    simp [hhigh.symm, hrest.symm] at h
  · exact (List.mem_singleton.mp h).symm

theorem prefix_escape_iff : ∀ {pat s : Text}, (∀ c ∈ pat, escapeChar c = [c] ∧ c ≠ '"') →
    (pat <+: s.flatMap escapeChar ++ ['"'] ↔ pat <+: s)
  | [], _, _ => by simp
  | d :: pat, [], h => by
    have hd := (h d List.mem_cons_self).2
    simp [List.cons_prefix_cons, hd]
  | d :: pat, c :: s, h => by
    have hslash : d ≠ '\\' := by
      intro heq
      have hd := (h d List.mem_cons_self).1
      rw [heq] at hd
      exact absurd hd (by decide)
    have ih := prefix_escape_iff (s := s) fun x hx => h x (List.mem_cons_of_mem d hx)
    rw [List.flatMap_cons, List.append_assoc]
    rcases escapeChar_cases c with ⟨hc, -, -, -⟩ | ⟨e, hc, -⟩
    · rw [hc, List.singleton_append, List.cons_prefix_cons, List.cons_prefix_cons, ih]
    · rw [hc, List.cons_append, List.cons_prefix_cons, List.cons_prefix_cons]
      refine iff_of_false (fun hpre => hslash hpre.1) fun hpre => ?_
      have hd := (h d List.mem_cons_self).1
      rw [hpre.1, hc] at hd
      exact hslash (hpre.1.trans (List.cons.inj hd).1.symm)

/-- 書いた値に目印が現れるのは、元の値に現れるときだけである。 -/
theorem infix_writeString_iff (hplain : PlainPattern d ps) {s : Text} :
    d :: ps <:+: writeString s ↔ d :: ps <:+: s := by
  have hquote : d ≠ '"' := (hplain.chars d List.mem_cons_self).2
  have hbody : ∀ s : Text, d :: ps <:+: s.flatMap escapeChar ++ ['"'] ↔ d :: ps <:+: s := by
    intro s
    induction s with
    | nil => simp [List.infix_cons_iff, List.cons_prefix_cons, hquote]
    | cons c s ih =>
      by_cases hc : d ∈ escapeChar c
      · obtain rfl := hplain.head c hc
        have hpre := prefix_escape_iff (s := c :: s) hplain.chars
        rw [List.flatMap_cons, (hplain.chars c List.mem_cons_self).1, List.singleton_append,
          List.cons_append] at hpre ⊢
        rw [List.infix_cons_iff, List.infix_cons_iff, hpre, ih]
      · have hne : d ≠ c := by
          rintro rfl
          exact hc (by rw [(hplain.chars d List.mem_cons_self).1]; exact List.mem_singleton_self d)
        rw [List.flatMap_cons, List.append_assoc, infix_append_of_notMem hc, ih, List.infix_cons_iff]
        simp [List.cons_prefix_cons, hne]
  unfold writeString
  rw [List.infix_cons_iff, hbody]
  simp [List.cons_prefix_cons, hquote]

end Json

end Cassy.Infra
