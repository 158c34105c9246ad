import Cassy.Infra.Lines
import Cassy.Notes.Markers

/-!
# 予約行の勘定

notes に立っている予約行を、行末の空白を除いて並べたものが `marks` である。予約行の頭は
空白で終わらないので、行末の空白は予約行かどうかに関わらない。

文字列を繋いだときの `marks` は、継ぎ目の行が空白だけなら両側の `marks` に収まる。
-/

namespace Cassy

open Infra

/-! ## 予約行の頭 -/

/-- 予約行の頭になる文字列。 -/
def reservedMarkers : List Text := proofMarkers ++ provenanceMarkers.flatMap fun m => [m.1, m.2]

theorem isReservedLine_iff {l : Text} :
    isReservedLine l = true ↔ ∃ m ∈ reservedMarkers, m <+: l := by
  simp only [isReservedLine, isProofLine, isProvenanceLine, reservedMarkers, Bool.or_eq_true,
    List.any_eq_true, List.isPrefixOf_iff_prefix, List.mem_append, List.mem_flatMap,
    List.mem_cons, List.not_mem_nil, or_false]
  constructor
  · rintro (⟨m, hm, h⟩ | ⟨m, hm, h | h⟩)
    · exact ⟨m, Or.inl hm, h⟩
    · exact ⟨m.1, Or.inr ⟨m, hm, Or.inl rfl⟩, h⟩
    · exact ⟨m.2, Or.inr ⟨m, hm, Or.inr rfl⟩, h⟩
  · rintro ⟨m, hm | ⟨m', hm, rfl | rfl⟩, h⟩
    · exact Or.inl ⟨m, hm, h⟩
    · exact Or.inr ⟨m', hm, Or.inl h⟩
    · exact Or.inr ⟨m', hm, Or.inr h⟩

/-- 予約行の頭は空白で始まらず、空白で終わらず、改行を含まない。 -/
theorem reservedMarkers_solid : ∀ m ∈ reservedMarkers,
    m.head?.any (fun c => !isWhitespace c) = true
      ∧ m.getLast?.any (fun c => !isWhitespace c) = true ∧ '\n' ∉ m := by
  decide

/-- 空白で終わらない文字列が `x ++ w` の頭にあるなら、`w` が空白だけのときは `x` の頭にある。 -/
theorem prefix_of_prefix_append_blank {m x w : Text} (hw : Blank w)
    (hm : m.getLast?.any (fun c => !isWhitespace c) = true) (h : m <+: x ++ w) : m <+: x := by
  rcases List.prefix_or_prefix_of_prefix h (List.prefix_append x w) with hx | ⟨w₁, rfl⟩
  · exact hx
  · have hw₁ : w₁ <+: w := (List.prefix_append_right_inj x).mp h
    cases hl : w₁.getLast? with
    | none =>
      rw [List.getLast?_eq_none_iff] at hl
      exact ⟨[], by simp [hl]⟩
    | some c =>
      have hc := hw c (hw₁.subset (List.mem_of_getLast? hl))
      rw [List.getLast?_append, hl] at hm
      simp [hc] at hm

theorem isReservedLine_append_blank {x w : Text} (hw : Blank w) :
    isReservedLine (x ++ w) = isReservedLine x := by
  rw [Bool.eq_iff_iff, isReservedLine_iff, isReservedLine_iff]
  constructor
  · rintro ⟨m, hm, h⟩
    exact ⟨m, hm, prefix_of_prefix_append_blank hw (reservedMarkers_solid m hm).2.1 h⟩
  · rintro ⟨m, hm, h⟩
    exact ⟨m, hm, h.trans (List.prefix_append x w)⟩

/-- 行末の空白は予約行かどうかに関わらない。 -/
theorem isReservedLine_trimEnd (l : Text) : isReservedLine (trimEnd l) = isReservedLine l := by
  obtain ⟨w, hw, hl⟩ := exists_trimEnd l
  conv_rhs => rw [hl]
  rw [isReservedLine_append_blank hw]

/-- 空白で始まる行は予約行でない。 -/
theorem isReservedLine_cons_blank {c : Char} (hc : isWhitespace c = true) (l : Text) :
    isReservedLine (c :: l) = false := by
  rw [← Bool.not_eq_true, isReservedLine_iff]
  rintro ⟨m, hm, h⟩
  have hhead := (reservedMarkers_solid m hm).1
  cases m with
  | nil => simp at hhead
  | cons d ds =>
    rw [List.cons_prefix_cons] at h
    simp [h.1, hc] at hhead

theorem isReservedLine_nil : isReservedLine [] = false := by decide

/-! ## 予約行の並び -/

/-- 立っている予約行。行末の空白は除く。 -/
def marks (t : Text) : List Text := ((splitLines t).map trimEnd).filter isReservedLine

theorem mem_marks {t m : Text} : m ∈ marks t
    ↔ isReservedLine m = true ∧ ∃ l ∈ splitLines t, trimEnd l = m := by
  rw [marks, List.mem_filter, List.mem_map, and_comm]

@[simp] theorem marks_nil : marks [] = [] := by decide

theorem marks_append_newline (x y : Text) : marks (x ++ '\n' :: y) = marks x ++ marks y := by
  unfold marks
  rw [splitLines_append_newline, List.map_append, List.filter_append]

/-- 最初の行が空白だけである。 -/
def BlankHead (t : Text) : Prop := ∃ l ls, splitLines t = l :: ls ∧ Blank l

/-- 最後の行が空白だけである。 -/
def BlankTail (t : Text) : Prop := ∃ ls l, splitLines t = ls ++ [l] ∧ Blank l

/-- 空白だけの行で始まる文字列を後ろに繋いでも、予約行は両側のものである。 -/
theorem marks_append_of_blankHead {x y : Text} (hy : BlankHead y) :
    marks (x ++ y) = marks x ++ marks y := by
  obtain ⟨xs, x₁, y₁, ys, hx, hy', hxy⟩ := splitLines_append x y
  obtain ⟨l, ls, hl, hblank⟩ := hy
  rw [hl, List.cons.injEq] at hy'
  obtain ⟨rfl, rfl⟩ := hy'
  unfold marks
  simp only [hx, hl, hxy, List.map_append, List.map_cons, List.map_nil, List.filter_append,
    trimEnd_append_of_blank hblank, trimEnd_eq_nil_of_blank hblank, List.filter_cons,
    isReservedLine_nil, Bool.false_eq_true, if_false]
  split <;> simp

/-- 空白だけの行で終わる文字列を前に繋いでも、新しい予約行は立たない。 -/
theorem marks_append_subset_of_blankTail {x y : Text} (hx : BlankTail x) :
    marks (x ++ y) ⊆ marks x ++ marks y := by
  obtain ⟨xs, x₁, y₁, ys, hx', hy, hxy⟩ := splitLines_append x y
  obtain ⟨ls, l, hl, hblank⟩ := hx
  obtain ⟨rfl, hl₁⟩ := List.append_inj' (hl.symm.trans hx') rfl
  rw [List.cons.injEq] at hl₁
  obtain ⟨rfl, -⟩ := hl₁
  intro m hm
  obtain ⟨hr, l', hl', rfl⟩ := mem_marks.mp hm
  rw [List.mem_append, mem_marks, mem_marks, hl, hy]
  rw [hxy, List.mem_append, List.mem_cons] at hl'
  rcases hl' with hl' | rfl | hl'
  · exact Or.inl ⟨hr, l', List.mem_append_left _ hl', rfl⟩
  · cases l with
    | nil => exact Or.inr ⟨hr, y₁, List.mem_cons_self, rfl⟩
    | cons c cs =>
      rw [isReservedLine_trimEnd, List.cons_append,
        isReservedLine_cons_blank (hblank c List.mem_cons_self)] at hr
      simp at hr
  · exact Or.inr ⟨hr, l', List.mem_cons_of_mem _ hl', rfl⟩

/-- 空白だけの行で終わる文字列の予約行は、後ろに何を繋いでも残る。 -/
theorem marks_subset_append_of_blankTail {x y : Text} (hx : BlankTail x) :
    marks x ⊆ marks (x ++ y) := by
  obtain ⟨xs, x₁, y₁, ys, hx', -, hxy⟩ := splitLines_append x y
  obtain ⟨ls, l, hl, hblank⟩ := hx
  obtain ⟨rfl, hl₁⟩ := List.append_inj' (hl.symm.trans hx') rfl
  intro m hm
  obtain ⟨hr, l', hl', rfl⟩ := mem_marks.mp hm
  rw [hl, List.mem_append, List.mem_singleton] at hl'
  rcases hl' with hl' | rfl
  · exact mem_marks.mpr ⟨hr, l', by rw [hxy]; exact List.mem_append_left _ hl', rfl⟩
  · rw [trimEnd_eq_nil_of_blank hblank, isReservedLine_nil] at hr
    simp at hr

/-! ## 空白の行 -/

theorem blank_of_mem_splitLines {w l : Text} (hw : Blank w) (hl : l ∈ splitLines w) : Blank l := by
  induction w generalizing l with
  | nil =>
    rw [splitLines, List.mem_singleton] at hl
    rw [hl]
    exact blank_nil
  | cons c cs ih =>
    have hcs : Blank cs := fun d hd => hw d (List.mem_cons_of_mem _ hd)
    obtain ⟨k, ks, hk⟩ := List.exists_cons_of_ne_nil (splitLines_ne_nil cs)
    rw [splitLines] at hl
    split at hl
    · rcases List.mem_cons.mp hl with rfl | hl
      · exact blank_nil
      · exact ih hcs hl
    · rw [hk] at hl
      rcases List.mem_cons.mp hl with rfl | hl
      · intro d hd
        rcases List.mem_cons.mp hd with rfl | hd
        · exact hw d List.mem_cons_self
        · exact ih hcs (hk ▸ List.mem_cons_self) d hd
      · exact ih hcs (hk ▸ List.mem_cons_of_mem _ hl)

theorem marks_of_blank {w : Text} (hw : Blank w) : marks w = [] := by
  refine List.eq_nil_iff_forall_not_mem.mpr fun m hm => ?_
  obtain ⟨hr, l, hl, rfl⟩ := mem_marks.mp hm
  rw [trimEnd_eq_nil_of_blank (blank_of_mem_splitLines hw hl), isReservedLine_nil] at hr
  simp at hr

theorem blankHead_of_blank {w : Text} (hw : Blank w) : BlankHead w := by
  obtain ⟨l, ls, hl⟩ := List.exists_cons_of_ne_nil (splitLines_ne_nil w)
  exact ⟨l, ls, hl, blank_of_mem_splitLines hw (hl ▸ List.mem_cons_self)⟩

theorem blankHead_newline (t : Text) : BlankHead ('\n' :: t) :=
  ⟨[], splitLines t, rfl, blank_nil⟩

/-- 空白を前に足しても、最初の行は空白だけである。 -/
theorem BlankHead.append {w t : Text} (hw : Blank w) (ht : BlankHead t) : BlankHead (w ++ t) := by
  obtain ⟨xs, x₁, y₁, ys, hx, hy, hxy⟩ := splitLines_append w t
  obtain ⟨l, ls, hl, hblank⟩ := ht
  rw [hl, List.cons.injEq] at hy
  obtain ⟨rfl, rfl⟩ := hy
  cases xs with
  | nil =>
    refine ⟨_, _, hxy, blank_append.mpr ⟨blank_of_mem_splitLines hw ?_, hblank⟩⟩
    rw [hx]
    exact List.mem_cons_self
  | cons k ks =>
    refine ⟨_, _, hxy, blank_of_mem_splitLines hw ?_⟩
    rw [hx]
    exact List.mem_cons_self

/-- 改行の後に空白だけが続けば、最後の行は空白だけである。 -/
theorem blankTail_append_newline (t : Text) {w : Text} (hw : Blank w) :
    BlankTail (t ++ '\n' :: w) := by
  obtain ⟨ls, l, hl⟩ : ∃ ls l, splitLines w = ls ++ [l] :=
    ⟨_, _, (List.dropLast_append_getLast (splitLines_ne_nil w)).symm⟩
  refine ⟨splitLines t ++ ls, l, ?_, blank_of_mem_splitLines hw (by simp [hl])⟩
  rw [splitLines_append_newline, hl, List.append_assoc]

theorem blankTail_of_blank {w : Text} (hw : Blank w) : BlankTail w := by
  obtain ⟨ls, l, hl⟩ : ∃ ls l, splitLines w = ls ++ [l] :=
    ⟨_, _, (List.dropLast_append_getLast (splitLines_ne_nil w)).symm⟩
  exact ⟨ls, l, hl, blank_of_mem_splitLines hw (by simp [hl])⟩

/-! ## 改行を含む行との関係 -/

/-- 行の並びの予約行は、一行ずつ見ればよい。 -/
theorem marks_flatten {ls : List Text} (h : Lined ls) :
    marks ls.flatten = (ls.map trimEnd).filter isReservedLine := by
  induction h with
  | nil => exact marks_nil
  | last _ hl =>
    rw [List.flatten_singleton, marks, splitLines_of_not_mem hl]
  | cons hl _ ih =>
    rw [List.flatten_cons, List.append_assoc, List.singleton_append, marks_append_newline, ih,
      marks, splitLines_of_not_mem hl, List.map_cons, ← List.filter_append, List.map_cons,
      trimEnd_append_of_blank (w := ['\n']) fun c hc => ?_]
    · rfl
    · rw [List.mem_singleton.mp hc]
      exact isWhitespace_newline

theorem marks_eq (t : Text) :
    marks t = ((splitInclusive t).map trimEnd).filter isReservedLine := by
  rw [← marks_flatten (lined_splitInclusive t), flatten_splitInclusive]

/-- `str::lines` が落とすのは行末の改行と復帰だけである。 -/
theorem exists_stripLineEnd (l : Text) : ∃ w, Blank w ∧ l = stripLineEnd l ++ w := by
  unfold stripLineEnd
  split
  · next hn =>
    have hl : l.dropLast ++ ['\n'] = l := List.dropLast_append_getLast? '\n' hn
    split
    · next hr =>
      have hl' : l.dropLast.dropLast ++ ['\r'] = l.dropLast :=
        List.dropLast_append_getLast? '\r' hr
      refine ⟨['\r', '\n'], by decide, ?_⟩
      calc l = l.dropLast.dropLast ++ ['\r'] ++ ['\n'] := by rw [hl', hl]
        _ = l.dropLast.dropLast ++ ['\r', '\n'] := List.append_assoc _ _ _
    · exact ⟨['\n'], by decide, hl.symm⟩
  · exact ⟨[], blank_nil, (List.append_nil l).symm⟩

/-- 立っている予約行は、`lines` の予約行の行末の空白を除いたものである。 -/
theorem mem_marks_of_mem_lines {t l : Text} (hl : l ∈ lines t) (hr : isReservedLine l = true) :
    trimEnd l ∈ marks t := by
  obtain ⟨raw, hraw, rfl⟩ := List.mem_map.mp hl
  obtain ⟨w, hw, heq⟩ := exists_stripLineEnd raw
  rw [marks_eq, List.mem_filter, isReservedLine_trimEnd]
  refine ⟨List.mem_map.mpr ⟨raw, hraw, ?_⟩, hr⟩
  conv_lhs => rw [heq]
  exact trimEnd_append_of_blank hw

/-- 逆に、立っている予約行は `lines` の行である。 -/
theorem exists_mem_lines_of_mem_marks {t m : Text} (hm : m ∈ marks t) :
    ∃ l ∈ lines t, isReservedLine l = true ∧ trimEnd l = m := by
  rw [marks_eq, List.mem_filter] at hm
  obtain ⟨hm, hr⟩ := hm
  obtain ⟨raw, hraw, rfl⟩ := List.mem_map.mp hm
  obtain ⟨w, hw, heq⟩ := exists_stripLineEnd raw
  have htrim : trimEnd (stripLineEnd raw) = trimEnd raw := by
    conv_rhs => rw [heq]
    exact (trimEnd_append_of_blank hw).symm
  exact ⟨_, List.mem_map.mpr ⟨raw, hraw, rfl⟩, by rw [← isReservedLine_trimEnd, htrim]; exact hr,
    htrim⟩

end Cassy
