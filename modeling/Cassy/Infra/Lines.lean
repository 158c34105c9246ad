import Mathlib.Data.List.DropRight
import Mathlib.Data.List.TakeWhile
import Cassy.Infra.Text

/-!
# 行と空白

文字列を行に切る二つの方法の関係と、空白の落とし方の性質。

* `splitLines` — `str::split('\n')`。改行は行に含めない
* `splitInclusive` — `str::split_inclusive('\n')`。改行は行に含める

繋いだ文字列の行は、継ぎ目の一行を除けばそれぞれの行である（`splitLines_append`）。
-/

namespace Cassy.Infra

/-- `str::split('\n')`。空の文字列も一行である。 -/
def splitLines : Text → List Text
  | [] => [[]]
  | c :: cs =>
    if c = '\n' then [] :: splitLines cs
    else match splitLines cs with
      | [] => [[c]]
      | l :: ls => (c :: l) :: ls

theorem splitLines_ne_nil (t : Text) : splitLines t ≠ [] := by
  cases t with
  | nil => simp [splitLines]
  | cons c cs =>
    unfold splitLines
    split
    · simp
    · split <;> simp

theorem splitLines_cons_of_ne {c : Char} (hc : c ≠ '\n') {cs l : Text} {ls : List Text}
    (h : splitLines cs = l :: ls) : splitLines (c :: cs) = (c :: l) :: ls := by
  rw [splitLines, if_neg hc, h]

/-- 繋いだ文字列の行。継ぎ目の行だけが、両側の行を繋いだものになる。 -/
theorem splitLines_append (x y : Text) : ∃ xs x₁ y₁ ys, splitLines x = xs ++ [x₁]
    ∧ splitLines y = y₁ :: ys ∧ splitLines (x ++ y) = xs ++ (x₁ ++ y₁) :: ys := by
  induction x with
  | nil =>
    obtain ⟨y₁, ys, hy⟩ := List.exists_cons_of_ne_nil (splitLines_ne_nil y)
    exact ⟨[], [], y₁, ys, rfl, hy, hy⟩
  | cons c cs ih =>
    obtain ⟨xs, x₁, y₁, ys, hx, hy, hxy⟩ := ih
    by_cases hc : c = '\n'
    · refine ⟨[] :: xs, x₁, y₁, ys, ?_, hy, ?_⟩
      · rw [splitLines, if_pos hc, hx, List.cons_append]
      · rw [List.cons_append, splitLines, if_pos hc, hxy, List.cons_append]
    · cases xs with
      | nil => exact ⟨[], c :: x₁, y₁, ys, splitLines_cons_of_ne hc hx, hy,
          splitLines_cons_of_ne hc hxy⟩
      | cons l ls => exact ⟨(c :: l) :: ls, x₁, y₁, ys, splitLines_cons_of_ne hc hx, hy,
          splitLines_cons_of_ne hc hxy⟩

/-- 改行で繋いだ文字列の行は、両側の行を並べたものである。 -/
theorem splitLines_append_newline (x y : Text) :
    splitLines (x ++ '\n' :: y) = splitLines x ++ splitLines y := by
  obtain ⟨xs, x₁, y₁, ys, hx, hy, hxy⟩ := splitLines_append x ('\n' :: y)
  rw [splitLines, if_pos rfl, List.cons.injEq] at hy
  rw [hxy, hx, ← hy.1, ← hy.2, List.append_nil, List.append_assoc, List.singleton_append]

/-- 改行の無い文字列は一行である。 -/
theorem splitLines_of_not_mem {t : Text} (h : '\n' ∉ t) : splitLines t = [t] := by
  induction t with
  | nil => rfl
  | cons c cs ih =>
    rw [List.mem_cons, not_or] at h
    exact splitLines_cons_of_ne (Ne.symm h.1) (ih h.2)

theorem exists_of_splitLines_cons {t l : Text} {ls : List Text} (h : splitLines t = l :: ls) :
    t = l ∨ ∃ rest, t = l ++ '\n' :: rest := by
  induction t generalizing l ls with
  | nil =>
    simp only [splitLines, List.cons.injEq] at h
    exact Or.inl h.1
  | cons c cs ih =>
    by_cases hc : c = '\n'
    · rw [splitLines, if_pos hc, List.cons.injEq] at h
      exact Or.inr ⟨cs, by rw [← h.1, hc, List.nil_append]⟩
    · obtain ⟨k, ks, hk⟩ := List.exists_cons_of_ne_nil (splitLines_ne_nil cs)
      rw [splitLines_cons_of_ne hc hk, List.cons.injEq] at h
      obtain ⟨rfl, rfl⟩ := h
      rcases ih hk with rfl | ⟨rest, rfl⟩
      · exact Or.inl rfl
      · exact Or.inr ⟨rest, rfl⟩

/-- 改行を含まない文字列が頭にあるかは、最初の改行の手前だけで決まる。 -/
theorem prefix_append_newline {m x y : Text} (hm : '\n' ∉ m) :
    m <+: x ++ '\n' :: y ↔ m <+: x := by
  constructor
  · intro h
    rcases List.prefix_or_prefix_of_prefix h (List.prefix_append x ('\n' :: y)) with hx | ⟨z, rfl⟩
    · exact hx
    · have hz : z <+: '\n' :: y := (List.prefix_append_right_inj x).mp h
      cases z with
      | nil => exact ⟨[], by simp⟩
      | cons c cs =>
        rw [List.cons_prefix_cons] at hz
        exact absurd (by rw [hz.1]; simp) hm
  · exact fun h => h.trans (List.prefix_append ..)

/-! ## 空白 -/

/-- 空白だけからなる。 -/
def Blank (t : Text) : Prop := ∀ c ∈ t, isWhitespace c = true

instance (t : Text) : Decidable (Blank t) :=
  List.decidableBAll (fun c => isWhitespace c = true) t

@[simp] theorem blank_nil : Blank [] := fun _ h => absurd h List.not_mem_nil

theorem blank_append {x y : Text} : Blank (x ++ y) ↔ Blank x ∧ Blank y :=
  List.forall_mem_append

theorem trimEnd_append_of_blank {x w : Text} (hw : Blank w) : trimEnd (x ++ w) = trimEnd x := by
  unfold trimEnd
  rw [List.reverse_append, List.dropWhile_append_of_pos fun c hc => hw c (List.mem_reverse.mp hc)]

theorem trimEnd_eq_nil_of_blank {w : Text} (hw : Blank w) : trimEnd w = [] :=
  trimEnd_append_of_blank (x := []) hw

/-- 行末の空白を落としたものは、空白を足せば元に戻る。 -/
theorem exists_trimEnd (t : Text) : ∃ w, Blank w ∧ t = trimEnd t ++ w :=
  ⟨t.rtakeWhile isWhitespace, fun _ hc => List.mem_rtakeWhile_imp hc,
    List.rdropWhile_append_rtakeWhile.symm⟩

/-- 空白で終わらない文字列は、後ろに何を繋いでも `trimEnd` の頭に残る。 -/
theorem prefix_trimEnd_append {x : Text} (hx : trimEnd x = x) (y : Text) :
    x <+: trimEnd (x ++ y) := by
  obtain ⟨w, hw, heq⟩ := exists_trimEnd (x ++ y)
  have hpre : trimEnd (x ++ y) <+: x ++ y := ⟨w, heq.symm⟩
  rcases List.prefix_or_prefix_of_prefix (List.prefix_append x y) hpre with h | ⟨u, hu⟩
  · exact h
  · -- 短いなら、落ちたのは空白なので `x` の末尾も空白になる。
    have hblank : Blank u := by
      have hwu : w = u ++ y := by
        have h : trimEnd (x ++ y) ++ w = trimEnd (x ++ y) ++ (u ++ y) := by
          rw [← heq, ← List.append_assoc, hu]
        exact List.append_cancel_left h
      exact (blank_append.mp (hwu ▸ hw)).1
    have hxu : x = trimEnd (x ++ y) := by
      calc x = trimEnd x := hx.symm
        _ = trimEnd (trimEnd (x ++ y) ++ u) := by rw [hu]
        _ = trimEnd (trimEnd (x ++ y)) := trimEnd_append_of_blank hblank
        _ = trimEnd (trimEnd (x ++ y) ++ w) := (trimEnd_append_of_blank hw).symm
        _ = trimEnd (x ++ y) := by rw [← heq]
    exact ⟨[], (List.append_nil x).trans hxu⟩

theorem trimEnd_idem (t : Text) : trimEnd (trimEnd t) = trimEnd t := by
  obtain ⟨w, hw, ht⟩ := exists_trimEnd t
  conv_rhs => rw [ht]
  rw [trimEnd_append_of_blank hw]

theorem trimStart_append {x : Text} (hx : trimStart x ≠ []) (y : Text) :
    trimStart (x ++ y) = trimStart x ++ y := by
  unfold trimStart at hx ⊢
  rw [List.dropWhile_append, if_neg (by simpa using hx)]

theorem trimStart_idem (t : Text) : trimStart (trimStart t) = trimStart t := by
  unfold trimStart
  rw [List.dropWhile_idempotent]

/-- 頭に空白の無い文字列から後ろの空白を落としても、頭に空白は無い。 -/
theorem trimStart_trimEnd {t : Text} (h : trimStart t = t) : trimStart (trimEnd t) = trimEnd t := by
  obtain ⟨w, -, ht⟩ := exists_trimEnd t
  cases he : trimEnd t with
  | nil => rfl
  | cons c cs =>
    rw [he] at ht
    rw [ht, trimStart, List.cons_append, List.dropWhile_cons] at h
    rw [trimStart, List.dropWhile_cons]
    split at h
    · have hlen := congrArg List.length h
      have hle := (List.dropWhile_suffix (l := cs ++ w) isWhitespace).length_le
      simp only [List.length_cons] at hlen
      omega
    · next hc => simp [hc]

theorem trim_idem (t : Text) : trim (trim t) = trim t := by
  have hstart : trimStart (trim t) = trim t := trimStart_trimEnd (trimStart_idem t)
  rw [trim, hstart, trim, trimEnd_idem]

theorem trimEnd_append {y : Text} (hy : trimEnd y ≠ []) (x : Text) :
    trimEnd (x ++ y) = x ++ trimEnd y := by
  unfold trimEnd at hy ⊢
  rw [List.reverse_append, List.dropWhile_append, if_neg (by simpa using hy), List.reverse_append,
    List.reverse_reverse]

theorem length_trimEnd_le (t : Text) : (trimEnd t).length ≤ t.length := by
  unfold trimEnd
  rw [List.length_reverse]
  exact Nat.le_trans (List.dropWhile_suffix isWhitespace).length_le (Nat.le_of_eq List.length_reverse)

theorem length_trim_le (t : Text) : (trim t).length ≤ t.length :=
  Nat.le_trans (length_trimEnd_le _) (List.dropWhile_suffix isWhitespace).length_le

/-- 落とすものが無いなら、頭にも末尾にも無い。 -/
theorem trimStart_eq_of_length {t : Text} (h : (trim t).length = t.length) : trimStart t = t := by
  refine (List.dropWhile_suffix isWhitespace).eq_of_length_le ?_
  exact Nat.le_trans (Nat.le_of_eq h.symm) (length_trimEnd_le _)

theorem trim_eq_of_length {t : Text} (h : (trim t).length = t.length) : trim t = t := by
  have hstart := trimStart_eq_of_length h
  obtain ⟨w, -, hw⟩ := exists_trimEnd t
  rw [trim, hstart] at h ⊢
  have hlen := congrArg List.length hw
  rw [List.length_append, h] at hlen
  rw [List.length_eq_zero_iff.mp (show w.length = 0 by omega), List.append_nil] at hw
  exact hw.symm

/-- 両端に空白が無ければ、間に何があっても落ちるものは無い。 -/
theorem trim_append_append {x y : Text} (hx : trim x = x) (hx0 : x ≠ []) (hy : trim y = y) (hy0 : y ≠ [])
    (m : Text) : trim (x ++ (m ++ y)) = x ++ (m ++ y) := by
  have hxs : trimStart x = x := trimStart_eq_of_length (congrArg List.length hx)
  have hye : trimEnd y = y := by
    rw [trim, trimStart_eq_of_length (congrArg List.length hy)] at hy
    exact hy
  rw [trim, trimStart_append (by rw [hxs]; exact hx0), hxs, ← List.append_assoc,
    trimEnd_append (by rw [hye]; exact hy0), hye]

theorem isWhitespace_newline : isWhitespace '\n' = true := by decide

theorem isWhitespace_carriageReturn : isWhitespace '\r' = true := by decide

/-- 改行と復帰だけを落としても、行末の空白を除いた中身は同じである。 -/
theorem trimEnd_trimEndMatches {p : Char → Bool} (hp : ∀ c, p c = true → isWhitespace c = true)
    (t : Text) : trimEnd (trimEndMatches p t) = trimEnd t := by
  have ht : t = trimEndMatches p t ++ t.rtakeWhile p := List.rdropWhile_append_rtakeWhile.symm
  conv_rhs => rw [ht]
  rw [trimEnd_append_of_blank fun c hc => hp c (List.mem_rtakeWhile_imp hc)]

/-! ## 改行を含む行 -/

/-- 改行を含む行の並び。最後の行の外は改行で終わり、改行は行末にしか無い。 -/
inductive Lined : List Text → Prop
  | nil : Lined []
  | last {l : Text} (hne : l ≠ []) (hl : '\n' ∉ l) : Lined [l]
  | cons {l : Text} {rest : List Text} (hl : '\n' ∉ l) (h : Lined rest) :
      Lined ((l ++ ['\n']) :: rest)

theorem lined_splitInclusive (t : Text) : Lined (splitInclusive t) := by
  induction t with
  | nil => exact .nil
  | cons c cs ih =>
    unfold splitInclusive
    split
    · next hc =>
      rw [hc]
      exact .cons (l := []) (by simp) ih
    · next hc =>
      split
      · exact .last (by simp) (by simpa using Ne.symm hc)
      · next l ls hls =>
        rw [hls] at ih
        cases ih with
        | last hne hl => exact .last (by simp) (by simp [Ne.symm hc, hl])
        | cons hl h => exact .cons (l := c :: _) (by simp [Ne.symm hc, hl]) h

theorem flatten_splitInclusive (t : Text) : (splitInclusive t).flatten = t := by
  induction t with
  | nil => rfl
  | cons c cs ih =>
    unfold splitInclusive
    split
    · rw [List.flatten_cons, ih, List.singleton_append]
    · split
      · next h =>
        rw [h] at ih
        rw [← ih]
        rfl
      · next l ls h =>
        rw [h] at ih
        rw [← ih]
        rfl

/-- 改行の無い文字列に改行と残りを繋いだものの、最初の行。 -/
theorem splitInclusive_append_newline {l : Text} (hl : '\n' ∉ l) (t : Text) :
    splitInclusive (l ++ '\n' :: t) = (l ++ ['\n']) :: splitInclusive t := by
  induction l with
  | nil => rw [List.nil_append, splitInclusive, if_pos rfl, List.nil_append]
  | cons c cs ih =>
    rw [List.mem_cons, not_or] at hl
    rw [List.cons_append, splitInclusive, if_neg (Ne.symm hl.1), ih hl.2, List.cons_append]

theorem splitInclusive_of_not_mem {l : Text} (hne : l ≠ []) (hl : '\n' ∉ l) :
    splitInclusive l = [l] := by
  induction l with
  | nil => exact absurd rfl hne
  | cons c cs ih =>
    rw [List.mem_cons, not_or] at hl
    rw [splitInclusive, if_neg (Ne.symm hl.1)]
    cases cs with
    | nil => rfl
    | cons d ds => rw [ih (by simp) hl.2]

/-- 行の並びを繋いで切り直すと、元の並びに戻る。 -/
theorem Lined.splitInclusive_flatten {ls : List Text} (h : Lined ls) :
    splitInclusive ls.flatten = ls := by
  induction h with
  | nil => rfl
  | last hne hl => rw [List.flatten_singleton, splitInclusive_of_not_mem hne hl]
  | cons hl _ ih =>
    rw [List.flatten_cons, List.append_assoc, List.singleton_append,
      splitInclusive_append_newline hl, ih]

theorem Lined.ne_nil {ls : List Text} (h : Lined ls) : ∀ l ∈ ls, l ≠ [] := by
  induction h with
  | nil => simp
  | last hne _ => simpa using hne
  | cons _ _ ih => simpa using ih

/-- 並びを二つに分けても、それぞれが行の並びである。 -/
theorem Lined.split {xs ys : List Text} (h : Lined (xs ++ ys)) : Lined xs ∧ Lined ys := by
  induction xs with
  | nil => exact ⟨.nil, h⟩
  | cons l rest ih =>
    rw [List.cons_append] at h
    generalize hr : rest ++ ys = r at h
    cases h with
    | last hne hl =>
      obtain ⟨rfl, rfl⟩ := List.append_eq_nil_iff.mp hr
      exact ⟨.last hne hl, .nil⟩
    | cons hl h =>
      obtain ⟨hrest, hys⟩ := ih (hr ▸ h)
      exact ⟨.cons hl hrest, hys⟩

/-! ## 段落 -/

theorem splitParagraphs_ne_nil (t : Text) : splitParagraphs t ≠ [] := by
  unfold splitParagraphs
  split
  · simp
  · simp
  · split <;> simp

@[simp] theorem joinParagraphs_singleton (p : Text) : joinParagraphs [p] = p := by
  simp [joinParagraphs, List.intercalate]

@[simp] theorem joinParagraphs_cons_cons (p q : Text) (ps : List Text) :
    joinParagraphs (p :: q :: ps) = p ++ '\n' :: '\n' :: joinParagraphs (q :: ps) := by
  simp [joinParagraphs, List.intercalate]

theorem joinParagraphs_cons_of_ne_nil (p : Text) {ps : List Text} (h : ps ≠ []) :
    joinParagraphs (p :: ps) = p ++ '\n' :: '\n' :: joinParagraphs ps := by
  obtain ⟨q, qs, rfl⟩ := List.exists_cons_of_ne_nil h
  exact joinParagraphs_cons_cons p q qs

theorem exists_joinParagraphs_cons (p : Text) (ps : List Text) :
    ∃ rest, joinParagraphs (p :: ps) = p ++ rest := by
  cases ps with
  | nil => exact ⟨[], by simp⟩
  | cons q qs => exact ⟨_, joinParagraphs_cons_cons p q qs⟩

/-- 先頭の段落の頭に一文字足す。 -/
theorem joinParagraphs_cons_head (c : Char) (p : Text) (ps : List Text) :
    joinParagraphs ((c :: p) :: ps) = c :: joinParagraphs (p :: ps) := by
  cases ps with
  | nil => simp
  | cons q qs => simp

/-- 段落を空行で繋ぐと元に戻る。 -/
theorem joinParagraphs_splitParagraphs (t : Text) : joinParagraphs (splitParagraphs t) = t := by
  fun_induction splitParagraphs t with
  | case1 => simp
  | case2 cs ih =>
    rw [joinParagraphs_cons_of_ne_nil [] (splitParagraphs_ne_nil cs), ih, List.nil_append]
  | case3 c cs _ h ih => exact absurd h (splitParagraphs_ne_nil cs)
  | case4 c cs _ p ps h ih => rw [joinParagraphs_cons_head, ← h, ih]

/-! ## byte での切り出し -/

/-- 切り出せる文字列は、後ろに何を繋いでも同じところで切れる。 -/
theorem splitBytes_append {n : Nat} {t x y : Text} (h : splitBytes n t = some (x, y)) (z : Text) :
    splitBytes n (t ++ z) = some (x, y ++ z) := by
  induction t generalizing n x y with
  | nil =>
    cases n with
    | zero =>
      simp only [splitBytes, Option.some.injEq, Prod.mk.injEq] at h
      rw [splitBytes, ← h.1, ← h.2]
    | succ n => simp [splitBytes] at h
  | cons c cs ih =>
    cases n with
    | zero =>
      simp only [splitBytes, Option.some.injEq, Prod.mk.injEq] at h
      rw [splitBytes, ← h.1, ← h.2]
    | succ n =>
      rw [splitBytes] at h
      split at h
      · next hc =>
        obtain ⟨⟨a, b⟩, hab, hxy⟩ := Option.map_eq_some_iff.mp h
        simp only [Prod.mk.injEq] at hxy
        rw [List.cons_append, splitBytes, if_pos hc, ih hab, Option.map_some, ← hxy.1, ← hxy.2]
      · simp at h

end Cassy.Infra
