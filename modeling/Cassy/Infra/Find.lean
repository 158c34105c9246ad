import Cassy.Infra.Text

/-!
# 文字列を探す

`str` の探索。位置は文字で数える。byte で数えても前後の順は変わらない。
-/

namespace Cassy.Infra

/-- `str::strip_prefix`。 -/
def stripPrefix (pat t : Text) : Option Text :=
  if pat.isPrefixOf t then some (t.drop pat.length) else none

/-- `str::split_once`。最初に現れるところで切る。 -/
def splitOnce (pat : Text) : Text → Option (Text × Text)
  | [] => if pat.isEmpty then some ([], []) else none
  | c :: cs =>
    if pat.isPrefixOf (c :: cs) then some ([], (c :: cs).drop pat.length)
    else (splitOnce pat cs).map fun r => (c :: r.1, r.2)

/-- `str::find`。 -/
def find (pat t : Text) : Option Nat := (splitOnce pat t).map (·.1.length)

/-- `str::contains`。 -/
def containsText (pat t : Text) : Bool := (splitOnce pat t).isSome

theorem stripPrefix_eq_some {pat t r : Text} (h : stripPrefix pat t = some r) : t = pat ++ r := by
  unfold stripPrefix at h
  split at h
  · next hpre =>
    obtain ⟨z, rfl⟩ := List.isPrefixOf_iff_prefix.mp hpre
    rw [List.drop_left] at h
    rw [Option.some.inj h]
  · simp at h

theorem splitOnce_eq_some {pat t : Text} {r : Text × Text} (h : splitOnce pat t = some r) :
    t = r.1 ++ (pat ++ r.2) := by
  induction t generalizing r with
  | nil =>
    unfold splitOnce at h
    split at h
    · next hempty =>
      rw [List.isEmpty_iff] at hempty
      rw [← Option.some.inj h, hempty]
      rfl
    · simp at h
  | cons c cs ih =>
    unfold splitOnce at h
    split at h
    · next hpre =>
      obtain ⟨z, hz⟩ := List.isPrefixOf_iff_prefix.mp hpre
      rw [← hz, List.drop_left] at h
      rw [← Option.some.inj h, ← hz]
      rfl
    · rw [Option.map_eq_some_iff] at h
      obtain ⟨r', hr', rfl⟩ := h
      rw [ih hr']
      rfl

/-- `str::rsplit_once`。最後に現れるところで切る。`pat` は空でない。 -/
def rsplitOnce (pat : Text) : Text → Option (Text × Text)
  | [] => none
  | c :: cs =>
    match rsplitOnce pat cs with
    | some (x, y) => some (c :: x, y)
    | none => if pat.isPrefixOf (c :: cs) then some ([], (c :: cs).drop pat.length) else none

/-- `str::strip_suffix`。 -/
def stripSuffix (pat t : Text) : Option Text :=
  (stripPrefix pat.reverse t.reverse).map List.reverse

/-- `str::replace` の繰り返し。`skip` は直前の一致の残りである。 -/
def replaceFrom (pat rep : Text) : Nat → Text → Text
  | _, [] => []
  | skip + 1, _ :: t => replaceFrom pat rep skip t
  | 0, c :: t =>
    if pat.isPrefixOf (c :: t) then rep ++ replaceFrom pat rep (pat.length - 1) t
    else c :: replaceFrom pat rep 0 t

/-- `str::replace`。`pat` は空でない。 -/
def replaceText (pat rep t : Text) : Text := replaceFrom pat rep 0 t

/-- `rsplit_once('\n')`。 -/
def rsplitOnceNewline (t : Text) : Option (Text × Text) :=
  (splitOnce ['\n'] t.reverse).map fun r => (r.2.reverse, r.1.reverse)

theorem rsplitOnceNewline_eq_some {t head last : Text} (h : rsplitOnceNewline t = some (head, last)) :
    t = head ++ '\n' :: last := by
  obtain ⟨⟨x, y⟩, hsplit, heq⟩ := Option.map_eq_some_iff.mp h
  obtain ⟨rfl, rfl⟩ := Prod.mk.inj heq
  rw [← List.reverse_reverse t, splitOnce_eq_some hsplit]
  simp

/-- 改行の無い最後の行は、そこで切れる。 -/
theorem rsplitOnceNewline_append (head : Text) {last : Text} (h : '\n' ∉ last) :
    rsplitOnceNewline (head ++ '\n' :: last) = some (head, last) := by
  have hsplit : ∀ {x : Text} (y : Text), '\n' ∉ x → splitOnce ['\n'] (x ++ '\n' :: y) = some (x, y) := by
    intro x y hx
    induction x with
    | nil => simp [splitOnce, List.isPrefixOf]
    | cons c x ih =>
      rw [List.mem_cons, not_or] at hx
      have hc : ('\n' == c) = false := by simpa using hx.1
      rw [List.cons_append, splitOnce, List.isPrefixOf, hc, Bool.false_and, if_neg Bool.false_ne_true,
        ih hx.2]
      rfl
  have hrev : (head ++ '\n' :: last).reverse = last.reverse ++ '\n' :: head.reverse := by simp
  unfold rsplitOnceNewline
  rw [hrev, hsplit _ (by rwa [List.mem_reverse]), Option.map_some, List.reverse_reverse,
    List.reverse_reverse]

/-- 区切りを含まない文字列は、最初の区切りで切れる。 -/
theorem append_separator_inj {c : Char} {x y s t : Text} (hx : c ∉ x) (hy : c ∉ y)
    (h : x ++ c :: s = y ++ c :: t) : x = y ∧ s = t := by
  induction x generalizing y with
  | nil =>
    cases y with
    | nil => exact ⟨rfl, (List.cons.inj h).2⟩
    | cons d y => exact absurd (List.cons.inj h).1 fun heq => hy (heq ▸ List.mem_cons_self)
  | cons a x ih =>
    cases y with
    | nil => exact absurd (List.cons.inj h).1 fun heq => hx (heq ▸ List.mem_cons_self)
    | cons d y =>
      obtain ⟨had, hrest⟩ := List.cons.inj h
      obtain ⟨hxy, hst⟩ := ih (fun hm => hx (List.mem_cons_of_mem _ hm))
        (fun hm => hy (List.mem_cons_of_mem _ hm)) hrest
      exact ⟨by rw [had, hxy], hst⟩

/-!
## 塊ごとの置き換え

印の文字で始まる同じ長さの塊と、印を含まない塊が並んでいるとき、印で始まる列を置き換えることは、塊を一つずつ置き換える
ことに等しい。塊の境目をまたぐ一致は無い。
-/

/-- 印 `d` を含まないか、`d` の後ろに印でない文字が `n` 個続く。 -/
def Framed (d : Char) (n : Nat) (w : Text) : Prop := d ∉ w ∨ ∃ xs, w = d :: xs ∧ d ∉ xs ∧ xs.length = n

variable {d : Char} {ps rep : Text}

/-- 印の無い塊は、そのまま残る。 -/
theorem replaceFrom_append_of_not_mem {w : Text} (hw : d ∉ w) (t : Text) :
    replaceFrom (d :: ps) rep 0 (w ++ t) = w ++ replaceFrom (d :: ps) rep 0 t := by
  induction w with
  | nil => rfl
  | cons c w ih =>
    rw [List.mem_cons, not_or] at hw
    have hc : (d == c) = false := beq_eq_false_iff_ne.mpr hw.1
    rw [List.cons_append, replaceFrom, List.isPrefixOf, hc, Bool.false_and, if_neg Bool.false_ne_true,
      ih hw.2]
    rfl

/-- 一致の残りは読み飛ばされる。 -/
theorem replaceFrom_skip {pat : Text} (w t : Text) :
    replaceFrom pat rep w.length (w ++ t) = replaceFrom pat rep 0 t := by
  induction w with
  | nil => rfl
  | cons c w ih =>
    rw [List.length_cons, List.cons_append, replaceFrom]
    exact ih

/-- 一つの塊の置き換え。 -/
theorem replaceFrom_append_of_framed {w : Text} (hw : Framed d ps.length w) (t : Text) :
    replaceFrom (d :: ps) rep 0 (w ++ t)
      = (if w = d :: ps then rep else w) ++ replaceFrom (d :: ps) rep 0 t := by
  rcases hw with hw | ⟨xs, rfl, hxs, hlen⟩
  · have hne : w ≠ d :: ps := by
      rintro rfl
      exact hw List.mem_cons_self
    rw [if_neg hne]
    exact replaceFrom_append_of_not_mem hw t
  · have hstarts : (d :: ps).isPrefixOf (d :: (xs ++ t)) = true ↔ d :: xs = d :: ps := by
      rw [List.isPrefixOf_iff_prefix, List.cons_prefix_cons, List.cons.injEq]
      refine and_congr_right fun _ => ⟨fun hpre => ?_, fun heq => ?_⟩
      · exact ((List.prefix_of_prefix_length_le hpre (List.prefix_append xs t)
          (Nat.le_of_eq hlen.symm)).eq_of_length hlen.symm).symm
      · rw [heq]
        exact List.prefix_append ps t
    rw [List.cons_append, replaceFrom]
    by_cases hmatch : d :: xs = d :: ps
    · rw [if_pos (hstarts.mpr hmatch), if_pos hmatch, List.length_cons, Nat.add_sub_cancel, ← hlen,
        replaceFrom_skip]
    · rw [if_neg fun h => hmatch (hstarts.mp h), if_neg hmatch, List.cons_append,
        replaceFrom_append_of_not_mem hxs]

/-- 並んだ塊の置き換えは、塊ごとの置き換えである。 -/
theorem replaceText_flatMap {f : Char → Text} (hf : ∀ c, Framed d ps.length (f c)) (v : Text) :
    replaceText (d :: ps) rep (v.flatMap f)
      = v.flatMap fun c => if f c = d :: ps then rep else f c := by
  unfold replaceText
  induction v with
  | nil => rfl
  | cons c v ih =>
    rw [List.flatMap_cons, replaceFrom_append_of_framed (hf c), ih, List.flatMap_cons]

end Cassy.Infra
