import Cassy.Infra.Lines
import Cassy.Infra.Text

/-!
# 行の先頭で切る

行の先頭でだけ試す pattern で、文字列を切り分ける。pattern は、そこから始まる一致の長さを返す関数で
表す。一致の中では次の一致を試さないので、改行を越える一致は、後の行の先頭を隠すことがある。

行の先頭のどこでも一致しない部分（`Quiet`）は、切られずに残る。切り分けの結果は、`Quiet` な部分と一致
する行を順に並べて求める。
-/

namespace Cassy.Infra

variable (re : Text → Option Nat)

/-- 一致の始まりで切る。`skip` は一致の中に残っている文字数、`bol` は行の先頭にいるか。最初の成分は、
最初の一致の手前。 -/
def cutGo : Nat → Bool → Text → Text × List Text
  | _, _, [] => ([], [])
  | skip, bol, c :: t =>
    match if skip = 0 ∧ bol then re (c :: t) else none with
    | some n =>
      let r := cutGo (n - 1) (c == '\n') t
      ([], (c :: r.1) :: r.2)
    | none =>
      let r := cutGo (skip - 1) (c == '\n') t
      (c :: r.1, r.2)

/-- 一致の始まりで切り分けた、空でない部分。 -/
def cut (t : Text) : List Text :=
  let r := cutGo re 0 true t
  if r.1 = [] then r.2 else r.1 :: r.2

/-- どこかの行の先頭で一致する。 -/
def matchGo : Bool → Text → Bool
  | _, [] => false
  | bol, c :: t => (bol && (re (c :: t)).isSome) || matchGo (c == '\n') t

variable {re}

/-- 行の途中では、行の終わりまで切られない。 -/
theorem cutGo_inside (t : Text) : ∀ {l : Text} (skip : Nat), '\n' ∉ l → skip ≤ l.length + 1 →
    cutGo re skip false (l ++ '\n' :: t)
      = (l ++ '\n' :: (cutGo re 0 true t).1, (cutGo re 0 true t).2)
  | [], skip, _, hs => by
    have hz : skip - 1 = 0 := by simp at hs; omega
    simp [cutGo, hz]
  | c :: l, skip, hl, hs => by
    rw [List.mem_cons, not_or] at hl
    have hc : (c == '\n') = false := by simpa using Ne.symm hl.1
    have ih := cutGo_inside t (skip - 1) hl.2 (by simp at hs; omega)
    simp [cutGo, hc, ih]

/-- 先頭で一致しない行は、切られない。 -/
theorem cutGo_quiet {l t : Text} (hl : '\n' ∉ l) (hre : re (l ++ '\n' :: t) = none) :
    cutGo re 0 true (l ++ '\n' :: t)
      = (l ++ '\n' :: (cutGo re 0 true t).1, (cutGo re 0 true t).2) := by
  cases l with
  | nil =>
    rw [List.nil_append] at hre ⊢
    simp [cutGo, hre]
  | cons c l =>
    rw [List.mem_cons, not_or] at hl
    have hc : (c == '\n') = false := by simpa using Ne.symm hl.1
    rw [List.cons_append] at hre ⊢
    simp [cutGo, hre, hc, cutGo_inside t 0 hl.2 (Nat.zero_le _)]

/-- 先頭で一致し、一致が行の中で終わる行は、その手前で切られる。 -/
theorem cutGo_match {l t : Text} {n : Nat} (hl : '\n' ∉ l) (hne : l ≠ [])
    (hre : re (l ++ '\n' :: t) = some n) (hn : n ≤ l.length + 1) :
    cutGo re 0 true (l ++ '\n' :: t)
      = ([], (l ++ '\n' :: (cutGo re 0 true t).1) :: (cutGo re 0 true t).2) := by
  cases l with
  | nil => exact absurd rfl hne
  | cons c l =>
    rw [List.mem_cons, not_or] at hl
    have hc : (c == '\n') = false := by simpa using Ne.symm hl.1
    rw [List.cons_append] at hre ⊢
    simp [cutGo, hre, hc, cutGo_inside t (n - 1) hl.2 (by simp at hn; omega)]

/-- 一致から始まる文字列は、手前に何も残さない。 -/
theorem cutGo_of_match {t : Text} (h : (re t).isSome) (hne : t ≠ []) :
    (cutGo re 0 true t).1 = [] ∧ (cutGo re 0 true t).2 ≠ [] := by
  obtain ⟨n, hn⟩ := Option.isSome_iff_exists.1 h
  cases t with
  | nil => exact absurd rfl hne
  | cons c t => simp [cutGo, hn]

theorem cut_of_match {t : Text} (h : (re t).isSome) (hne : t ≠ []) :
    cut re t = (cutGo re 0 true t).2 := by
  rw [cut, if_pos (cutGo_of_match h hne).1]

/-- `t` が続くとき、`x` は行からなり、どの行の先頭でも一致しない。 -/
inductive Quiet (re : Text → Option Nat) (t : Text) : Text → Prop
  | nil : Quiet re t []
  | line {l x : Text} : '\n' ∉ l → re (l ++ '\n' :: (x ++ t)) = none → Quiet re t x →
      Quiet re t (l ++ '\n' :: x)

theorem Quiet.append {t x y : Text} (hx : Quiet re (y ++ t) x) (hy : Quiet re t y) :
    Quiet re t (x ++ y) := by
  induction hx with
  | nil => exact hy
  | line hl hre _ ih =>
    rw [List.append_assoc, List.cons_append]
    exact .line hl (by rwa [List.append_assoc]) ih

/-- 一致しない部分は、次の一致までの手前に繋がる。 -/
theorem Quiet.cutGo_eq {t x : Text} (h : Quiet re t x) :
    cutGo re 0 true (x ++ t) = (x ++ (cutGo re 0 true t).1, (cutGo re 0 true t).2) := by
  induction h with
  | nil => rfl
  | line hl hre _ ih =>
    rw [List.append_assoc, List.cons_append, cutGo_quiet hl hre, ih, List.append_assoc,
      List.cons_append]

theorem matchGo_inside {t : Text} : ∀ {l : Text}, '\n' ∉ l →
    matchGo re false (l ++ '\n' :: t) = matchGo re true t
  | [], _ => by simp [matchGo]
  | c :: l, hl => by
    rw [List.mem_cons, not_or] at hl
    have hc : (c == '\n') = false := by simpa using Ne.symm hl.1
    simp [matchGo, hc, matchGo_inside hl.2]

theorem matchGo_line {l t : Text} (hl : '\n' ∉ l) : matchGo re true (l ++ '\n' :: t)
    = ((re (l ++ '\n' :: t)).isSome || matchGo re true t) := by
  cases l with
  | nil => simp [matchGo]
  | cons c l =>
    rw [List.mem_cons, not_or] at hl
    have hc : (c == '\n') = false := by simpa using Ne.symm hl.1
    simp [matchGo, hc, matchGo_inside hl.2]

/-- 一致から始まる文字列には、一致がある。 -/
theorem matchGo_of_match {t : Text} (h : (re t).isSome) (hne : t ≠ []) : matchGo re true t = true := by
  cases t with
  | nil => exact absurd rfl hne
  | cons c t => simp [matchGo, h]

theorem Quiet.matchGo_eq {x : Text} (h : Quiet re [] x) : matchGo re true x = false := by
  induction h with
  | nil => rfl
  | line hl hre _ ih =>
    rw [List.append_nil] at hre
    rw [matchGo_line hl, hre, ih]
    rfl

/-- 一致が無ければ、切られない。 -/
theorem Quiet.cut_eq {x : Text} (h : Quiet re [] x) (hne : x ≠ []) : cut re x = [x] := by
  have hcut := h.cutGo_eq
  simp only [List.append_nil, cutGo] at hcut
  simp [cut, hcut, hne]

/-!
## 行だけを見る pattern で切る

一致するかどうかが行だけで決まる pattern（`LineLocal`）では、文字列を切ることは、行の列を一致する行の手前で分けること
（`chunk`）と同じである。

後半は、一致しない文字列についての事実である。どの pattern で切った部分も、もとの文字列に無い一致を持たない。
-/

/-! ## 行の列 -/

/-- 行を改行で終えて並べる。 -/
def unlines (ls : List Text) : Text := ls.flatMap (· ++ ['\n'])

theorem unlines_cons (l : Text) (ls : List Text) : unlines (l :: ls) = l ++ '\n' :: unlines ls := by
  rw [unlines, List.flatMap_cons, List.append_assoc, List.singleton_append]
  rfl

theorem unlines_ne_nil {ls : List Text} (h : ls ≠ []) : unlines ls ≠ [] := by
  cases ls with
  | nil => exact absurd rfl h
  | cons l ls =>
    rw [unlines_cons]
    simp

theorem splitInclusive_unlines : ∀ {ls : List Text}, (∀ l ∈ ls, '\n' ∉ l) →
    splitInclusive (unlines ls) = ls.map (· ++ ['\n'])
  | [], _ => rfl
  | l :: ls, h => by
    have ih := splitInclusive_unlines fun l' hl' => h l' (.tail _ hl')
    rw [unlines_cons, splitInclusive_append_newline (h l (.head _)), ih, List.map_cons]

/-! ## 分ける -/

section chunk

variable {α : Type} {p : α → Bool}

/-- `p` の成り立つ要素の手前で分ける。最初の成分は、最初のそれの手前。 -/
def chunk (p : α → Bool) : List α → List α × List (List α)
  | [] => ([], [])
  | a :: l =>
    let r := chunk p l
    if p a then ([], (a :: r.1) :: r.2) else (a :: r.1, r.2)

theorem chunk_append_of_not {l : List α} (h : ∀ a ∈ l, p a = false) (l' : List α) :
    chunk p (l ++ l') = (l ++ (chunk p l').1, (chunk p l').2) := by
  induction l with
  | nil => rfl
  | cons a l ih =>
    rw [List.cons_append, chunk, ih fun b hb => h b (.tail _ hb)]
    simp [h a (.head _)]

theorem chunk_of_not {l : List α} (h : ∀ a ∈ l, p a = false) : chunk p l = (l, []) := by
  have hl := chunk_append_of_not h []
  simpa [chunk] using hl

/-- 成り立つ要素から始まり、ほかに成り立つ要素の無い部分。 -/
def Headed (p : α → Bool) (l : List α) : Prop :=
  ∃ a rest, l = a :: rest ∧ p a = true ∧ ∀ b ∈ rest, p b = false

theorem Headed.chunk_append {l : List α} (h : Headed p l) (l' : List α) :
    chunk p (l ++ l') = ([], (l ++ (chunk p l').1) :: (chunk p l').2) := by
  obtain ⟨a, rest, rfl, ha, hrest⟩ := h
  rw [List.cons_append, chunk, chunk_append_of_not hrest]
  simp [ha]

/-- 最後の要素に `tail` を添え、ほかの要素には何も添えない。 -/
def withTail {β : Type} (tail : List β) : List α → List (α × List β)
  | [] => []
  | [a] => [(a, tail)]
  | a :: as => (a, []) :: withTail tail as

theorem mem_withTail {β : Type} {tail : List β} : ∀ {as : List α} {x : α × List β}, x ∈ withTail tail as →
    x.1 ∈ as ∧ (x.2 = [] ∨ as.getLast? = some x.1 ∧ x.2 = tail)
  | [a], x, h => by
    rw [List.mem_singleton.mp h]
    exact ⟨.head _, .inr ⟨rfl, rfl⟩⟩
  | a :: b :: as, x, h => by
    rcases List.mem_cons.mp h with rfl | h
    · exact ⟨.head _, .inl rfl⟩
    · obtain ⟨hmem, htail⟩ := mem_withTail h
      exact ⟨.tail _ hmem, htail⟩

theorem getLast?_withTail {β : Type} (tail : List β) : ∀ {as : List α} {a : α}, as.getLast? = some a →
    (a, tail) ∈ withTail tail as
  | [b], a, h => by
    cases h
    exact .head _
  | b :: c :: as, a, h => .tail _ (getLast?_withTail tail (show (c :: as).getLast? = some a from h))

/-- 部分を並べたものは、部分に分かれる。後に残ったものは、最後の部分に付く。 -/
theorem chunk_headed {β : Type} {p : β → Bool} {f : α → List β} {tail : List β}
    (htail : ∀ b ∈ tail, p b = false) : ∀ {as : List α}, (∀ a ∈ as, Headed p (f a)) →
      chunk p ((as.map f).flatten ++ tail)
        = if as = [] then (tail, []) else ([], (withTail tail as).map fun x => f x.1 ++ x.2)
  | [], _ => chunk_of_not htail
  | [a], h => by
    rw [List.map_singleton, List.flatten_singleton, (h a (.head _)).chunk_append, chunk_of_not htail]
    rfl
  | a :: b :: as, h => by
    have hrest : ∀ x ∈ b :: as, Headed p (f x) := fun x hx => h x (.tail _ hx)
    have ih := chunk_headed htail hrest
    rw [List.map_cons, List.flatten_cons, List.append_assoc, (h a (.head _)).chunk_append, ih]
    simp [withTail]

theorem chunk_flatten : ∀ {bs : List (List α)}, (∀ b ∈ bs, Headed p b) → chunk p bs.flatten = ([], bs)
  | [], _ => rfl
  | b :: bs, h => by
    have ih := chunk_flatten fun x hx => h x (.tail _ hx)
    rw [List.flatten_cons, (h b (.head _)).chunk_append, ih, List.append_nil]

end chunk

/-! ## 行だけを見る pattern -/

section local_

variable {re : Text → Option Nat}

/-- 一致が行だけで決まり、行の中で終わる。 -/
structure LineLocal (re : Text → Option Nat) : Prop where
  line : ∀ {l : Text} (t : Text), '\n' ∉ l → re (l ++ '\n' :: t) = re l
  length_le : ∀ {l : Text} {n : Nat}, re l = some n → n ≤ l.length + 1
  nil : re [] = none

/-- 改行の無い頭を見る pattern は、行だけを見る。 -/
theorem LineLocal.of_pattern {pat : Text} (hpat : '\n' ∉ pat) (hne : pat ≠ [])
    (h : ∀ t, re t = if pat <+: t then some pat.length else none) : LineLocal re where
  line := by
    intro l t _
    rw [h, h]
    exact if_congr (prefix_append_newline hpat) rfl rfl
  length_le := by
    intro l n hn
    rw [h] at hn
    split at hn
    · next hpre =>
      have hlen := hpre.length_le
      have hn := Option.some.inj hn
      omega
    · cases hn
  nil := by
    rw [h, if_neg]
    intro hpre
    exact hne (List.prefix_nil.mp hpre)

/-- 行だけを見る pattern で切ると、行の列が分かれる。 -/
theorem LineLocal.cutGo_unlines (hre : LineLocal re) : ∀ {ls : List Text}, (∀ l ∈ ls, '\n' ∉ l) →
    cutGo re 0 true (unlines ls)
      = (unlines (chunk (fun l => (re l).isSome) ls).1,
        (chunk (fun l => (re l).isSome) ls).2.map unlines)
  | [], _ => rfl
  | l :: ls, h => by
    have ih := hre.cutGo_unlines fun l' hl' => h l' (.tail _ hl')
    have hl := h l (.head _)
    rw [unlines_cons, chunk]
    cases hm : re l with
    | none =>
      rw [cutGo_quiet hl (by rw [hre.line _ hl, hm]), ih]
      simp [unlines_cons]
    | some n =>
      have hne : l ≠ [] := by
        rintro rfl
        rw [hre.nil] at hm
        cases hm
      rw [cutGo_match hl hne (by rw [hre.line _ hl, hm]) (hre.length_le hm), ih]
      simp [unlines]

/-- 一致しない行は、切られずに残る。 -/
theorem LineLocal.quiet (hre : LineLocal re) (t : Text) : ∀ {ls : List Text},
    (∀ l ∈ ls, '\n' ∉ l ∧ re l = none) → Quiet re t (unlines ls)
  | [], _ => .nil
  | l :: ls, h => by
    have ih := hre.quiet t fun l' hl' => h l' (.tail _ hl')
    obtain ⟨hl, hnone⟩ := h l (.head _)
    rw [unlines_cons]
    exact .line hl ((hre.line _ hl).trans hnone) ih

theorem LineLocal.matchGo_unlines (hre : LineLocal re) : ∀ {ls : List Text}, (∀ l ∈ ls, '\n' ∉ l) →
    matchGo re true (unlines ls) = ls.any fun l => (re l).isSome
  | [], _ => rfl
  | l :: ls, h => by
    have ih := hre.matchGo_unlines fun l' hl' => h l' (.tail _ hl')
    have hl := h l (.head _)
    rw [unlines_cons, matchGo_line hl, hre.line _ hl, ih, List.any_cons]

end local_

/-! ## 一致しない文字列 -/

section quiet

variable {re re' : Text → Option Nat}

/-- 切り分けた部分を繋ぐと、元に戻る。 -/
theorem cutGo_flatten (re : Text → Option Nat) : ∀ (t : Text) (skip : Nat) (bol : Bool),
    (cutGo re skip bol t).1 ++ (cutGo re skip bol t).2.flatten = t
  | [], _, _ => rfl
  | c :: t, skip, bol => by
    rw [cutGo]
    split
    · next n _ =>
      rw [List.nil_append, List.flatten_cons, List.cons_append, cutGo_flatten re t]
    · rw [List.cons_append, cutGo_flatten re t]

/-- 一致しない文字列を切った部分は、どれも一致しない。 -/
theorem matchGo_cutGo (hmono : ∀ x y, re' (x ++ y) = none → re' x = none) :
    ∀ (t : Text) (skip : Nat) (bol : Bool), matchGo re' bol t = false →
      matchGo re' bol (cutGo re skip bol t).1 = false
        ∧ ∀ part ∈ (cutGo re skip bol t).2, matchGo re' true part = false
  | [], _, _, _ => ⟨rfl, by simp [cutGo]⟩
  | c :: t, skip, bol, h => by
    rw [matchGo, Bool.or_eq_false_iff] at h
    have hhead : ∀ n, bol = true → re' (c :: (cutGo re n (c == '\n') t).1) = none := by
      intro n hbol
      have hnone : re' (c :: t) = none := by simpa [hbol] using h.1
      refine hmono _ (cutGo re n (c == '\n') t).2.flatten ?_
      rw [List.cons_append, cutGo_flatten]
      exact hnone
    rw [cutGo]
    split
    · next n hn =>
      obtain ⟨hfirst, hrest⟩ := matchGo_cutGo hmono t (n - 1) (c == '\n') h.2
      have hbol : bol = true := by
        by_contra hb
        simp [hb] at hn
      refine ⟨rfl, ?_⟩
      intro part hpart
      cases hpart with
      | head =>
        rw [matchGo, hhead _ hbol, hfirst]
        rfl
      | tail _ hpart => exact hrest part hpart
    · obtain ⟨hfirst, hrest⟩ := matchGo_cutGo hmono t (skip - 1) (c == '\n') h.2
      refine ⟨?_, hrest⟩
      rw [matchGo, hfirst]
      cases bol with
      | false => rfl
      | true => rw [hhead _ rfl]; rfl

/-- 一致しない文字列を切った部分は、どれも一致しない。 -/
theorem matchGo_cut (hmono : ∀ x y, re' (x ++ y) = none → re' x = none) {t : Text}
    (h : matchGo re' true t = false) : ∀ part ∈ cut re t, matchGo re' true part = false := by
  obtain ⟨hfirst, hrest⟩ := @matchGo_cutGo re _ hmono t 0 true h
  intro part hpart
  unfold cut at hpart
  dsimp only at hpart
  split at hpart
  · exact hrest part hpart
  · cases hpart with
    | head => exact hfirst
    | tail _ hpart => exact hrest part hpart

/-- 一致しなければ、切られない。 -/
theorem cutGo_of_not_match : ∀ {t : Text} {bol : Bool}, matchGo re bol t = false →
    cutGo re 0 bol t = (t, [])
  | [], _, _ => rfl
  | c :: t, bol, h => by
    rw [matchGo, Bool.or_eq_false_iff] at h
    have ih := cutGo_of_not_match h.2
    rw [cutGo]
    cases bol with
    | false => simp [ih]
    | true =>
      have hnone : re (c :: t) = none := by simpa using h.1
      simp [hnone, ih]

end quiet

end Cassy.Infra
