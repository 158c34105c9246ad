import Cassy.Infra.Lines

/-!
# 空行で区切られた段落

`split("\n\n")` と、空行で繋ぐこと。切った段落のうち最後のもの以外は改行で終わらないので、切った段落から選んだ
ものを繋いで切り直せば、選んだものに戻る（`splitParagraphs_joinParagraphs_of_sublist`）。

末尾の空白を落としても、空白でない段落は変わらない（`paragraphs_trimEnd`）。
-/

namespace Cassy.Infra

/-! ## 繋ぐ -/

/-- 改行で終わらない文字列の後ろに空行を繋げば、段落もそこで切れる。 -/
theorem splitParagraphs_append {x : Text} (hx : x.getLast? ≠ some '\n') (y : Text) :
    splitParagraphs (x ++ '\n' :: '\n' :: y) = splitParagraphs x ++ splitParagraphs y := by
  fun_induction splitParagraphs x with
  | case1 => simp [splitParagraphs]
  | case2 cs ih =>
    have hcs : cs.getLast? ≠ some '\n' := by
      cases cs with
      | nil => simp at hx
      | cons d ds => simpa [List.getLast?_cons_cons] using hx
    rw [List.cons_append, List.cons_append, splitParagraphs, ih hcs, List.cons_append]
  | case3 c cs _ h ih => exact absurd h (splitParagraphs_ne_nil cs)
  | case4 c cs hne p ps h ih =>
    have hcs : cs.getLast? ≠ some '\n' := by
      cases cs with
      | nil => simp
      | cons d ds => simpa [List.getLast?_cons_cons] using hx
    have hne' : ∀ ds, c = '\n' → cs ++ '\n' :: '\n' :: y = '\n' :: ds → False := by
      intro ds hc heq
      cases cs with
      | nil => simp [hc] at hx
      | cons d cs' =>
        rw [List.cons_append, List.cons.injEq] at heq
        exact hne cs' hc (by rw [heq.1])
    rw [List.cons_append, splitParagraphs.eq_3 _ _ hne', ih hcs, h]
    rfl

theorem joinParagraphs_append {xs ys : List Text} (hx : xs ≠ []) (hy : ys ≠ []) :
    joinParagraphs (xs ++ ys) = joinParagraphs xs ++ '\n' :: '\n' :: joinParagraphs ys := by
  induction xs with
  | nil => exact absurd rfl hx
  | cons x xs ih =>
    cases xs with
    | nil => rw [List.singleton_append, joinParagraphs_cons_of_ne_nil x hy, joinParagraphs_singleton]
    | cons x' xs =>
      rw [List.cons_append, joinParagraphs_cons_of_ne_nil x (by simp), ih (by simp),
        joinParagraphs_cons_cons, List.append_assoc, List.cons_append, List.cons_append]

theorem joinParagraphs_flatMap (ys : List Text) :
    joinParagraphs (ys.flatMap splitParagraphs) = joinParagraphs ys := by
  induction ys with
  | nil => rfl
  | cons b ys ih =>
    cases ys with
    | nil => simp [joinParagraphs_splitParagraphs]
    | cons c ys =>
      have hne : (c :: ys).flatMap splitParagraphs ≠ [] := by
        simp [List.flatMap_cons, splitParagraphs_ne_nil]
      rw [List.flatMap_cons, joinParagraphs_append (splitParagraphs_ne_nil b) hne,
        joinParagraphs_splitParagraphs, ih, joinParagraphs_cons_cons]

/-! ## 切った段落 -/

/-- 段落の文字は元の文字である。 -/
theorem mem_of_mem_splitParagraphs {t p : Text} (hp : p ∈ splitParagraphs t) {c : Char} (hc : c ∈ p) :
    c ∈ t := by
  fun_induction splitParagraphs t generalizing p with
  | case1 =>
    rw [List.mem_singleton.mp hp] at hc
    exact hc
  | case2 cs ih =>
    rcases List.mem_cons.mp hp with rfl | hp
    · exact absurd hc List.not_mem_nil
    · exact List.mem_cons_of_mem _ (List.mem_cons_of_mem _ (ih hp hc))
  | case3 d cs _ h ih => exact absurd h (splitParagraphs_ne_nil cs)
  | case4 d cs _ q qs h ih =>
    rcases List.mem_cons.mp hp with rfl | hp
    · rcases List.mem_cons.mp hc with rfl | hc
      · exact List.mem_cons_self
      · exact List.mem_cons_of_mem _ (ih (by rw [h]; exact List.mem_cons_self) hc)
    · exact List.mem_cons_of_mem _ (ih (by rw [h]; exact List.mem_cons_of_mem _ hp) hc)

/-- 段落はそれ以上切れない。 -/
theorem splitParagraphs_of_mem {t p : Text} (hp : p ∈ splitParagraphs t) : splitParagraphs p = [p] := by
  fun_induction splitParagraphs t generalizing p with
  | case1 =>
    rw [List.mem_singleton.mp hp]
    rfl
  | case2 cs ih =>
    rcases List.mem_cons.mp hp with rfl | hp
    · rfl
    · exact ih hp
  | case3 d cs _ h ih => exact absurd h (splitParagraphs_ne_nil cs)
  | case4 d cs hne q qs h ih =>
    rcases List.mem_cons.mp hp with rfl | hp
    · have hq : splitParagraphs q = [q] := ih (by rw [h]; exact List.mem_cons_self)
      -- `q` が改行で始まるなら `cs` もそうである。
      have hne' : ∀ ds, d = '\n' → q = '\n' :: ds → False := by
        intro ds hd hqs
        have hcs := joinParagraphs_splitParagraphs cs
        rw [h, hqs, joinParagraphs_cons_head] at hcs
        exact hne _ hd hcs.symm
      rw [splitParagraphs.eq_3 _ _ hne', hq]
    · exact ih (by rw [h]; exact List.mem_cons_of_mem _ hp)

/-- 最後のもの以外の段落は、改行で終わらない。 -/
theorem getLast?_ne_of_mem_dropLast {t p : Text} (hp : p ∈ (splitParagraphs t).dropLast) :
    p.getLast? ≠ some '\n' := by
  fun_induction splitParagraphs t generalizing p with
  | case1 => simp at hp
  | case2 cs ih =>
    rw [List.dropLast_cons_of_ne_nil (splitParagraphs_ne_nil cs)] at hp
    rcases List.mem_cons.mp hp with rfl | hp
    · simp
    · exact ih hp
  | case3 d cs _ h ih => exact absurd h (splitParagraphs_ne_nil cs)
  | case4 d cs hne q qs h ih =>
    cases qs with
    | nil => simp at hp
    | cons q' qs =>
      rw [h, List.dropLast_cons_of_ne_nil (by simp)] at ih
      rw [List.dropLast_cons_of_ne_nil (by simp)] at hp
      rcases List.mem_cons.mp hp with rfl | hp
      · cases q with
        | nil =>
          -- 空の段落の後なので `cs` は空行で始まり、`d` は改行ではない。
          have hcs := joinParagraphs_splitParagraphs cs
          rw [h, joinParagraphs_cons_cons, List.nil_append] at hcs
          rw [List.getLast?_singleton, ne_eq, Option.some.injEq]
          exact fun hd => hne _ hd hcs.symm
        | cons e es =>
          rw [List.getLast?_cons_cons]
          exact ih List.mem_cons_self
      · exact ih (List.mem_cons_of_mem _ hp)

/-- 切った段落から選んだものを繋いで切り直せば、選んだものに戻る。 -/
theorem splitParagraphs_joinParagraphs_of_sublist {t : Text} {ks : List Text}
    (h : List.Sublist ks (splitParagraphs t)) (hne : ks ≠ []) :
    splitParagraphs (joinParagraphs ks) = ks := by
  have hdrop : List.Sublist ks.dropLast (splitParagraphs t).dropLast := by
    have htail := h.reverse.tail
    rw [List.tail_reverse, List.tail_reverse] at htail
    exact List.reverse_sublist.mp htail
  have hlast : ∀ p ∈ ks.dropLast, p.getLast? ≠ some '\n' :=
    fun p hp => getLast?_ne_of_mem_dropLast (hdrop.subset hp)
  have hsingle : ∀ p ∈ ks, splitParagraphs p = [p] := fun p hp => splitParagraphs_of_mem (h.subset hp)
  clear h hdrop
  induction ks with
  | nil => exact absurd rfl hne
  | cons k ks ih =>
    cases ks with
    | nil => rw [joinParagraphs_singleton, hsingle k List.mem_cons_self]
    | cons k' ks =>
      rw [List.dropLast_cons_of_ne_nil (by simp)] at hlast
      rw [joinParagraphs_cons_cons, splitParagraphs_append (hlast k List.mem_cons_self),
        hsingle k List.mem_cons_self,
        ih (by simp) (fun p hp => hlast p (List.mem_cons_of_mem _ hp))
          fun p hp => hsingle p (List.mem_cons_of_mem _ hp)]
      rfl

/-! ## 末尾の空白 -/

theorem trimEnd_cons_congr {x y : Text} (h : trimEnd x = trimEnd y) (c : Char) :
    trimEnd (c :: x) = trimEnd (c :: y) := by
  have hcons : ∀ z, trimEnd (c :: z) = trimEnd (c :: trimEnd z) := by
    intro z
    obtain ⟨w, hw, hz⟩ := exists_trimEnd z
    conv_lhs => rw [hz, ← List.cons_append]
    exact trimEnd_append_of_blank hw
  rw [hcons x, hcons y, h]

theorem trim_append_of_blank (x : Text) {w : Text} (hw : Blank w) : trim (x ++ w) = trim x := by
  by_cases hx : trimStart x = []
  · have hblank : ∀ c ∈ x, isWhitespace c = true := by
      unfold trimStart at hx
      exact List.dropWhile_eq_nil_iff.mp hx
    have hall : trimStart (x ++ w) = [] :=
      List.dropWhile_eq_nil_iff.mpr (blank_append.mpr ⟨hblank, hw⟩)
    rw [trim, trim, hall, hx]
  · rw [trim, trim, trimStart_append hx, trimEnd_append_of_blank hw]

theorem trim_congr {x y : Text} (h : trimEnd x = trimEnd y) : trim x = trim y := by
  obtain ⟨w, hw, hx⟩ := exists_trimEnd x
  obtain ⟨v, hv, hy⟩ := exists_trimEnd y
  rw [hx, hy, trim_append_of_blank _ hw, trim_append_of_blank _ hv, h]

/-- 空白を足しても、足す前の最後の段落の中身が変わるだけで、後に増える段落は空白である。 -/
theorem splitParagraphs_append_blank (t : Text) {w : Text} (hw : Blank w) :
    ∃ ps p q ws, splitParagraphs t = ps ++ [p] ∧ splitParagraphs (t ++ w) = ps ++ q :: ws
      ∧ trimEnd q = trimEnd p ∧ ∀ x ∈ ws, Blank x := by
  have hall : ∀ {w}, Blank w → ∀ x ∈ splitParagraphs w, Blank x :=
    fun hw x hx c hc => hw c (mem_of_mem_splitParagraphs hx hc)
  fun_induction splitParagraphs t with
  | case1 =>
    obtain ⟨q, ws, hq⟩ := List.exists_cons_of_ne_nil (splitParagraphs_ne_nil w)
    have hblank := hall hw
    rw [hq] at hblank
    refine ⟨[], [], q, ws, rfl, hq, ?_, fun x hx => hblank x (List.mem_cons_of_mem _ hx)⟩
    exact trimEnd_eq_nil_of_blank (hblank q List.mem_cons_self)
  | case2 cs ih =>
    obtain ⟨ps, p, q, ws, ht, htw, hq, hws⟩ := ih
    refine ⟨[] :: ps, p, q, ws, by rw [ht]; rfl, ?_, hq, hws⟩
    rw [List.cons_append, List.cons_append, splitParagraphs, htw]
    rfl
  | case3 d cs _ h ih => exact absurd h (splitParagraphs_ne_nil cs)
  | case4 d cs hne q₀ qs h ih =>
    obtain ⟨ps, p, q, ws, ht, htw, hq, hws⟩ := ih
    rw [h] at ht
    by_cases hbreak : d = '\n' ∧ ∃ ds, cs ++ w = '\n' :: ds
    · -- 末尾の改行と、足した空白の改行が空行になる。
      obtain ⟨rfl, ds, hds⟩ := hbreak
      cases cs with
      | cons e es =>
        rw [List.cons_append, List.cons.injEq] at hds
        exact absurd (by rw [hds.1]) (hne es rfl)
      | nil =>
        obtain ⟨rfl, rfl⟩ : q₀ = [] ∧ qs = [] := by
          rw [show splitParagraphs [] = [[]] from rfl] at h
          simpa using h.symm
        have hds' : Blank ds := fun c hc => hw c (by rw [← List.nil_append w, hds]; simp [hc])
        refine ⟨[], ['\n'], [], splitParagraphs ds, rfl, ?_, rfl, hall hds'⟩
        rw [List.cons_append, hds]
        rfl
    · have hne' : ∀ ds, d = '\n' → cs ++ w = '\n' :: ds → False :=
        fun ds hd hds => hbreak ⟨hd, ds, hds⟩
      cases ps with
      | nil =>
        obtain ⟨rfl, rfl⟩ : q₀ = p ∧ qs = [] := by simpa using ht
        refine ⟨[], d :: q₀, d :: q, ws, rfl, ?_, trimEnd_cons_congr hq d, hws⟩
        rw [List.cons_append, splitParagraphs.eq_3 _ _ hne', htw]
        rfl
      | cons p₁ ps =>
        rw [List.cons_append, List.cons.injEq] at ht
        refine ⟨(d :: q₀) :: ps, p, q, ws, by rw [ht.2]; rfl, ?_, hq, hws⟩
        rw [List.cons_append, splitParagraphs.eq_3 _ _ hne', htw, ht.1]
        rfl

/-! ## 空白でない段落 -/

/-- 前後の空白を落とした、空白でない段落。 -/
def paragraphs (t : Text) : List Text := ((splitParagraphs t).map trim).filter fun p => !p.isEmpty

theorem trim_eq_nil_iff {t : Text} : trim t = [] ↔ Blank t := by
  constructor
  · intro h
    by_contra hblank
    have hstart : trimStart t ≠ [] := fun hnil => hblank (List.dropWhile_eq_nil_iff.mp hnil)
    obtain ⟨w, hw, ht⟩ := exists_trimEnd (trimStart t)
    rw [show trimEnd (trimStart t) = [] from h, List.nil_append] at ht
    obtain ⟨c, cs, hc⟩ := List.exists_cons_of_ne_nil hstart
    have hhead := List.head?_dropWhile_not isWhitespace t
    rw [show t.dropWhile isWhitespace = c :: cs from hc] at hhead
    have hspace : isWhitespace c = true := hw c (by rw [← ht, hc]; exact List.mem_cons_self)
    have hhead : isWhitespace c = false := hhead
    rw [hspace] at hhead
    cases hhead
  · intro h
    rw [trim, show trimStart t = [] from List.dropWhile_eq_nil_iff.mpr h]
    rfl

/-- 空白を足しても、空白でない段落は変わらない。 -/
theorem paragraphs_append_blank (t : Text) {w : Text} (hw : Blank w) :
    paragraphs (t ++ w) = paragraphs t := by
  obtain ⟨ps, p, q, ws, ht, htw, hq, hws⟩ := splitParagraphs_append_blank t hw
  have hnil : (ws.map trim).filter (fun p => !p.isEmpty) = [] := by
    rw [List.filter_eq_nil_iff]
    intro x hx
    obtain ⟨y, hy, rfl⟩ := List.mem_map.mp hx
    rw [trim_eq_nil_iff.mpr (hws y hy)]
    simp
  unfold paragraphs
  rw [ht, htw, List.map_append, List.map_append, List.filter_append, List.filter_append, List.map_cons,
    trim_congr hq]
  congr 1
  rw [← List.singleton_append, List.filter_append, hnil, List.append_nil]
  rfl

theorem paragraphs_trimEnd (t : Text) : paragraphs (trimEnd t) = paragraphs t := by
  obtain ⟨w, hw, ht⟩ := exists_trimEnd t
  conv_rhs => rw [ht]
  exact (paragraphs_append_blank _ hw).symm

/-- 空白だけの文字列には、空白でない段落が無い。 -/
theorem paragraphs_eq_nil_iff {t : Text} : paragraphs t = [] ↔ Blank t := by
  constructor
  · intro h
    have hblank : ∀ p ∈ splitParagraphs t, Blank p := by
      intro p hp
      rw [← trim_eq_nil_iff]
      have := List.filter_eq_nil_iff.mp h (trim p) (List.mem_map_of_mem hp)
      simpa using this
    rw [← joinParagraphs_splitParagraphs t]
    generalize splitParagraphs t = ps at hblank
    induction ps with
    | nil => exact blank_nil
    | cons p ps ih =>
      have hps := ih fun q hq => hblank q (List.mem_cons_of_mem _ hq)
      cases ps with
      | nil =>
        rw [joinParagraphs_singleton]
        exact hblank p List.mem_cons_self
      | cons q ps =>
        rw [joinParagraphs_cons_cons]
        refine blank_append.mpr ⟨hblank p List.mem_cons_self, fun c hc => ?_⟩
        rcases List.mem_cons.mp hc with rfl | hc
        · exact isWhitespace_newline
        · rcases List.mem_cons.mp hc with rfl | hc
          · exact isWhitespace_newline
          · exact hps c hc
  · intro h
    unfold paragraphs
    rw [List.filter_eq_nil_iff]
    intro x hx
    obtain ⟨p, hp, rfl⟩ := List.mem_map.mp hx
    rw [trim_eq_nil_iff.mpr fun c hc => h c (mem_of_mem_splitParagraphs hp hc)]
    simp

/-- 改行で終わらない文字列の後ろに空行を挟んで繋げば、段落も繋がる。 -/
theorem paragraphs_append {x : Text} (hx : x.getLast? ≠ some '\n') (y : Text) :
    paragraphs (x ++ '\n' :: '\n' :: y) = paragraphs x ++ paragraphs y := by
  unfold paragraphs
  rw [splitParagraphs_append hx, List.map_append, List.filter_append]

theorem trimEnd_getLast?_ne (t : Text) : (trimEnd t).getLast? ≠ some '\n' := by
  intro h
  obtain ⟨x, hx⟩ := List.getLast?_eq_some_iff.mp h
  have hidem := trimEnd_idem t
  rw [hx, trimEnd_append_of_blank (by decide)] at hidem
  have hlen := congrArg List.length hidem
  have hle := length_trimEnd_le x
  rw [List.length_append, List.length_singleton] at hlen
  omega

end Cassy.Infra
