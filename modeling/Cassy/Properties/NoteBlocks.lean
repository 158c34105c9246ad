import Cassy.Properties.Marks

/-!
# notes の塊の位置

`note_blocks` が返す塊は notes の部分文字列で、前は空行か notes の頭、後ろは空行か notes の
終わりまで空白しか無い。塊どうしは空行で隔てられる。`replace_raw_artifact_note` が塊を
入れ替えたり消したりしても、この位置のために継ぎ目に新しい予約行は立たない。
-/

namespace Cassy

open Infra

/-! ## 塊の位置 -/

/-- 塊の前にあるもの。notes の頭か空行の後に、空白だけが続く。 -/
def Margin (x : Text) : Prop :=
  ∃ y w, x = y ++ w ∧ Blank w ∧ (y = [] ∨ ['\n', '\n'] <+: w)

/-- `s` は notes の中にあり、前後は塊の境である。 -/
def Placed (notes : Text) (s : Span) : Prop :=
  ∃ x y, notes = x ++ (s.text ++ y) ∧ s.start = x.length ∧ Margin x ∧ BlankHead y

/-- `s` の後、空白と空行を挟んだ先に `s'` がある。 -/
def Separated (notes : Text) (s s' : Span) : Prop :=
  ∃ w y, Blank w ∧ notes.take s'.start = notes.take s.stop ++ (w ++ '\n' :: '\n' :: y)

theorem Margin.blankTail {x : Text} (h : Margin x) : BlankTail x := by
  obtain ⟨y, w, rfl, hw, rfl | ⟨w', rfl⟩⟩ := h
  · exact blankTail_of_blank hw
  · refine blankTail_append_newline y fun c hc => hw c ?_
    exact List.mem_cons_of_mem _ hc

/-- 末尾の二文字までを落としても、落ちるのは空白だけである。 -/
theorem Margin.blank_of_append {x d : Text} (h : Margin (x ++ d)) (hd : d.length ≤ 2) :
    Blank d := by
  obtain ⟨y, w, heq, hw, hcase⟩ := h
  have hlen : d.length ≤ w.length := by
    rcases hcase with rfl | ⟨w', rfl⟩
    · rw [List.nil_append] at heq
      rw [← heq, List.length_append]
      omega
    · simp only [List.length_append, List.length_cons, List.length_nil]
      omega
  have hsuffix : d <:+ w := by
    refine List.suffix_of_suffix_length_le ?_ ⟨y, rfl⟩ hlen
    exact ⟨x, heq⟩
  exact fun c hc => hw c (hsuffix.subset hc)

/-- `trim` の前後の空白。前は `takeWhile` で数えたものである。 -/
theorem exists_trim_takeWhile (t : Text) :
    ∃ w, Blank w ∧ t = t.takeWhile isWhitespace ++ (trim t ++ w) := by
  obtain ⟨w, hw, ht⟩ := exists_trimEnd (trimStart t)
  refine ⟨w, hw, ?_⟩
  rw [trim, ← ht, trimStart, List.takeWhile_append_dropWhile]

section Blocks

variable {notes : Text}

/-- 塊の前。空であるか、空行で終わる。 -/
def AtBoundary (pre : Text) : Prop := pre = [] ∨ ∃ x, pre = x ++ ['\n', '\n']

/-- 切り出した塊の位置。`rest` は塊の後ろの全体。 -/
theorem placed_trim {pre rest : Text} {block : Span} (hnotes : notes = pre ++ (block.text ++ rest))
    (hstart : block.start = pre.length) (hpre : AtBoundary pre) (hrest : BlankHead rest) :
    Placed notes block.trim := by
  obtain ⟨w, hw, ht⟩ := exists_trim_takeWhile block.text
  have hlead : Blank (block.text.takeWhile isWhitespace) := fun _ hc => List.mem_takeWhile_imp hc
  refine ⟨pre ++ block.text.takeWhile isWhitespace, w ++ rest, ?_, ?_, ?_, .append hw hrest⟩
  · rw [hnotes]
    conv_lhs => rw [ht]
    simp [Span.trim]
  · rw [Span.trim, hstart, List.length_append]
  · rcases hpre with rfl | ⟨x, rfl⟩
    · exact ⟨[], _, rfl, hlead, Or.inl rfl⟩
    · refine ⟨x, ['\n', '\n'] ++ block.text.takeWhile isWhitespace, List.append_assoc .., ?_,
        Or.inr (List.prefix_append ..)⟩
      exact blank_append.mpr ⟨by decide, hlead⟩

/-- 塊を空行で閉じた先にあるものは、その塊から隔てられている。 -/
theorem separated_trim {pre rest z : Text} {block s : Span}
    (hnotes : notes = pre ++ (block.text ++ rest)) (hstart : block.start = pre.length)
    (htake : notes.take s.start = pre ++ (block.text ++ '\n' :: '\n' :: z)) :
    Separated notes block.trim s := by
  obtain ⟨w, hw, ht⟩ := exists_trim_takeWhile block.text
  refine ⟨w, z, hw, ?_⟩
  have hstop : notes.take block.trim.stop
      = pre ++ (block.text.takeWhile isWhitespace ++ trim block.text) := by
    have hsplit : notes
        = (pre ++ (block.text.takeWhile isWhitespace ++ trim block.text)) ++ (w ++ rest) := by
      rw [hnotes]
      conv_lhs => rw [ht]
      simp
    have hlen : block.trim.stop
        = (pre ++ (block.text.takeWhile isWhitespace ++ trim block.text)).length := by
      simp [Span.stop, Span.trim, hstart, Nat.add_assoc]
    rw [hlen]
    conv_lhs => rw [hsplit]
    exact List.take_left
  rw [htake, hstop]
  conv_lhs => rw [ht]
  simp

/--
残りの段落から切り出した塊は、どれも `pre` の後にあり、互いに隔てられている。

段落を一つ読むごとに、塊を閉じるか、今の塊に段落を足すかのどちらかである。足した塊も、
`pre` に続いて残りの段落が繋がる形は変わらない。
-/
theorem noteBlocksFrom_layout (parseTimestamp : Text → Bool) {pre : Text} (block : Span)
    {ps : List Text}
    (hnotes : notes = pre ++ joinParagraphs (block.text :: ps)) (hstart : block.start = pre.length)
    (hpre : AtBoundary pre) :
    (∀ s ∈ noteBlocksFrom parseTimestamp block ps, Placed notes s ∧ pre.length ≤ s.start)
      ∧ (noteBlocksFrom parseTimestamp block ps).Pairwise (Separated notes) := by
  have hle : pre.length ≤ block.trim.start := by
    rw [Span.trim, hstart]
    exact Nat.le_add_right _ _
  induction ps generalizing pre block with
  | nil =>
    rw [joinParagraphs_singleton, ← List.append_nil block.text] at hnotes
    have hplaced : Placed notes block.trim :=
      placed_trim hnotes hstart hpre (blankHead_of_blank blank_nil)
    rw [noteBlocksFrom]
    exact ⟨by simpa using ⟨hplaced, hle⟩, List.pairwise_singleton _ _⟩
  | cons p ps ih =>
    rw [joinParagraphs_cons_cons] at hnotes
    rw [noteBlocksFrom]
    split
    · -- 塊を閉じる。残りは空行の後から始まる。
      have hnotes' : notes = pre ++ (block.text ++ ['\n', '\n']) ++ joinParagraphs (p :: ps) := by
        rw [hnotes]
        simp
      have hlen : (pre ++ (block.text ++ ['\n', '\n'])).length = block.stop + 2 := by
        simp [Span.stop, hstart, Nat.add_assoc]
      obtain ⟨hmem, hpair⟩ := ih { start := block.stop + 2, text := p } hnotes' hlen.symm
        (Or.inr ⟨pre ++ block.text, by simp⟩) (by rw [hlen, Span.trim]; simp)
      have hplaced : Placed notes block.trim :=
        placed_trim hnotes hstart hpre (blankHead_newline _)
      have hge : pre.length ≤ (pre ++ (block.text ++ ['\n', '\n'])).length := by simp
      refine ⟨fun s hs => ?_, List.pairwise_cons.mpr ⟨fun s hs => ?_, hpair⟩⟩
      · rcases List.mem_cons.mp hs with rfl | hs
        · exact ⟨hplaced, hle⟩
        · exact ⟨(hmem s hs).1, hge.trans (hmem s hs).2⟩
      · refine separated_trim hnotes hstart (z := (joinParagraphs (p :: ps)).take
          (s.start - (pre ++ (block.text ++ ['\n', '\n'])).length)) ?_
        conv_lhs => rw [hnotes']
        rw [List.take_append, List.take_of_length_le (hmem s hs).2]
        simp
    · -- 段落を足した塊で読み進める。
      refine ih { block with text := block.text ++ '\n' :: '\n' :: p } ?_ hstart hpre ?_
      · rw [hnotes]
        cases ps with
        | nil => simp
        | cons q qs => simp
      · rw [Span.trim, hstart]
        exact Nat.le_add_right _ _

/-- `note_blocks` の塊は、notes の中の境の間にあり、互いに隔てられている。 -/
theorem noteBlocks_layout (parseTimestamp : Text → Bool) (notes : Text) :
    (∀ s ∈ noteBlocks parseTimestamp notes, Placed notes s)
      ∧ (noteBlocks parseTimestamp notes).Pairwise (Separated notes) := by
  rw [noteBlocks]
  split
  · exact ⟨by simp, List.Pairwise.nil⟩
  · next p ps hsplit =>
    have hnotes : notes = [] ++ joinParagraphs (p :: ps) := by
      rw [← hsplit, joinParagraphs_splitParagraphs, List.nil_append]
    obtain ⟨hmem, hpair⟩ := noteBlocksFrom_layout parseTimestamp
      { start := 0, text := p } hnotes rfl (Or.inl rfl)
    exact ⟨fun s hs => (hmem s (List.mem_filter.mp hs).1).1, hpair.filter _⟩

end Blocks

/-! ## 写しの入れ替え -/

/-- 後ろの塊を書き換えた `next` でも、`s` までは元のままで、後ろは空白の行から始まる。 -/
def Intact (notes next : Text) (s : Span) : Prop :=
  next.take s.stop = notes.take s.stop ∧ BlankHead (next.drop s.stop)

theorem Span.start_le_stop (s : Span) : s.start ≤ s.stop := Nat.le_add_right _ _

theorem Placed.intact {notes : Text} {s : Span} (h : Placed notes s) : Intact notes notes s := by
  obtain ⟨x, y, rfl, hstart, -, hy⟩ := h
  refine ⟨rfl, ?_⟩
  have hdrop : (x ++ (s.text ++ y)).drop s.stop = y := by
    rw [Span.stop, hstart, ← List.length_append, ← List.append_assoc]
    exact List.drop_left
  rw [hdrop]
  exact hy

section Edit

variable {notes next : Text} {s : Span}

/-- 塊の前は境である。 -/
theorem Intact.margin (hp : Placed notes s) (hi : Intact notes next s) :
    Margin (next.take s.start) := by
  obtain ⟨x, y, rfl, hstart, hx, -⟩ := hp
  have htake : next.take s.start = (next.take s.stop).take s.start := by
    rw [List.take_take, Nat.min_eq_left s.start_le_stop]
  rw [htake, hi.1, List.take_take, Nat.min_eq_left s.start_le_stop, hstart, List.take_left]
  exact hx

/-- 塊の前と後ろの予約行は、全体の予約行である。 -/
theorem Intact.marks_subset (hp : Placed notes s) (hi : Intact notes next s) :
    marks (next.take s.start) ++ marks (next.drop s.stop) ⊆ marks next := by
  have hsplit : next = next.take s.start ++ (next.drop s.start).take s.text.length
      ++ next.drop s.stop := by
    rw [Span.stop, ← List.drop_drop, List.append_assoc, List.take_append_drop,
      List.take_append_drop]
  have hmarks : marks next = marks (next.take s.start ++ (next.drop s.start).take s.text.length)
      ++ marks (next.drop s.stop) := by
    rw [← marks_append_of_blankHead hi.2, ← hsplit]
  rw [hmarks]
  exact List.append_subset.mpr
    ⟨List.Subset.trans (marks_subset_append_of_blankTail (hi.margin hp).blankTail)
      (List.subset_append_left ..), List.subset_append_right ..⟩

/--
塊の前を高々二文字落として `z` を繋いだものの予約行。

落とさないなら前が空白の行で終わり、落とすなら `z` が空白の行で始まるので、継ぎ目に予約行は
立たない。
-/
theorem marks_edit_subset {x d z : Text} {extra : List Text} (hp : Placed notes s)
    (hi : Intact notes next s) (hx : next.take s.start = x ++ d) (hd : d.length ≤ 2)
    (hz : d = [] ∨ z = next.drop s.stop) (hmarks : marks z ⊆ extra ++ marks (next.drop s.stop)) :
    marks (x ++ z) ⊆ extra ++ marks next := by
  have hmargin := hi.margin hp
  rw [hx] at hmargin
  have hblank : Blank d := hmargin.blank_of_append hd
  have hsub : marks (x ++ z) ⊆ marks x ++ marks z := by
    rcases hz with rfl | rfl
    · rw [List.append_nil] at hmargin
      exact marks_append_subset_of_blankTail hmargin.blankTail
    · rw [marks_append_of_blankHead hi.2]
      exact List.Subset.refl _
  have hx' : marks x = marks (next.take s.start) := by
    rw [hx, marks_append_of_blankHead (blankHead_of_blank hblank), marks_of_blank hblank,
      List.append_nil]
  obtain ⟨hleft, hright⟩ := List.append_subset.mp (hi.marks_subset hp)
  refine List.Subset.trans hsub (List.append_subset.mpr ⟨?_, ?_⟩)
  · rw [hx']
    exact List.Subset.trans hleft (List.subset_append_right ..)
  · exact List.Subset.trans hmarks (List.append_subset.mpr
      ⟨List.subset_append_left .., List.Subset.trans hright (List.subset_append_right ..)⟩)

/-- 隔てられた前の塊は、notes の中に収まっている。 -/
theorem Separated.length_take {s' : Span} (h : Separated notes s' s) :
    (notes.take s'.stop).length = s'.stop := by
  obtain ⟨w, y, -, htake⟩ := h
  have hlen := congrArg List.length htake
  simp only [List.length_take, List.length_append, List.length_cons] at hlen ⊢
  omega

/-- 書き換えた塊の前にある塊は、元のままである。 -/
theorem Separated.intact_edit {s' : Span} {x d z : Text} (hsep : Separated notes s' s)
    (hi : Intact notes next s) (hx : next.take s.start = x ++ d) (hd : d.length ≤ 2)
    (hz : d = [] ∨ z = next.drop s.stop) : Intact notes (x ++ z) s' := by
  have hlen := hsep.length_take
  obtain ⟨w, y, hw, htake⟩ := hsep
  have hstart : next.take s.start = notes.take s.start := by
    have h := congrArg (List.take s.start) hi.1
    rwa [List.take_take, List.take_take, Nat.min_eq_left s.start_le_stop] at h
  rw [hx, htake, ← List.append_assoc] at hstart
  -- 落とした `d` は、隔てる空行より前には届かない。
  obtain ⟨k, hxk, hk⟩ : ∃ k, x = notes.take s'.stop ++ w ++ k
      ∧ (k = [] ∧ d ≠ [] ∨ ∃ k', k = '\n' :: k') := by
    rcases List.append_eq_append_iff.mp hstart with ⟨a, hxa, hda⟩ | ⟨k, hxk, hk⟩
    · have hdlen := congrArg List.length hda
      simp only [List.length_append, List.length_cons] at hdlen
      have ha : a = [] := List.length_eq_zero_iff.mp (by omega)
      refine ⟨[], ?_, Or.inl ⟨rfl, by rw [hda]; simp⟩⟩
      rw [hxa, ha, List.append_nil, List.append_nil]
    · refine ⟨k, hxk, ?_⟩
      cases k with
      | nil => exact Or.inl ⟨rfl, by rw [List.nil_append] at hk; rw [← hk]; simp⟩
      | cons c k' =>
        rw [List.cons_append, List.cons.injEq] at hk
        exact Or.inr ⟨k', by rw [← hk.1]⟩
  have hsplit : x ++ z = notes.take s'.stop ++ (w ++ (k ++ z)) := by
    rw [hxk]
    simp
  have htake' : (x ++ z).take s'.stop = notes.take s'.stop := by
    rw [hsplit]
    exact List.take_left' hlen
  have hdrop : (x ++ z).drop s'.stop = w ++ (k ++ z) := by
    rw [hsplit]
    exact List.drop_left' hlen
  refine ⟨htake', ?_⟩
  rw [hdrop]
  refine .append hw ?_
  rcases hk with ⟨rfl, hd'⟩ | ⟨k', rfl⟩
  · rw [hz.resolve_left hd', List.nil_append]
    exact hi.2
  · exact blankHead_newline _

end Edit

theorem dropTwoBytes_eq {t t' : Text} (h : dropTwoBytes t = some t') :
    ∃ d, t = t' ++ d ∧ d.length ≤ 2 := by
  have ht : t = t.reverse.reverse := (List.reverse_reverse t).symm
  unfold dropTwoBytes at h
  split at h
  · next c rest heq =>
    rw [heq] at ht
    split at h
    · rw [Option.some.injEq] at h
      exact ⟨[c], by rw [ht, ← h, List.reverse_cons], by simp⟩
    · split at h
      · next c' rest' =>
        split at h
        · rw [Option.some.injEq] at h
          exact ⟨[c', c], by rw [ht, ← h]; simp, by simp⟩
        · simp at h
      · simp at h
  · simp at h

/-- 写しを消したものは、写しの前を高々二文字落として、写しの後ろを繋いだものである。 -/
theorem removeCopy_eq {next next' : Text} {s : Span} (h : removeCopy next s = some next') :
    ∃ x d z, next.take s.start = x ++ d ∧ d.length ≤ 2 ∧ next' = x ++ z
      ∧ (d = [] ∨ z = next.drop s.stop) ∧ marks z ⊆ marks (next.drop s.stop) := by
  rw [removeCopy] at h
  split at h
  · next hnl =>
    obtain ⟨rest, hrest⟩ := List.isPrefixOf_iff_prefix.mp hnl
    rw [Option.some.injEq] at h
    refine ⟨next.take s.start, [], (next.drop s.stop).drop 2, (List.append_nil _).symm, by simp,
      h.symm, Or.inl rfl, ?_⟩
    have hmarks : marks (next.drop s.stop) = marks rest := by
      rw [← hrest]
      exact (marks_append_newline [] _).trans (marks_append_newline [] rest)
    rw [hmarks, ← hrest]
    exact List.Subset.refl _
  · split at h
    · obtain ⟨x, hx, hnext⟩ := Option.map_eq_some_iff.mp h
      obtain ⟨d, hd, hlen⟩ := dropTwoBytes_eq hx
      exact ⟨x, d, _, hd, hlen, hnext.symm, Or.inr rfl, List.Subset.refl _⟩
    · rw [Option.some.injEq] at h
      exact ⟨_, [], _, (List.append_nil _).symm, by simp, h.symm, Or.inl rfl, List.Subset.refl _⟩

/-- 後ろから順に写しを書き換えても、立つ予約行は元の notes と受領のものである。 -/
theorem marks_replaceCopies {notes receipt next next' : Text} {enriched : Bool}
    {copies : List Span} (hplaced : ∀ s ∈ copies, Placed notes s)
    (hsep : copies.Pairwise fun s s' => Separated notes s' s)
    (hintact : ∀ s ∈ copies, Intact notes next s)
    (h : replaceCopies receipt next enriched copies = some next') :
    marks next' ⊆ marks receipt ++ marks next := by
  induction copies generalizing next enriched with
  | nil =>
    rw [replaceCopies, Option.some.injEq] at h
    rw [← h]
    exact List.subset_append_right _ _
  | cons s copies ih =>
    obtain ⟨hs, hsep⟩ := List.pairwise_cons.mp hsep
    have hp := hplaced s List.mem_cons_self
    have hi := hintact s List.mem_cons_self
    have hplaced' : ∀ s' ∈ copies, Placed notes s' := fun s' hs' =>
      hplaced s' (List.mem_cons_of_mem _ hs')
    -- どちらの書き換えも、写しの前を高々二文字落として何かを繋ぐ形である。
    obtain ⟨x, d, z, b, hx, hd, hz, hmarks, hrest⟩ : ∃ x d z b, next.take s.start = x ++ d
        ∧ d.length ≤ 2 ∧ (d = [] ∨ z = next.drop s.stop)
        ∧ marks z ⊆ marks receipt ++ marks (next.drop s.stop)
        ∧ replaceCopies receipt (x ++ z) b copies = some next' := by
      rw [replaceCopies] at h
      split at h
      · obtain ⟨next₁, hremove, hrest⟩ := Option.bind_eq_some_iff.mp h
        obtain ⟨x, d, z, hx, hd, rfl, hz, hmarks⟩ := removeCopy_eq hremove
        exact ⟨x, d, z, _, hx, hd, hz, List.Subset.trans hmarks (List.subset_append_right ..), hrest⟩
      · rw [List.append_assoc] at h
        refine ⟨_, [], _, _, (List.append_nil _).symm, by simp, Or.inl rfl, ?_, h⟩
        rw [marks_append_of_blankHead hi.2]
        exact List.Subset.refl _
    refine List.Subset.trans
      (ih hplaced' hsep (fun s' hs' => (hs s' hs').intact_edit hi hx hd hz) hrest) ?_
    exact List.append_subset.mpr
      ⟨List.subset_append_left .., marks_edit_subset hp hi hx hd hz hmarks⟩

/-- `replace_raw_artifact_note` が立てる予約行は、元の notes と受領のものである。 -/
theorem marks_replaceRawArtifactNote {parseTimestamp : Text → Bool} {notes receipt next : Text}
    (h : replaceRawArtifactNote parseTimestamp notes receipt = .ok (some next)) :
    marks next ⊆ marks receipt ++ marks notes := by
  obtain ⟨hplaced, hsep⟩ := noteBlocks_layout parseTimestamp notes
  rw [replaceRawArtifactNote] at h
  split at h
  · simp at h
  · simp only at h
    split at h
    · simp at h
    · split at h
      · next next' hcopies =>
        simp only [Except.ok.injEq, Option.some.injEq] at h
        subst h
        have hmem : ∀ {p : Span → Bool} {s : Span},
            s ∈ ((noteBlocks parseTimestamp notes).filter p).reverse → Placed notes s :=
          fun hs => hplaced _ (List.mem_filter.mp (List.mem_reverse.mp hs)).1
        exact marks_replaceCopies (fun s hs => hmem hs)
          (List.pairwise_reverse.mpr (hsep.filter _)) (fun s hs => (hmem hs).intact) hcopies
      · simp at h

/-! ## 来歴の塊の差し替え -/

theorem marks_joinParagraphs (ps : List Text) : marks (joinParagraphs ps) = ps.flatMap marks := by
  induction ps with
  | nil => exact marks_nil
  | cons p ps ih =>
    cases ps with
    | nil => simp
    | cons q qs =>
      have hblank : marks ('\n' :: joinParagraphs (q :: qs)) = marks (joinParagraphs (q :: qs)) :=
        marks_append_newline [] _
      rw [joinParagraphs_cons_cons, marks_append_newline, hblank, ih, List.flatMap_cons,
        List.flatMap_cons, List.flatMap_cons]

theorem marks_trimEnd (t : Text) : marks (trimEnd t) = marks t := by
  obtain ⟨w, hw, ht⟩ := exists_trimEnd t
  conv_rhs => rw [ht, marks_append_of_blankHead (blankHead_of_blank hw), marks_of_blank hw,
    List.append_nil]

/-- `replace_rendered_provenance` が立てる予約行は、元の notes と差し替える塊のものである。 -/
theorem marks_replaceRenderedProvenance (notes rendered : Text) :
    marks (replaceRenderedProvenance notes rendered) ⊆ marks rendered ++ marks notes := by
  rw [replaceRenderedProvenance]
  split
  · exact List.subset_append_left _ _
  · have hblank : marks ('\n' :: rendered) = marks rendered := marks_append_newline [] rendered
    rw [marks_append_newline, hblank, marks_trimEnd, marks_joinParagraphs]
    have hall : marks notes = (splitParagraphs notes).flatMap marks := by
      conv_lhs => rw [← joinParagraphs_splitParagraphs notes]
      exact marks_joinParagraphs _
    refine List.append_subset.mpr ⟨fun m hm => ?_, List.subset_append_left _ _⟩
    obtain ⟨p, hp, hm⟩ := List.mem_flatMap.mp hm
    rw [hall]
    exact List.mem_append_right _
      (List.mem_flatMap.mpr ⟨p, (List.mem_filter.mp hp).1, hm⟩)

end Cassy
