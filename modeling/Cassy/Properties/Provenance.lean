import Cassy.Infra.Paragraphs
import Cassy.Properties.Projection

/-!
# 来歴の差し替え

`replace_rendered_provenance` は、空行で区切られた段落のうち来歴のものを除き、差し替える来歴を末尾に置く。

* 残る段落は順に残る（`paragraphs_replaceRenderedProvenance`）
* 同じ来歴で二度差し替えて変わらないのは丁度、来歴の空白でない段落がどれも、同じ種類の始まりと終わりに挟まれたものである
  ときである（`replaceRenderedProvenance_idem_iff`）

本文に空行を含む来歴は段落に分かれ、次の差し替えで除かれずに残る。
-/

namespace Cassy

open Infra

/-- 来歴を除いた notes。 -/
def keptNotes (notes : Text) : Text :=
  joinParagraphs ((splitParagraphs notes).filter fun p => !isRenderedProvenance p)

/-- 来歴の塊だけからなる。 -/
def Sections (rendered : Text) : Prop := ∀ p ∈ paragraphs rendered, isRenderedProvenance p = true

instance (rendered : Text) : Decidable (Sections rendered) :=
  inferInstanceAs (Decidable (∀ p ∈ paragraphs rendered, _))

/-! ## 残る段落 -/

theorem isRenderedProvenance_trim (p : Text) : isRenderedProvenance (trim p) = isRenderedProvenance p := by
  unfold isRenderedProvenance
  rw [trim_idem]

theorem isRenderedProvenance_nil : isRenderedProvenance [] = false := by decide

/-- 来歴を除いた notes の段落は、notes の段落のうち来歴でないものである。 -/
theorem paragraphs_keptNotes (notes : Text) :
    paragraphs (keptNotes notes) = (paragraphs notes).filter fun p => !isRenderedProvenance p := by
  have hfilter : ∀ l : List Text, (((l.map trim).filter fun p => !p.isEmpty).filter
      fun p => !isRenderedProvenance p)
      = ((l.filter fun p => !isRenderedProvenance p).map trim).filter fun p => !p.isEmpty := by
    intro l
    induction l with
    | nil => rfl
    | cons p l ih =>
      have htrim := isRenderedProvenance_trim p
      cases hp : isRenderedProvenance p <;> cases he : (trim p).isEmpty <;>
        simp [hp, he, htrim, ih]
  conv_rhs => unfold paragraphs
  rw [hfilter]
  unfold keptNotes
  cases hks : (splitParagraphs notes).filter fun p => !isRenderedProvenance p with
  | nil => rfl
  | cons k ks =>
    have hsub : List.Sublist (k :: ks) (splitParagraphs notes) := hks ▸ List.filter_sublist
    rw [paragraphs, splitParagraphs_joinParagraphs_of_sublist hsub (by simp)]

/-- 来歴の塊だけからなるのは丁度、来歴を除くと空白しか残らないときである。 -/
theorem sections_iff {rendered : Text} : Sections rendered ↔ Blank (keptNotes rendered) := by
  rw [← paragraphs_eq_nil_iff, paragraphs_keptNotes, List.filter_eq_nil_iff]
  exact forall₂_congr fun p _ => by simp

/-- 差し替えた notes は、残った段落の後に来歴を置いたものである。 -/
theorem replaceRenderedProvenance_eq (notes rendered : Text) :
    replaceRenderedProvenance notes rendered =
      if Blank (keptNotes notes) then rendered
      else trimEnd (keptNotes notes) ++ '\n' :: '\n' :: rendered := by
  unfold replaceRenderedProvenance
  show (if (trim (keptNotes notes)).isEmpty = true then _ else _) = _
  by_cases h : Blank (keptNotes notes)
  · rw [if_pos h, if_pos (by rw [trim_eq_nil_iff.mpr h]; rfl)]
  · rw [if_neg h, if_neg fun hempty => h (trim_eq_nil_iff.mp (List.isEmpty_iff.mp hempty))]
    rfl

/-- 差し替えた notes の段落は、来歴でない段落の後に、差し替えた来歴の段落が続く。 -/
theorem paragraphs_replaceRenderedProvenance (notes rendered : Text) :
    paragraphs (replaceRenderedProvenance notes rendered)
      = ((paragraphs notes).filter fun p => !isRenderedProvenance p) ++ paragraphs rendered := by
  rw [replaceRenderedProvenance_eq, ← paragraphs_keptNotes]
  split
  · next h => rw [paragraphs_eq_nil_iff.mpr h, List.nil_append]
  · rw [paragraphs_append (trimEnd_getLast?_ne _), paragraphs_trimEnd]

/-! ## 二度目の差し替え -/

/-- 残した notes の末尾の空白を落としても、来歴は現れない。 -/
theorem not_provenance_of_mem_trimEnd {notes p : Text}
    (hp : p ∈ splitParagraphs (trimEnd (keptNotes notes))) : isRenderedProvenance p = false := by
  obtain ⟨w, hw, hkept⟩ := exists_trimEnd (keptNotes notes)
  obtain ⟨ps, q, q', ws, ht, htw, hq, -⟩ := splitParagraphs_append_blank (trimEnd (keptNotes notes)) hw
  rw [← hkept] at htw
  have hall : ∀ x ∈ splitParagraphs (keptNotes notes), isRenderedProvenance x = false := by
    intro x hx
    unfold keptNotes at hx
    cases hks : (splitParagraphs notes).filter fun p => !isRenderedProvenance p with
    | nil =>
      rw [hks] at hx
      rw [List.mem_singleton.mp hx]
      exact isRenderedProvenance_nil
    | cons k ks =>
      have hsub : List.Sublist (k :: ks) (splitParagraphs notes) := hks ▸ List.filter_sublist
      rw [hks, splitParagraphs_joinParagraphs_of_sublist hsub (by simp), ← hks] at hx
      simpa using (List.mem_filter.mp hx).2
  rw [htw] at hall
  rw [ht] at hp
  rcases List.mem_append.mp hp with hp | hp
  · exact hall p (List.mem_append_left _ hp)
  · rw [List.mem_singleton.mp hp, ← isRenderedProvenance_trim, ← trim_congr hq, isRenderedProvenance_trim]
    exact hall q' (List.mem_append_right _ List.mem_cons_self)

/-- 来歴でない段落の後に `rendered` を置いたものから、来歴を除く。 -/
theorem keptNotes_append {x rendered : Text} (hx : x.getLast? ≠ some '\n')
    (hkept : ∀ p ∈ splitParagraphs x, isRenderedProvenance p = false) :
    keptNotes (x ++ '\n' :: '\n' :: rendered)
      = x ++ if (splitParagraphs rendered).all isRenderedProvenance then []
          else '\n' :: '\n' :: keptNotes rendered := by
  have hself : (splitParagraphs x).filter (fun p => !isRenderedProvenance p) = splitParagraphs x := by
    rw [List.filter_eq_self]
    intro p hp
    rw [hkept p hp]
    rfl
  conv_lhs => unfold keptNotes
  rw [splitParagraphs_append hx, List.filter_append, hself]
  split
  · next hall =>
    have hnil : (splitParagraphs rendered).filter (fun p => !isRenderedProvenance p) = [] := by
      rw [List.filter_eq_nil_iff]
      intro p hp
      simpa using List.all_eq_true.mp hall p hp
    rw [hnil, List.append_nil, joinParagraphs_splitParagraphs, List.append_nil]
  · next hall =>
    have hne : (splitParagraphs rendered).filter (fun p => !isRenderedProvenance p) ≠ [] := by
      intro hnil
      refine hall (List.all_eq_true.mpr fun p hp => ?_)
      simpa using List.filter_eq_nil_iff.mp hnil p hp
    rw [joinParagraphs_append (splitParagraphs_ne_nil _) hne, joinParagraphs_splitParagraphs]
    rfl

/-- 二度差し替えて変わらないのは丁度、来歴の塊だけからなるものを差し替えるときである。 -/
theorem replaceRenderedProvenance_idem_iff (notes rendered : Text) :
    replaceRenderedProvenance (replaceRenderedProvenance notes rendered) rendered
      = replaceRenderedProvenance notes rendered ↔ Sections rendered := by
  rw [sections_iff]
  rw [replaceRenderedProvenance_eq notes]
  split
  · -- 差し替えた notes は来歴そのものである。
    rw [replaceRenderedProvenance_eq]
    split
    · next h => exact iff_of_true rfl h
    · next h =>
      refine iff_of_false (fun heq => ?_) h
      have hlen := congrArg List.length heq
      rw [List.length_append, List.length_cons, List.length_cons] at hlen
      omega
  · next hnotes =>
    rw [replaceRenderedProvenance_eq,
      keptNotes_append (trimEnd_getLast?_ne _) fun p hp => not_provenance_of_mem_trimEnd hp]
    have htrim : ¬ Blank (trimEnd (keptNotes notes)) := by
      obtain ⟨w, hw, hkept⟩ := exists_trimEnd (keptNotes notes)
      intro hblank
      rw [hkept] at hnotes
      exact hnotes (blank_append.mpr ⟨hblank, hw⟩)
    by_cases hrendered : Blank (keptNotes rendered)
    · refine iff_of_true ?_ hrendered
      have hblank : Blank (if (splitParagraphs rendered).all isRenderedProvenance then []
          else '\n' :: '\n' :: keptNotes rendered) := by
        split
        · exact blank_nil
        · have hbreak : Blank ['\n', '\n'] := by decide
          exact blank_append.mpr ⟨hbreak, hrendered⟩
      rw [if_neg fun h => htrim (blank_append.mp h).1, trimEnd_append_of_blank hblank, trimEnd_idem]
    · refine iff_of_false (fun heq => ?_) hrendered
      have hall : ¬ (splitParagraphs rendered).all isRenderedProvenance = true := by
        intro hall
        refine hrendered (sections_iff.mp fun p hp => ?_)
        obtain ⟨q, hq, rfl⟩ := List.mem_map.mp (List.mem_filter.mp hp).1
        rw [isRenderedProvenance_trim]
        exact List.all_eq_true.mp hall q hq
      rw [if_neg hall, if_neg fun h => htrim (blank_append.mp h).1] at heq
      have hend : trimEnd ('\n' :: '\n' :: keptNotes rendered) ≠ [] := by
        intro hnil
        obtain ⟨w, hw, ht⟩ := exists_trimEnd ('\n' :: '\n' :: keptNotes rendered)
        rw [hnil, List.nil_append] at ht
        exact hrendered fun c hc => hw c (by rw [← ht]; simp [hc])
      rw [trimEnd_append hend] at heq
      have hlen := congrArg List.length heq
      have hpos := List.length_pos_iff.mpr hend
      simp only [List.length_append] at hlen
      omega

/-! ## 塊への分割 -/

theorem isProofLine_iff {l : Text} : isProofLine l = true ↔ ∃ m ∈ proofMarkers, m <+: l := by
  unfold isProofLine
  rw [List.any_eq_true]
  exact exists_congr fun m => and_congr_right fun _ => List.isPrefixOf_iff_prefix

theorem proofMarkers_solid {m : Text} (hm : m ∈ proofMarkers) :
    m.getLast?.any (fun c => !isWhitespace c) = true ∧ '\n' ∉ m :=
  (reservedMarkers_solid m (List.mem_append_left _ hm)).2

theorem isProofLine_append_newline (x y : Text) : isProofLine (x ++ '\n' :: y) = isProofLine x := by
  rw [Bool.eq_iff_iff, isProofLine_iff, isProofLine_iff]
  exact exists_congr fun m => and_congr_right fun hm => prefix_append_newline (proofMarkers_solid hm).2

theorem isProofLine_append_blank {x w : Text} (hw : Blank w) : isProofLine (x ++ w) = isProofLine x := by
  rw [Bool.eq_iff_iff, isProofLine_iff, isProofLine_iff]
  refine exists_congr fun m => and_congr_right fun hm => ⟨?_, fun h => h.trans (List.prefix_append x w)⟩
  exact prefix_of_prefix_append_blank hw (proofMarkers_solid hm).1

/-- 最初の行が証跡の行であるかは、頭だけで決まる。 -/
theorem head_lines_isProofLine (t : Text) : (lines t).head?.any isProofLine = isProofLine t := by
  have hstrip : ∀ l, isProofLine (stripLineEnd l) = isProofLine l := by
    intro l
    obtain ⟨w, hw, hl⟩ := exists_stripLineEnd l
    conv_rhs => rw [hl]
    exact (isProofLine_append_blank hw).symm
  unfold lines
  by_cases hmem : '\n' ∈ t
  · obtain ⟨l, rest, rfl, hl⟩ := List.eq_append_cons_of_mem hmem
    rw [splitInclusive_append_newline hl, isProofLine_append_newline]
    show isProofLine (stripLineEnd (l ++ ['\n'])) = isProofLine l
    rw [hstrip, isProofLine_append_newline]
  · cases t with
    | nil => decide
    | cons c cs =>
      rw [splitInclusive_of_not_mem (by simp) hmem]
      exact hstrip _

/-- `n` byte の切り出しの次の文字は、頭の `n + 1` 文字の中にある。 -/
theorem mem_take_of_splitBytes {n : Nat} {t u tail : Text} {c : Char}
    (h : splitBytes n t = some (u, c :: tail)) : c ∈ t.take (n + 1) := by
  induction t generalizing n u with
  | nil => cases n <;> simp [splitBytes] at h
  | cons d t ih =>
    cases n with
    | zero =>
      simp only [splitBytes, Option.some.injEq, Prod.mk.injEq, List.cons.injEq] at h
      rw [h.2.1]
      exact List.mem_cons_self
    | succ n =>
      rw [splitBytes] at h
      split at h
      · obtain ⟨⟨u', rest⟩, hrest, heq⟩ := Option.map_eq_some_iff.mp h
        obtain ⟨rfl, rfl⟩ := Prod.mk.inj heq
        have hpos := d.utf8Size_pos
        exact List.mem_cons_of_mem _ (List.take_subset_take_left _ (by omega) (ih hrest))
      · cases h

/-- 後ろに繋いだものの頭の方に `c` が無いなら、`c` の手前での切り出しは繋ぐ前にもできる。 -/
theorem splitBytes_of_append {n : Nat} {a v u tail : Text} {c : Char}
    (h : splitBytes n (a ++ v) = some (u, c :: tail)) (hc : c ∉ v.take (n + 1)) :
    ∃ tail', splitBytes n a = some (u, c :: tail') := by
  induction a generalizing n u with
  | nil =>
    rw [List.nil_append] at h
    exact absurd (mem_take_of_splitBytes h) hc
  | cons d a ih =>
    cases n with
    | zero =>
      simp only [splitBytes, Option.some.injEq, Prod.mk.injEq, List.cons_append, List.cons.injEq] at h
      obtain ⟨rfl, rfl, -⟩ := h
      exact ⟨a, rfl⟩
    | succ n =>
      rw [List.cons_append, splitBytes] at h
      split at h
      · next hd =>
        obtain ⟨⟨u', rest⟩, hrest, heq⟩ := Option.map_eq_some_iff.mp h
        obtain ⟨rfl, rfl⟩ := Prod.mk.inj heq
        obtain ⟨tail', htail⟩ := ih hrest fun hmem =>
          hc (List.take_subset_take_left _ (by omega) hmem)
        exact ⟨tail', by rw [splitBytes, if_pos hd, htail]; rfl⟩
      · cases h

section Blocks

variable {parseTimestamp : Text → Bool}

/-- 来歴の始まりで始まる。 -/
def BeginsProvenance (t : Text) : Prop := ∃ m ∈ provenanceMarkers, m.1 <+: t

instance (t : Text) : Decidable (BeginsProvenance t) :=
  inferInstanceAs (Decidable (∃ m ∈ provenanceMarkers, m.1 <+: t))

/-- 来歴の前の段落が塊を始めるかは、来歴を繋いでも変わらない。 -/
theorem startsBlock_append (block x : Text) {y : Text} (hy : BeginsProvenance y) :
    startsBlock parseTimestamp block (x ++ '\n' :: '\n' :: y) = startsBlock parseTimestamp block x := by
  have htime : isTimestampedNote parseTimestamp (x ++ '\n' :: '\n' :: y)
      = isTimestampedNote parseTimestamp x := by
    rw [Bool.eq_iff_iff]
    refine ⟨fun h => ?_, fun h => isTimestampedNote_append h _⟩
    -- 時刻を閉じる括弧は、空行と来歴の始まりの中には無い。
    have hbracket : ']' ∉ ('\n' :: '\n' :: y).take 17 := by
      obtain ⟨m, hm, z, rfl⟩ := hy
      have hmarkers : ∀ m ∈ provenanceMarkers, 15 ≤ m.1.length ∧ ']' ∉ m.1.take 15 := by decide
      obtain ⟨hlen, hnot⟩ := hmarkers m hm
      have htake : ('\n' :: '\n' :: (m.1 ++ z)).take 17 = '\n' :: '\n' :: m.1.take 15 := by
        rw [List.take_succ_cons, List.take_succ_cons, List.take_append_of_le_length hlen]
      rw [htake]
      simpa using hnot
    cases x with
    | nil => cases h
    | cons c x =>
      unfold isTimestampedNote at h
      split at h
      · next rest heq =>
        rw [List.cons_append, List.cons.injEq] at heq
        obtain ⟨rfl, rfl⟩ := heq
        split at h
        · next ts tail hsplit =>
          obtain ⟨tail', htail⟩ := splitBytes_of_append hsplit hbracket
          unfold isTimestampedNote
          simp only [htail]
          exact h
        · cases h
      · cases h
  have hbegin : provenanceMarkers.any (fun m => m.1.isPrefixOf (x ++ '\n' :: '\n' :: y))
      = provenanceMarkers.any fun m => m.1.isPrefixOf x := by
    have hline : ∀ m ∈ provenanceMarkers, '\n' ∉ m.1 := by decide
    rw [Bool.eq_iff_iff, List.any_eq_true, List.any_eq_true]
    refine exists_congr fun m => and_congr_right fun hm => ?_
    rw [List.isPrefixOf_iff_prefix, List.isPrefixOf_iff_prefix]
    exact prefix_append_newline (hline m hm)
  unfold startsBlock
  rw [htime, head_lines_isProofLine, head_lines_isProofLine, isProofLine_append_newline, hbegin]

/-- 来歴の前までの塊は、来歴が続いても変わらない。 -/
theorem noteBlocksFrom_append {block : Span} {ps : List Text} {q : Text} {qs : List Text}
    (hq : BeginsProvenance (joinParagraphs (q :: qs))) :
    ∃ start, noteBlocksFrom parseTimestamp block (ps ++ q :: qs)
      = noteBlocksFrom parseTimestamp block ps ++ noteBlocksFrom parseTimestamp ⟨start, q⟩ qs := by
  induction ps generalizing block with
  | nil =>
    have hstart : startsBlock parseTimestamp block.text (joinParagraphs (q :: qs)) = true := by
      obtain ⟨m, hm, hpre⟩ := hq
      unfold startsBlock
      rw [Bool.or_eq_true, Bool.or_eq_true]
      exact Or.inl (Or.inr (List.any_eq_true.mpr ⟨m, hm, List.isPrefixOf_iff_prefix.mpr hpre⟩))
    refine ⟨block.stop + 2, ?_⟩
    show noteBlocksFrom parseTimestamp block (q :: qs) = [block.trim] ++ _
    conv_lhs => rw [noteBlocksFrom, if_pos hstart]
    rfl
  | cons p ps ih =>
    have hjoin : joinParagraphs (p :: (ps ++ q :: qs))
        = joinParagraphs (p :: ps) ++ '\n' :: '\n' :: joinParagraphs (q :: qs) :=
      joinParagraphs_append (List.cons_ne_nil p ps) (by simp)
    rw [List.cons_append, noteBlocksFrom, noteBlocksFrom, hjoin, startsBlock_append _ _ hq]
    split
    · obtain ⟨start, h⟩ := @ih { start := block.stop + 2, text := p }
      exact ⟨start, by rw [h]; rfl⟩
    · exact ih

/-- 来歴の塊は一つずつ塊になる。 -/
theorem noteBlocksFrom_sections (start : Nat) {q : Text} {ps : List Text}
    (h : ∀ p ∈ q :: ps, Blank p ∨ isRenderedProvenance p = true) :
    (noteBlocksFrom parseTimestamp ⟨start, q⟩ ps).map Span.text = (q :: ps).map trim := by
  induction ps generalizing start q with
  | nil => rfl
  | cons p ps ih =>
    have hnot : isTimestampedNote parseTimestamp (trim q) = false := by
      rcases h q List.mem_cons_self with hblank | hprov
      · rw [trim_eq_nil_iff.mpr hblank]
        rfl
      · rw [← Bool.not_eq_true]
        intro htime
        have hhead := head?_of_isTimestampedNote htime
        have hmarkers : ∀ m ∈ provenanceMarkers, m.1.head? = some '-' := by decide
        unfold isRenderedProvenance at hprov
        obtain ⟨m, hm, hends⟩ := List.any_eq_true.mp hprov
        rw [Bool.and_eq_true, List.isPrefixOf_iff_prefix] at hends
        obtain ⟨z, hz⟩ := hends.1
        rw [← hz, List.head?_append, hmarkers m hm] at hhead
        cases hhead
    have hstart : startsBlock parseTimestamp q (joinParagraphs (p :: ps)) = true := by
      unfold startsBlock
      rw [hnot, Bool.not_false, Bool.or_true]
    rw [noteBlocksFrom, if_pos hstart, List.map_cons, ih _ fun p hp => h p (List.mem_cons_of_mem _ hp)]
    rfl

/-- 塊の本文。 -/
def blockTexts (parseTimestamp : Text → Bool) (notes : Text) : List Text :=
  (noteBlocks parseTimestamp notes).map Span.text

/-- 塊の本文は、切り出した塊のうち空でないものである。 -/
theorem blockTexts_eq {notes p : Text} {ps : List Text} (h : splitParagraphs notes = p :: ps) :
    blockTexts parseTimestamp notes
      = ((noteBlocksFrom parseTimestamp ⟨0, p⟩ ps).map Span.text).filter fun t => !t.isEmpty := by
  unfold blockTexts noteBlocks
  rw [h, List.filter_map]
  rfl

/-- 来歴の塊だけからなるものの段落は、空白か来歴である。 -/
theorem sections_split {rendered : Text} {ps : List Text} (h : Sections rendered)
    (hps : splitParagraphs rendered = ps) : ∀ q ∈ ps, Blank q ∨ isRenderedProvenance q = true := by
  intro q hq
  by_cases hblank : Blank q
  · exact Or.inl hblank
  · right
    rw [← isRenderedProvenance_trim]
    refine h _ (List.mem_filter.mpr ⟨List.mem_map_of_mem (hps ▸ hq), ?_⟩)
    simpa using fun hnil => hblank (trim_eq_nil_iff.mp hnil)

/-- 来歴の塊だけからなるものの塊は、その段落である。 -/
theorem blockTexts_sections {rendered : Text} (h : Sections rendered) :
    blockTexts parseTimestamp rendered = paragraphs rendered := by
  obtain ⟨p, ps, hps⟩ := List.exists_cons_of_ne_nil (splitParagraphs_ne_nil rendered)
  rw [blockTexts_eq hps, noteBlocksFrom_sections 0 (sections_split h hps), paragraphs, hps]

/-- 差し替えた notes の塊は、残った notes の塊の後に、来歴の塊が続く。 -/
theorem blockTexts_replaceRenderedProvenance (notes : Text) {rendered : Text}
    (hbegin : BeginsProvenance rendered) (h : Sections rendered) :
    blockTexts parseTimestamp (replaceRenderedProvenance notes rendered)
      = blockTexts parseTimestamp (trimEnd (keptNotes notes)) ++ paragraphs rendered := by
  rw [replaceRenderedProvenance_eq, ← blockTexts_sections h]
  split
  · next hblank =>
    rw [trimEnd_eq_nil_of_blank hblank]
    rfl
  · obtain ⟨p, ps, hps⟩ := List.exists_cons_of_ne_nil (splitParagraphs_ne_nil (trimEnd (keptNotes notes)))
    obtain ⟨q, qs, hqs⟩ := List.exists_cons_of_ne_nil (splitParagraphs_ne_nil rendered)
    have hsplit : splitParagraphs (trimEnd (keptNotes notes) ++ '\n' :: '\n' :: rendered)
        = p :: (ps ++ q :: qs) := by
      rw [splitParagraphs_append (trimEnd_getLast?_ne _), hps, hqs]
      rfl
    have hjoin : BeginsProvenance (joinParagraphs (q :: qs)) := by
      rw [← hqs, joinParagraphs_splitParagraphs]
      exact hbegin
    obtain ⟨start, happ⟩ := @noteBlocksFrom_append parseTimestamp ⟨0, p⟩ ps _ _ hjoin
    have hall : ∀ x ∈ q :: qs, Blank x ∨ isRenderedProvenance x = true := sections_split h hqs
    rw [blockTexts_eq hsplit, blockTexts_eq hps, blockTexts_eq hqs, happ, List.map_append,
      List.filter_append, noteBlocksFrom_sections start hall,
      noteBlocksFrom_sections 0 hall]

end Blocks

/-! ## 差し替えの性質 -/

/--
来歴の塊だけからなるもので差し替える。

二度目の差し替えは何も変えず、来歴の段落は差し替えたものだけになって末尾に置かれ、ほかの段落は順に残る。
-/
theorem provenance_replaced (parseTimestamp : Text → Bool) (notes : Text) {rendered : Text}
    (hbegin : BeginsProvenance rendered) (h : Sections rendered) :
    replaceRenderedProvenance (replaceRenderedProvenance notes rendered) rendered
        = replaceRenderedProvenance notes rendered
      ∧ rendered <:+ replaceRenderedProvenance notes rendered
      ∧ (paragraphs (replaceRenderedProvenance notes rendered)).filter isRenderedProvenance
        = paragraphs rendered
      ∧ paragraphs (replaceRenderedProvenance notes rendered)
        = ((paragraphs notes).filter fun p => !isRenderedProvenance p) ++ paragraphs rendered
      ∧ blockTexts parseTimestamp (replaceRenderedProvenance notes rendered)
        = blockTexts parseTimestamp (trimEnd (keptNotes notes)) ++ paragraphs rendered := by
  refine ⟨(replaceRenderedProvenance_idem_iff notes rendered).mpr h, ?_, ?_,
    paragraphs_replaceRenderedProvenance notes rendered,
    blockTexts_replaceRenderedProvenance notes hbegin h⟩
  · rw [replaceRenderedProvenance_eq]
    split
    · exact List.suffix_refl _
    · exact ⟨trimEnd (keptNotes notes) ++ ['\n', '\n'], by simp⟩
  · rw [paragraphs_replaceRenderedProvenance, List.filter_append, List.filter_filter,
      List.filter_eq_self.mpr h]
    simp

/-- 描かれた来歴。二つの塊からなる。 -/
def renderedSections : Text :=
  beginServerAttested ++ "\n  proposal_id: \"p1\"\n".toList ++ endServerAttested ++ "\n\n".toList
    ++ beginClientAsserted ++ "\n  client_build: (not asserted)\n".toList ++ endClientAsserted

/-- 前の来歴の後に段落の続く notes で、来歴を差し替える。 -/
theorem provenance_replaced_pull :
    replaceRenderedProvenance (replaceRenderedProvenance
        ("plan\n\n".toList ++ beginServerAttested ++ endServerAttested ++ "\n\nmore\n".toList)
        renderedSections) renderedSections
      = "plan\n\nmore\n\n".toList ++ renderedSections := by
  have hbegin : BeginsProvenance renderedSections := by decide
  rw [(provenance_replaced (fun _ => false) _ hbegin (by decide)).1]
  decide +kernel

/-- 本文に空行のある来歴。 -/
def brokenSection : Text :=
  beginServerAttested ++ "\n\n".toList ++ endServerAttested

/--
本文に空行のある来歴は、差し替えるたびに増える。

来歴を除いたところで、前の記録が後ろの段落を吸うこともある。
-/
theorem broken_section_repeats :
    replaceRenderedProvenance [] brokenSection = brokenSection
      ∧ replaceRenderedProvenance (replaceRenderedProvenance [] brokenSection) brokenSection
        = brokenSection ++ "\n\n".toList ++ brokenSection
      ∧ blockTexts (fun t => t = "2026-01-01 00:00".toList)
          ("[2026-01-01 00:00] a\n\n".toList ++ beginServerAttested ++ endServerAttested
            ++ "\n\nb".toList)
        = ["[2026-01-01 00:00] a".toList, beginServerAttested ++ endServerAttested, "b".toList]
      ∧ blockTexts (fun t => t = "2026-01-01 00:00".toList) (replaceRenderedProvenance
          ("[2026-01-01 00:00] a\n\n".toList ++ beginServerAttested ++ endServerAttested
            ++ "\n\nb".toList) (beginServerAttested ++ endServerAttested))
        = ["[2026-01-01 00:00] a\n\nb".toList, beginServerAttested ++ endServerAttested] := by
  decide

end Cassy
