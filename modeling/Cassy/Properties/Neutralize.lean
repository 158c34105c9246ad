import Cassy.Properties.Marks

/-!
# 信用されない書き込みの予約行

`neutralize_new_markers` を通した notes に立つ予約行は、前の notes に立っていたものだけである。
来歴の塊の行はさらに、前の notes にそのまま残っている塊の中にある。

来歴の塊は文字の位置の範囲で扱われるので、範囲を行の並びの中の区間に読み替えてから示す。
-/

namespace Cassy

open Infra

/-! ## 一行ずつの無効化 -/

/-- 無効化した行の並び。`neutralizeLines` はこれを繋いだものである。 -/
def neutralizedLines (priorMarkers : List Text) (preserved : List CharRange) (offset : Nat) :
    List Text → List Text
  | [] => []
  | line :: rest =>
    (if isReservedLine (lineText line) && !priorMarkers.contains (lineText line)
        && !preserved.any (·.contains offset) then ' ' :: line else line)
      :: neutralizedLines priorMarkers preserved (offset + line.length) rest

theorem neutralizeLines_eq (priorMarkers : List Text) (preserved : List CharRange) (offset : Nat)
    (ls : List Text) : neutralizeLines priorMarkers preserved offset ls
      = (neutralizedLines priorMarkers preserved offset ls).flatten := by
  induction ls generalizing offset with
  | nil => rfl
  | cons line rest ih => rw [neutralizeLines, neutralizedLines, List.flatten_cons, ih]

theorem trimEnd_lineText (l : Text) : trimEnd (lineText l) = trimEnd l := by
  refine trimEnd_trimEndMatches (fun c hc => ?_) l
  rcases (by simpa using hc : c = '\n' ∨ c = '\r') with rfl | rfl
  · exact isWhitespace_newline
  · exact isWhitespace_carriageReturn

section Lines

variable {priorMarkers : List Text} {preserved : List CharRange}

theorem neutralizedLines_append (offset : Nat) (xs ys : List Text) :
    neutralizedLines priorMarkers preserved offset (xs ++ ys)
      = neutralizedLines priorMarkers preserved offset xs
        ++ neutralizedLines priorMarkers preserved (offset + xs.flatten.length) ys := by
  induction xs generalizing offset with
  | nil => rfl
  | cons line rest ih =>
    rw [List.cons_append, neutralizedLines, neutralizedLines, ih, List.cons_append,
      List.flatten_cons, List.length_append, Nat.add_assoc]

theorem lined_neutralizedLines {ls : List Text} (h : Lined ls) (offset : Nat) :
    Lined (neutralizedLines priorMarkers preserved offset ls) := by
  induction h generalizing offset with
  | nil => exact .nil
  | @last l hne hl =>
    rw [neutralizedLines]
    split
    · exact .last (by simp) (by simp [hl])
    · exact .last hne hl
  | @cons l rest hl _ ih =>
    rw [neutralizedLines]
    split
    · exact .cons (l := ' ' :: l) (by simp [hl]) (ih _)
    · exact .cons hl (ih _)

/-- 変わらない並びは、どこで分けても変わらない。 -/
theorem neutralizedLines_append_eq_self {offset : Nat} {xs ys : List Text}
    (h : neutralizedLines priorMarkers preserved offset (xs ++ ys) = xs ++ ys) :
    neutralizedLines priorMarkers preserved offset xs = xs
      ∧ neutralizedLines priorMarkers preserved (offset + xs.flatten.length) ys = ys := by
  have hlen : ∀ {offset : Nat} {ls : List Text},
      (neutralizedLines priorMarkers preserved offset ls).length = ls.length := by
    intro offset ls
    induction ls generalizing offset with
    | nil => rfl
    | cons line rest ih => rw [neutralizedLines, List.length_cons, List.length_cons, ih]
  rw [neutralizedLines_append] at h
  exact List.append_inj h hlen

theorem isReservedLine_lineText (l : Text) : isReservedLine (lineText l) = isReservedLine l := by
  rw [← isReservedLine_trimEnd, ← isReservedLine_trimEnd l, trimEnd_lineText]

/-- 予約行でない行は書き換えられない。 -/
theorem neutralizedLines_of_not_reserved {offset : Nat} {ls : List Text}
    (h : ∀ l ∈ ls, isReservedLine l = false) :
    neutralizedLines priorMarkers preserved offset ls = ls := by
  induction ls generalizing offset with
  | nil => rfl
  | cons line rest ih =>
    rw [neutralizedLines, isReservedLine_lineText, h line List.mem_cons_self,
      ih fun l hl => h l (List.mem_cons_of_mem _ hl)]
    rfl

/-- 残す範囲の中から始まる行は書き換えられない。 -/
theorem neutralizedLines_of_preserved {offset : Nat} {line : Text} {r : CharRange}
    (hr : r ∈ preserved) (hc : r.contains offset = true) :
    neutralizedLines priorMarkers preserved offset [line] = [line] := by
  have hany : preserved.any (·.contains offset) = true := List.any_eq_true.mpr ⟨r, hr, hc⟩
  rw [neutralizedLines, hany, Bool.not_true, Bool.and_false]
  rfl

/-- 無効化した並びに立つ予約行は、元の並びの同じ位置にあり、残される理由を持つ。 -/
theorem neutralizedLines_eq_append {offset : Nat} {ls xs' ys' : List Text} {l : Text}
    (h : neutralizedLines priorMarkers preserved offset ls = xs' ++ l :: ys')
    (hr : isReservedLine l = true) :
    ∃ xs ys, ls = xs ++ l :: ys
      ∧ xs' = neutralizedLines priorMarkers preserved offset xs
      ∧ ys' = neutralizedLines priorMarkers preserved (offset + xs.flatten.length + l.length) ys
      ∧ (lineText l ∈ priorMarkers
        ∨ ∃ r ∈ preserved, r.contains (offset + xs.flatten.length) = true) := by
  induction ls generalizing offset xs' with
  | nil => simp [neutralizedLines] at h
  | cons line rest ih =>
    rw [neutralizedLines] at h
    cases xs' with
    | nil =>
      rw [List.nil_append, List.cons.injEq] at h
      obtain ⟨hl, hys⟩ := h
      split at hl
      · rw [← hl, isReservedLine_cons_blank (by decide)] at hr
        simp at hr
      · next hkeep =>
        subst hl
        refine ⟨[], rest, rfl, rfl, hys.symm, ?_⟩
        rw [isReservedLine_lineText, hr] at hkeep
        by_cases hp : lineText line ∈ priorMarkers
        · exact Or.inl hp
        · refine Or.inr ?_
          simpa [hp] using hkeep
    | cons x xs'' =>
      rw [List.cons_append, List.cons.injEq] at h
      obtain ⟨xs, ys, hls, hxs, hys, hwhy⟩ := ih h.2
      refine ⟨line :: xs, ys, by rw [hls, List.cons_append], ?_, ?_, ?_⟩
      · rw [neutralizedLines, h.1, hxs]
      · rw [hys, List.flatten_cons, List.length_append, ← Nat.add_assoc]
      · rw [List.flatten_cons, List.length_append, ← Nat.add_assoc]
        exact hwhy

end Lines

/-! ## 来歴の塊 -/

/-- 始まりの行から対応する終わりの行までの、間に予約行の無い並び。 -/
def CompleteBlock (b : Text) (mid : List Text) (e : Text) : Prop :=
  (∃ m ∈ provenanceMarkers, lineText b = m.1 ∧ lineText e = m.2)
    ∧ ∀ l ∈ mid, isReservedLine l = false

/-- 塊の中身。`notes[range]` がこれになる。 -/
def blockText (b : Text) (mid : List Text) (e : Text) : Text :=
  (b :: mid).flatten ++ trimEndMatches (· = '\n') e

/-- `r` は並び `ls` の中の塊を指す。 -/
def IsBlockRange (ls : List Text) (r : CharRange) : Prop :=
  ∃ pre b mid e post, ls = pre ++ (b :: mid ++ e :: post) ∧ CompleteBlock b mid e
    ∧ r.start = pre.flatten.length
    ∧ r.stop = pre.flatten.length + (blockText b mid e).length

/-- 開いている塊は、そこまでに読んだ行のどこかで始まっている。 -/
def Opened (seen : List Text) (opened : Option (Nat × Text)) : Prop :=
  ∀ start close, opened = some (start, close) →
    ∃ pre b mid, seen = pre ++ b :: mid ∧ start = pre.flatten.length
      ∧ (∃ m ∈ provenanceMarkers, lineText b = m.1 ∧ close = m.2)
      ∧ ∀ l ∈ mid, isReservedLine l = false

theorem opened_none (seen : List Text) : Opened seen none := by
  rintro start close ⟨⟩

/-- 予約行でない行を読んでも、塊は開いたままである。 -/
theorem Opened.snoc {seen : List Text} {opened : Option (Nat × Text)} {line : Text}
    (h : Opened seen opened) (hline : isReservedLine line = false) :
    Opened (seen ++ [line]) opened := by
  intro start close hopen
  obtain ⟨pre, b, mid, rfl, hstart, hm, hmid⟩ := h start close hopen
  refine ⟨pre, b, mid ++ [line], by simp, hstart, hm, ?_⟩
  simpa [or_imp, forall_and, hline] using hmid

/-- 読み進めて出てくる範囲は、どれも行の並びの中の塊である。`seen` はここまでに読んだ行。 -/
theorem isBlockRange_of_mem {seen ls : List Text} {opened : Option (Nat × Text)} {r : CharRange}
    (hopen : Opened seen opened)
    (h : r ∈ provenanceBlocksFrom seen.flatten.length opened ls) : IsBlockRange (seen ++ ls) r := by
  induction ls generalizing seen opened with
  | nil => simp [provenanceBlocksFrom] at h
  | cons line rest ih =>
    have hnext : seen.flatten.length + line.length = (seen ++ [line]).flatten.length := by simp
    have hall : seen ++ line :: rest = seen ++ [line] ++ rest := by simp
    simp only [provenanceBlocksFrom, hnext] at h
    rw [hall]
    split at h
    · next m hfind =>
      refine ih (fun start close heq => ?_) h
      cases heq
      have hbegin : m.1 = lineText line := by simpa using List.find?_some hfind
      exact ⟨seen, line, [], rfl, rfl,
        ⟨m, List.mem_of_find?_eq_some hfind, hbegin.symm, rfl⟩, by simp⟩
    · split at h
      · exact ih (opened_none _) h
      · next start close =>
        split at h
        · next hclose =>
          rcases List.mem_cons.mp h with rfl | h
          · obtain ⟨pre, b, mid, rfl, hstart, ⟨m, hm, hb, hc⟩, hmid⟩ := hopen start close rfl
            refine ⟨pre, b, mid, line, rest, by simp, ⟨⟨m, hm, hb, hclose.trans hc⟩, hmid⟩,
              hstart, ?_⟩
            simp [blockText, Nat.add_assoc]
          · exact ih (opened_none _) h
        · split at h
          · exact ih (opened_none _) h
          · next hres =>
            rw [isReservedLine_lineText, Bool.not_eq_true] at hres
            exact ih (hopen.snoc hres) h

theorem isBlockRange_of_mem_provenanceBlocks {notes : Text} {r : CharRange}
    (h : r ∈ provenanceBlocks notes) : IsBlockRange (splitInclusive notes) r :=
  isBlockRange_of_mem (opened_none []) h

/-- 範囲の中身は塊の中身である。 -/
theorem slice_flatten {ls : List Text} {r : CharRange} {pre : List Text} {b e : Text}
    {mid post : List Text} (hls : ls = pre ++ (b :: mid ++ e :: post))
    (hstart : r.start = pre.flatten.length)
    (hstop : r.stop = pre.flatten.length + (blockText b mid e).length) :
    r.slice ls.flatten = blockText b mid e := by
  have he : e = trimEndMatches (· = '\n') e ++ e.rtakeWhile (· = '\n') :=
    List.rdropWhile_append_rtakeWhile.symm
  have hflat : ls.flatten
      = pre.flatten ++ (blockText b mid e ++ (e.rtakeWhile (· = '\n') ++ post.flatten)) := by
    rw [hls, blockText]
    conv_lhs => rw [he]
    simp
  rw [CharRange.slice, hstart, hstop, hflat, List.take_length_add_append, List.take_left,
    List.drop_left]

/-! ## そのまま残っている行 -/

theorem mem_afterNewlines {t s : Text} (h : s ∈ afterNewlines t) : ∃ x, t = x ++ '\n' :: s := by
  induction t with
  | nil => simp [afterNewlines] at h
  | cons c cs ih =>
    rw [afterNewlines] at h
    split at h
    · next hc =>
      rcases List.mem_cons.mp h with rfl | h
      · exact ⟨[], by rw [hc, List.nil_append]⟩
      · obtain ⟨x, rfl⟩ := ih h
        exact ⟨c :: x, rfl⟩
    · obtain ⟨x, rfl⟩ := ih h
      exact ⟨c :: x, rfl⟩

/-- 行としてそのまま残っているものの予約行は、全体の予約行である。 -/
theorem marks_subset_of_containsCompleteLines {notes text : Text}
    (h : containsCompleteLines notes text = true) : marks text ⊆ marks notes := by
  obtain ⟨t, ht, hmatch⟩ := List.any_eq_true.mp h
  rw [Bool.and_eq_true, List.isPrefixOf_iff_prefix] at hmatch
  obtain ⟨⟨rest, rfl⟩, hrest⟩ := hmatch
  have hright : marks text ⊆ marks (text ++ rest) := by
    rw [List.drop_left, Bool.or_eq_true, List.isEmpty_iff] at hrest
    rcases hrest with rfl | hrest
    · rw [List.append_nil]
      exact List.Subset.refl _
    · obtain ⟨rest', rfl⟩ : ∃ r, rest = '\n' :: r := by
        cases rest with
        | nil => simp at hrest
        | cons c r => exact ⟨r, by simpa using hrest⟩
      rw [marks_append_newline]
      exact List.subset_append_left _ _
  rcases List.mem_cons.mp ht with rfl | ht
  · exact hright
  · obtain ⟨x, rfl⟩ := mem_afterNewlines ht
    rw [marks_append_newline]
    exact List.Subset.trans hright (List.subset_append_right _ _)

/-! ## 行の位置 -/

/-- 空でない行は、先頭からの長さが区間に入れば、その区間の行である。 -/
theorem exists_mem_block {xs ys pre blk post : List Text} {l : Text} (hl : l ≠ [])
    (h : xs ++ l :: ys = pre ++ (blk ++ post))
    (hge : pre.flatten.length ≤ xs.flatten.length)
    (hlt : xs.flatten.length < pre.flatten.length + blk.flatten.length) :
    ∃ u v, blk = u ++ l :: v ∧ xs = pre ++ u ∧ ys = v ++ post := by
  have hpos : 0 < l.length := List.length_pos_iff.mpr hl
  obtain ⟨u, hxs, hrest⟩ : ∃ u, xs = pre ++ u ∧ blk ++ post = u ++ l :: ys := by
    rcases List.append_eq_append_iff.mp h with ⟨a, hpre, hrest⟩ | h
    · cases a with
      | nil => exact ⟨[], by simpa using hpre.symm, by simpa using hrest.symm⟩
      | cons k ks =>
        rw [List.cons_append, List.cons.injEq] at hrest
        rw [hpre, ← hrest.1] at hge
        simp only [List.flatten_append, List.flatten_cons, List.length_append] at hge
        omega
    · exact h
  refine ⟨u, ?_⟩
  rw [hxs, List.flatten_append, List.length_append] at hlt
  rcases List.append_eq_append_iff.mp hrest with ⟨a, hu, -⟩ | ⟨v, hblk, hys⟩
  · rw [hu] at hlt
    simp only [List.flatten_append, List.length_append] at hlt
    omega
  · cases v with
    | nil =>
      rw [hblk] at hlt
      simp at hlt
    | cons k ks =>
      rw [List.cons_append, List.cons.injEq] at hys
      obtain ⟨rfl, rfl⟩ := hys
      exact ⟨ks, hblk, hxs, rfl⟩

/-- 塊の中の予約行は、始まりの行か終わりの行である。 -/
theorem CompleteBlock.ends {b e l : Text} {mid u v : List Text} (hblock : CompleteBlock b mid e)
    (h : b :: mid ++ [e] = u ++ l :: v) (hr : isReservedLine l = true) :
    (u = [] ∧ l = b ∧ v = mid ++ [e]) ∨ (u = b :: mid ∧ l = e ∧ v = []) := by
  cases u with
  | nil =>
    rw [List.cons_append, List.nil_append, List.cons.injEq] at h
    exact Or.inl ⟨rfl, h.1.symm, h.2.symm⟩
  | cons k ks =>
    rw [List.cons_append, List.cons_append, List.cons.injEq] at h
    obtain ⟨rfl, h⟩ := h
    rcases List.append_eq_append_iff.mp h with ⟨a, hks, hrest⟩ | ⟨a, hmid, hrest⟩
    · cases a with
      | nil =>
        rw [List.nil_append, List.cons.injEq] at hrest
        exact Or.inr ⟨by rw [hks, List.append_nil], hrest.1.symm, hrest.2.symm⟩
      | cons k' ks' => simp at hrest
    · cases a with
      | nil =>
        rw [List.nil_append, List.cons.injEq] at hrest
        exact Or.inr ⟨by rw [hmid, List.append_nil], hrest.1, hrest.2⟩
      | cons k' ks' =>
        rw [List.cons_append, List.cons.injEq] at hrest
        rw [hrest.1, hblock.2 k' (by rw [hmid]; simp)] at hr
        simp at hr

/-! ## 残される塊 -/

/-- 前の notes の証跡の行。 -/
def priorProofLines (previous : Option Text) : List Text :=
  (previous.elim [] lines).filter isProofLine

/-- `notes` の塊のうち、前の notes にそのまま残っているものの範囲。 -/
def preservedBlocks (notes : Text) (previous : Option Text) : List CharRange :=
  (provenanceBlocks notes).filter fun r =>
    previous.any fun prior => containsCompleteLines prior (r.slice notes)

theorem isReservedLine_of_mem_provenanceMarkers {m : Text × Text} (hm : m ∈ provenanceMarkers) :
    isReservedLine m.1 = true ∧ isReservedLine m.2 = true := by
  revert m
  decide +kernel

theorem CompleteBlock.reserved {b e : Text} {mid : List Text} (h : CompleteBlock b mid e) :
    isReservedLine b = true ∧ isReservedLine e = true := by
  obtain ⟨⟨m, hm, hb, he⟩, -⟩ := h
  rw [← isReservedLine_lineText b, ← isReservedLine_lineText e, hb, he]
  exact isReservedLine_of_mem_provenanceMarkers hm

/-- 改行だけを落とした予約行は空でない。 -/
theorem trimEndMatches_newline_ne_nil {l : Text} (hr : isReservedLine l = true) :
    trimEndMatches (· = '\n') l ≠ [] := by
  intro h
  have htrim : trimEnd (trimEndMatches (· = '\n') l) = trimEnd l := by
    refine trimEnd_trimEndMatches (fun c hc => ?_) l
    rw [of_decide_eq_true hc]
    exact isWhitespace_newline
  rw [← isReservedLine_trimEnd, ← htrim, h, trimEnd_eq_nil_of_blank blank_nil,
    isReservedLine_nil] at hr
  simp at hr

/-- 残される塊の範囲が指すもの。 -/
theorem exists_block_of_mem_preservedBlocks {notes : Text} {previous : Option Text} {r : CharRange}
    (h : r ∈ preservedBlocks notes previous) :
    ∃ prior pre b mid e post, previous = some prior
      ∧ splitInclusive notes = pre ++ (b :: mid ++ [e] ++ post) ∧ CompleteBlock b mid e
      ∧ r.start = pre.flatten.length
      ∧ r.stop = pre.flatten.length + (blockText b mid e).length
      ∧ containsCompleteLines prior (blockText b mid e) = true := by
  obtain ⟨hr, hprior⟩ := List.mem_filter.mp h
  obtain ⟨prior, rfl, hcontains⟩ := (Option.any_eq_true _ _).mp hprior
  obtain ⟨pre, b, mid, e, post, hls, hblock, hstart, hstop⟩ :=
    isBlockRange_of_mem_provenanceBlocks hr
  refine ⟨prior, pre, b, mid, e, post, rfl, by rw [hls]; simp, hblock, hstart, hstop, ?_⟩
  rw [← slice_flatten hls hstart hstop, flatten_splitInclusive]
  exact hcontains

/-- 残される塊の行は書き換えられない。 -/
theorem neutralizedLines_block {priorMarkers : List Text} {preserved : List CharRange}
    {r : CharRange} {b e : Text} {mid : List Text} {offset : Nat} (hr : r ∈ preserved)
    (hblock : CompleteBlock b mid e) (hstart : r.start = offset)
    (hstop : r.stop = offset + (blockText b mid e).length) :
    neutralizedLines priorMarkers preserved offset (b :: mid ++ [e]) = b :: mid ++ [e] := by
  have hb : 0 < b.length := by
    refine List.length_pos_iff.mpr fun h => ?_
    have hres := hblock.reserved.1
    rw [h, isReservedLine_nil] at hres
    simp at hres
  have he : 0 < (trimEndMatches (· = '\n') e).length :=
    List.length_pos_iff.mpr (trimEndMatches_newline_ne_nil hblock.reserved.2)
  have hlen : (blockText b mid e).length
      = b.length + mid.flatten.length + (trimEndMatches (· = '\n') e).length := by
    simp [blockText, Nat.add_assoc]
  have hfirst : neutralizedLines priorMarkers preserved offset [b] = [b] := by
    refine neutralizedLines_of_preserved hr ?_
    simp only [CharRange.contains, Bool.and_eq_true, decide_eq_true_eq]
    omega
  have hlast : neutralizedLines priorMarkers preserved
      (offset + b.length + mid.flatten.length) [e] = [e] := by
    refine neutralizedLines_of_preserved hr ?_
    simp only [CharRange.contains, Bool.and_eq_true, decide_eq_true_eq]
    omega
  have hsplit : b :: mid ++ [e] = [b] ++ (mid ++ [e]) := rfl
  rw [hsplit, neutralizedLines_append, hfirst, neutralizedLines_append,
    neutralizedLines_of_not_reserved hblock.2, List.flatten_singleton, hlast]

/-! ## 立っている予約行の由来 -/

/-- 証跡の行は来歴の塊の行でない。 -/
theorem not_isProvenanceLine_of_isProofLine {l : Text} (h : isProofLine l = true) :
    isProvenanceLine l = false := by
  have hproof : ∀ m ∈ proofMarkers, m.head?.any (· ≠ '-') = true := by decide +kernel
  have hprov : ∀ m ∈ provenanceMarkers, m.1.head? = some '-' ∧ m.2.head? = some '-' := by
    decide +kernel
  have hhead : ∀ {m : Text} {c : Char}, m <+: l → m.head? = some c → l.head? = some c := by
    rintro m c ⟨t, rfl⟩ hm
    rw [List.head?_append, hm]
    rfl
  obtain ⟨m, hm, hml⟩ := List.any_eq_true.mp h
  obtain ⟨c, hc, hne⟩ := (Option.any_eq_true _ _).mp (hproof m hm)
  have hl := hhead (List.isPrefixOf_iff_prefix.mp hml) hc
  rw [← Bool.not_eq_true]
  intro hp
  obtain ⟨m', hm', hml'⟩ := List.any_eq_true.mp hp
  rw [Bool.or_eq_true, List.isPrefixOf_iff_prefix, List.isPrefixOf_iff_prefix] at hml'
  have hl' : l.head? = some '-' := by
    rcases hml' with hml' | hml'
    · exact hhead hml' (hprov m' hm').1
    · exact hhead hml' (hprov m' hm').2
  rw [hl, Option.some.injEq] at hl'
  simp [hl'] at hne

/-- `l` は、`prior` にそのまま残っている塊の始まりか終わりの行である。 -/
def InKeptBlock (prior : Text) (before : List Text) (l : Text) (after : List Text) : Prop :=
  (∃ mid e post, after = mid ++ e :: post ∧ CompleteBlock l mid e
      ∧ containsCompleteLines prior (blockText l mid e) = true)
    ∨ ∃ pre b mid, before = pre ++ b :: mid ∧ CompleteBlock b mid l
      ∧ containsCompleteLines prior (blockText b mid l) = true

section Origin

variable {notes : Text} {previous : Option Text} {before after : List Text} {l : Text}

theorem splitInclusive_neutralizeNewMarkers (notes : Text) (previous : Option Text) :
    splitInclusive (neutralizeNewMarkers notes previous)
      = neutralizedLines (priorProofLines previous) (preservedBlocks notes previous) 0
          (splitInclusive notes) := by
  rw [neutralizeNewMarkers, neutralizeLines_eq]
  exact (lined_neutralizedLines (lined_splitInclusive notes) 0).splitInclusive_flatten

/-- 無効化した notes に立つ予約行は、前の notes の証跡の行か、残された塊の行である。 -/
theorem reserved_origin
    (h : splitInclusive (neutralizeNewMarkers notes previous) = before ++ l :: after)
    (hr : isReservedLine l = true) :
    ∃ prior, previous = some prior
      ∧ ((lineText l ∈ lines prior ∧ isProofLine (lineText l) = true)
        ∨ InKeptBlock prior before l after) := by
  rw [splitInclusive_neutralizeNewMarkers] at h
  obtain ⟨xs, ys, hls, hbefore, hafter, hmem | ⟨r, hpreserved, hcontains⟩⟩ :=
    neutralizedLines_eq_append h hr
  · obtain ⟨hmem, hproof⟩ := List.mem_filter.mp hmem
    cases previous with
    | none => exact absurd hmem List.not_mem_nil
    | some prior => exact ⟨prior, rfl, Or.inl ⟨hmem, hproof⟩⟩
  · obtain ⟨prior, pre, b, mid, e, post, rfl, hnotes, hblock, hstart, hstop, hkept⟩ :=
      exists_block_of_mem_preservedBlocks hpreserved
    refine ⟨prior, rfl, Or.inr ?_⟩
    have hne : l ≠ [] := (lined_splitInclusive notes).ne_nil l (by rw [hls]; simp)
    have hlen : (blockText b mid e).length ≤ (b :: mid ++ [e]).flatten.length := by
      have he : (trimEndMatches (· = '\n') e).length ≤ e.length := by
        simpa [trimEndMatches] using (List.dropWhile_sublist (· = '\n') (l := e.reverse)).length_le
      simp only [blockText, List.flatten_append, List.flatten_singleton, List.length_append]
      omega
    simp only [CharRange.contains, Bool.and_eq_true, decide_eq_true_eq, Nat.zero_add] at hcontains
    obtain ⟨u, v, hblk, rfl, rfl⟩ := exists_mem_block hne (hls.symm.trans hnotes)
      (by omega) (by omega)
    rw [neutralizedLines_append, Nat.zero_add] at hbefore
    rw [List.flatten_append, List.length_append, neutralizedLines_append] at hafter
    have hsame : neutralizedLines (priorProofLines (some prior)) (preservedBlocks notes (some prior))
        pre.flatten.length (b :: mid ++ [e]) = b :: mid ++ [e] :=
      neutralizedLines_block hpreserved hblock hstart hstop
    rcases hblock.ends hblk hr with ⟨rfl, rfl, rfl⟩ | ⟨rfl, rfl, rfl⟩
    · rw [List.cons_append, ← List.singleton_append] at hsame
      have hrest := (neutralizedLines_append_eq_self hsame).2
      simp only [List.flatten_nil, List.flatten_singleton, List.length_nil, Nat.add_zero,
        Nat.zero_add] at hafter hrest
      rw [hrest, List.append_assoc, List.singleton_append] at hafter
      exact Or.inl ⟨mid, e, _, hafter, hblock, hkept⟩
    · rw [(neutralizedLines_append_eq_self hsame).1] at hbefore
      exact Or.inr ⟨_, b, mid, hbefore, hblock, hkept⟩

/-- 来歴の行は、前の notes にそのまま残っている塊の行である。 -/
theorem provenance_origin
    (h : splitInclusive (neutralizeNewMarkers notes previous) = before ++ l :: after)
    (hp : isProvenanceLine l = true) :
    ∃ prior, previous = some prior ∧ InKeptBlock prior before l after := by
  obtain ⟨prior, hprior, ⟨-, hproof⟩ | hkept⟩ :=
    reserved_origin h (by rw [isReservedLine, hp, Bool.or_true])
  · -- 行末を落とした行が証跡の行なら、元の行もそうである。
    have hl : isProofLine l = true := by
      obtain ⟨m, hm, hml⟩ := List.any_eq_true.mp hproof
      refine List.any_eq_true.mpr ⟨m, hm, ?_⟩
      rw [List.isPrefixOf_iff_prefix] at hml ⊢
      exact hml.trans (List.rdropWhile_prefix _ l)
    rw [not_isProvenanceLine_of_isProofLine hl] at hp
    simp at hp
  · exact ⟨prior, hprior, hkept⟩

/-- 塊の行のうち予約行は、塊の中身の予約行である。 -/
theorem mem_marks_blockText {b e : Text} {mid : List Text} (h : Lined (b :: mid ++ [e]))
    (hl : l ∈ b :: mid ++ [e]) (hr : isReservedLine l = true) :
    trimEnd l ∈ marks (blockText b mid e) := by
  have hend : Blank (e.rtakeWhile (· = '\n')) := by
    intro c hc
    have hnl : c = '\n' := by simpa using List.mem_rtakeWhile_imp hc
    rw [hnl]
    exact isWhitespace_newline
  have hflat : (b :: mid ++ [e]).flatten = blockText b mid e ++ e.rtakeWhile (· = '\n') := by
    have he : e = trimEndMatches (· = '\n') e ++ e.rtakeWhile (· = '\n') :=
      List.rdropWhile_append_rtakeWhile.symm
    rw [blockText, List.append_assoc, ← he, List.flatten_append, List.flatten_singleton]
  have hmarks : marks (blockText b mid e) = marks (b :: mid ++ [e]).flatten := by
    rw [hflat, marks_append_of_blankHead (blankHead_of_blank hend), marks_of_blank hend, List.append_nil]
  rw [hmarks, marks_flatten h, List.mem_filter, isReservedLine_trimEnd]
  exact ⟨List.mem_map_of_mem hl, hr⟩

theorem mem_marks_of_inKeptBlock {prior : Text} (hlined : Lined (before ++ l :: after))
    (h : InKeptBlock prior before l after) : trimEnd l ∈ marks prior := by
  rcases h with ⟨mid, e, post, rfl, hblock, hkept⟩ | ⟨pre, b, mid, rfl, hblock, hkept⟩
  · have hinner : Lined (l :: mid ++ [e]) := by
      have hsplit : before ++ l :: (mid ++ e :: post) = before ++ ((l :: mid ++ [e]) ++ post) := by
        simp
      exact (hsplit ▸ hlined).split.2.split.1
    exact marks_subset_of_containsCompleteLines hkept
      (mem_marks_blockText hinner (by simp) hblock.reserved.1)
  · have hinner : Lined (b :: mid ++ [l]) := by
      have hsplit : pre ++ b :: mid ++ l :: after = pre ++ ((b :: mid ++ [l]) ++ after) := by
        simp
      exact (hsplit ▸ hlined).split.2.split.1
    exact marks_subset_of_containsCompleteLines hkept
      (mem_marks_blockText hinner (by simp) hblock.reserved.2)

/-- 無効化した notes の予約行は、前の notes の予約行である。 -/
theorem mem_marks_neutralizeNewMarkers {m : Text}
    (hm : m ∈ marks (neutralizeNewMarkers notes previous)) :
    ∃ prior, previous = some prior ∧ m ∈ marks prior := by
  rw [marks_eq, List.mem_filter] at hm
  obtain ⟨hm, hr⟩ := hm
  obtain ⟨l, hl, rfl⟩ := List.mem_map.mp hm
  rw [isReservedLine_trimEnd] at hr
  obtain ⟨before, after, hsplit⟩ := List.append_of_mem hl
  obtain ⟨prior, hprior, ⟨hmem, hproof⟩ | hkept⟩ := reserved_origin hsplit hr
  · refine ⟨prior, hprior, ?_⟩
    rw [← trimEnd_lineText]
    exact mem_marks_of_mem_lines hmem (by rw [isReservedLine, hproof, Bool.true_or])
  · exact ⟨prior, hprior, mem_marks_of_inKeptBlock (hsplit ▸ lined_splitInclusive _) hkept⟩

end Origin

/-- 前の notes を見ない書き込みは、予約行を一つも残さない。 -/
theorem marks_neutralizeNewMarkers_none (notes : Text) :
    marks (neutralizeNewMarkers notes none) = [] := by
  refine List.eq_nil_iff_forall_not_mem.mpr fun m hm => ?_
  obtain ⟨prior, hprior, -⟩ := mem_marks_neutralizeNewMarkers hm
  simp at hprior

/-- 前の notes を見る書き込みは、前の notes の予約行しか残さない。 -/
theorem marks_neutralizeNewMarkers_subset (notes prior : Text) :
    marks (neutralizeNewMarkers notes (some prior)) ⊆ marks prior := by
  intro m hm
  obtain ⟨prior', hprior, hm⟩ := mem_marks_neutralizeNewMarkers hm
  rw [Option.some.injEq] at hprior
  exact hprior ▸ hm

end Cassy
