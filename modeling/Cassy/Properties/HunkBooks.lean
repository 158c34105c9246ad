import Mathlib.Data.List.Chain
import Mathlib.Data.List.ReduceOption
import Cassy.Infra.Run
import Cassy.Diffs.Build

/-!
# hunk の帳尻

`parser.rs` の返す file では、どの入力についても、hunk の数が互いに合う。

* 変わった行の塊と変わっていない行の塊は交互に並び、その範囲は隙間なく並んで、hunk の範囲をちょうど覆う
* hunk の範囲は、前の hunk の範囲のすぐ後から始まり、最後の hunk の範囲は行の列の終わりで終わる
* hunk の行数は、塊の行数の和である
* hunk の始まりの位置は、前の hunk の畳まれた行と行数の和に、自分の畳まれた行を足したものである

足し算は build の `+` なので、位置は、溢れを調べる build では和そのもの、折り返す build では和を 2⁶⁴ で割った余りになる。

一行の歩みは `Booked` を保ち（`Booked.pushLine`）、一つの hunk の歩みは `FileDiffMetadata.Booked` を保つ（`Booked.parseHunkIn`）。
-/

namespace Cassy.Diffs

open Infra

/-! ## 塊 -/

namespace HunkContent

/-- 変わった行の塊である。 -/
def isChange : HunkContent → Bool
  | change _ => true
  | context _ => false

/-- 消された側で占める行数。 -/
def deletionSpan : HunkContent → Nat
  | change c => c.deletions
  | context c => c.lines

/-- 足された側で占める行数。 -/
def additionSpan : HunkContent → Nat
  | change c => c.additions
  | context c => c.lines

/-- 消された行数。 -/
def deleted : HunkContent → Nat
  | change c => c.deletions
  | context _ => 0

/-- 足された行数。 -/
def added : HunkContent → Nat
  | change c => c.additions
  | context _ => 0

/-- 消された側の始まり。 -/
def deletionStart : HunkContent → Nat
  | change c => c.deletionLineIndex
  | context c => c.deletionLineIndex

/-- 足された側の始まり。 -/
def additionStart : HunkContent → Nat
  | change c => c.additionLineIndex
  | context c => c.additionLineIndex

end HunkContent

/-- 塊の範囲が、`d`・`a` から `d'`・`a'` まで隙間なく並ぶ。 -/
def Covers : List HunkContent → Nat → Nat → Nat → Nat → Prop
  | [], d, a, d', a' => d = d' ∧ a = a'
  | c :: cs, d, a, d', a' =>
    c.deletionStart = d ∧ c.additionStart = a
      ∧ Covers cs (d + c.deletionSpan) (a + c.additionSpan) d' a'

/-- 隣り合う塊の種類が違う。 -/
def Alternates (contents : List HunkContent) : Prop :=
  contents.IsChain fun c c' => c.isChange ≠ c'.isChange

section covers

variable {contents : List HunkContent} {c : HunkContent} {d a d' a' : Nat}

theorem covers_snoc : ∀ {contents : List HunkContent} {d a : Nat},
    Covers (contents ++ [c]) d a d' a' ↔
      Covers contents d a c.deletionStart c.additionStart
        ∧ c.deletionStart + c.deletionSpan = d' ∧ c.additionStart + c.additionSpan = a'
  | [], d, a => by
    simp only [List.nil_append, Covers]
    constructor
    · rintro ⟨rfl, rfl, h, h'⟩
      exact ⟨⟨rfl, rfl⟩, h, h'⟩
    · rintro ⟨⟨rfl, rfl⟩, h, h'⟩
      exact ⟨rfl, rfl, h, h'⟩
  | x :: contents, d, a => by
    simp only [List.cons_append, Covers, covers_snoc, and_assoc]

/-- 隙間なく並ぶ塊の終わりは、行数の和で決まる。 -/
theorem Covers.end_eq : ∀ {contents : List HunkContent} {d a : Nat}, Covers contents d a d' a' →
    d' = d + (contents.map HunkContent.deletionSpan).sum
      ∧ a' = a + (contents.map HunkContent.additionSpan).sum
  | [], d, a, h => by simpa [Covers, eq_comm] using h
  | c :: contents, d, a, h => by
    obtain ⟨-, -, hrest⟩ := h
    obtain ⟨hd, ha⟩ := hrest.end_eq
    simp only [List.map_cons, List.sum_cons]
    exact ⟨by omega, by omega⟩

end covers

/-! ## 行を読む間 -/

namespace HunkState

/-- 閉じた塊と、まだ閉じていない塊。 -/
def contents (s : HunkState) : List HunkContent := s.hunkContent ++ s.current.toList

/-- `d`・`a` から読み始めて、数が合っている。 -/
structure Booked (d a : Nat) (s : HunkState) : Prop where
  covers : Covers s.contents d a s.deletionLineIndex s.additionLineIndex
  alternates : Alternates s.contents
  deletionLineIndex : s.deletionLineIndex = s.deletionLines.length
  additionLineIndex : s.additionLineIndex = s.additionLines.length
  deletions : s.deletionLinesCount = (s.contents.map HunkContent.deleted).sum
  additions : s.additionLinesCount = (s.contents.map HunkContent.added).sum
  /-- 塊が一つでも閉じていれば、開いた塊がある。 -/
  started : s.current = none → s.hunkContent = []

variable {d a : Nat} {s : HunkState}

/-- 開いた塊と種類の違う、空の塊を足す。 -/
theorem Booked.open {c : HunkContent} (h : s.Booked d a) (hd : c.deletionStart = s.deletionLineIndex)
    (ha : c.additionStart = s.additionLineIndex) (hds : c.deletionSpan = 0) (has : c.additionSpan = 0)
    (hdel : c.deleted = 0) (hadd : c.added = 0) (hne : ∀ c' ∈ s.current, c'.isChange ≠ c.isChange) :
    ({ s with hunkContent := s.contents, current := some c } : HunkState).Booked d a where
  covers := by
    show Covers (s.contents ++ [c]) d a _ _
    rw [covers_snoc, hd, ha, hds, has]
    exact ⟨h.covers, rfl, rfl⟩
  alternates := by
    show (s.contents ++ [c]).IsChain _
    refine List.isChain_append.mpr ⟨h.alternates, .singleton _, ?_⟩
    intro x hx y hy
    cases Option.mem_some_iff.mp hy
    refine hne x ?_
    unfold contents at hx
    cases hcur : s.current with
    | none =>
      rw [hcur, h.started hcur] at hx
      cases hx
    | some c' =>
      rw [hcur, Option.toList_some, List.getLast?_concat] at hx
      exact hx
  deletionLineIndex := h.deletionLineIndex
  additionLineIndex := h.additionLineIndex
  deletions := by
    show _ = ((s.contents ++ [c]).map HunkContent.deleted).sum
    simp [h.deletions, hdel]
  additions := by
    show _ = ((s.contents ++ [c]).map HunkContent.added).sum
    simp [h.additions, hadd]
  started := fun h => by cases h

theorem Booked.openChange (h : s.Booked d a) : s.openChange.Booked d a := by
  unfold HunkState.openChange
  split
  · exact h
  · next hcur =>
    refine h.open rfl rfl rfl rfl rfl rfl fun c' hc' => ?_
    cases c' with
    | change c => exact absurd hc' (hcur c)
    | context c => exact Bool.false_ne_true

theorem Booked.openContext (h : s.Booked d a) : s.openContext.Booked d a := by
  unfold HunkState.openContext
  split
  · exact h
  · next hcur =>
    refine h.open rfl rfl rfl rfl rfl rfl fun c' hc' => ?_
    cases c' with
    | context c => exact absurd hc' (hcur c)
    | change c => exact fun h => by cases h

/-- 開いた塊が行を一つ取る。 -/
theorem Booked.grow {c c' : HunkContent} {s' : HunkState} {dn an : Nat} (h : s.Booked d a)
    (hcur : s.current = some c) (hdone : s'.hunkContent = s.hunkContent) (hcur' : s'.current = some c')
    (hkind : c'.isChange = c.isChange)
    (hd : c'.deletionStart = c.deletionStart) (ha : c'.additionStart = c.additionStart)
    (hds : c'.deletionSpan = c.deletionSpan + dn) (has : c'.additionSpan = c.additionSpan + an)
    (hdi : s'.deletionLineIndex = s.deletionLineIndex + dn)
    (hai : s'.additionLineIndex = s.additionLineIndex + an)
    (hdl : s'.deletionLines.length = s.deletionLines.length + dn)
    (hal : s'.additionLines.length = s.additionLines.length + an)
    (hdc : s'.deletionLinesCount + c.deleted = s.deletionLinesCount + c'.deleted)
    (hac : s'.additionLinesCount + c.added = s.additionLinesCount + c'.added) :
    s'.Booked d a := by
  have hold : s.contents = s.hunkContent ++ [c] := by
    rw [contents, hcur, Option.toList_some]
  have hnew : s'.contents = s.hunkContent ++ [c'] := by
    rw [contents, hcur', hdone, Option.toList_some]
  have hcov := h.covers
  rw [hold, covers_snoc] at hcov
  refine ⟨?_, ?_, ?_, ?_, ?_, ?_, fun h => ?_⟩
  · rw [hnew, covers_snoc, hd, ha, hds, has, hdi, hai]
    exact ⟨hcov.1, by omega, by omega⟩
  · have halt := h.alternates
    rw [hold] at halt
    rw [hnew]
    obtain ⟨hdone', -, hlast⟩ := List.isChain_append.mp halt
    refine List.isChain_append.mpr ⟨hdone', .singleton _, fun x hx y hy => ?_⟩
    cases Option.mem_some_iff.mp hy
    rw [hkind]
    exact hlast x hx c rfl
  · have := h.deletionLineIndex
    omega
  · have := h.additionLineIndex
    omega
  · have := h.deletions
    rw [hold] at this
    rw [hnew]
    simp only [List.map_append, List.map_cons, List.map_nil, List.sum_append, List.sum_singleton] at this ⊢
    omega
  · have := h.additions
    rw [hold] at this
    rw [hnew]
    simp only [List.map_append, List.map_cons, List.map_nil, List.sum_append, List.sum_singleton] at this ⊢
    omega
  · rw [hcur'] at h
    cases h

theorem current_openChange' (s : HunkState) : ∃ c, s.openChange.current = some (.change c) := by
  unfold HunkState.openChange
  split
  · next c hcur => exact ⟨c, hcur⟩
  · exact ⟨_, rfl⟩

theorem current_openContext' (s : HunkState) : ∃ c, s.openContext.current = some (.context c) := by
  unfold HunkState.openContext
  split
  · next c hcur => exact ⟨c, hcur⟩
  · exact ⟨_, rfl⟩

theorem Booked.pushAddition (h : s.Booked d a) (line : Text) : (s.pushAddition line).Booked d a := by
  obtain ⟨c, hcur⟩ := current_openChange' s
  refine @Booked.grow _ _ _ _ (.change { c with additions := c.additions + 1 }) _ 0 1 h.openChange
    hcur rfl ?_ rfl rfl rfl rfl rfl rfl rfl rfl ?_ ?_ ?_
  · show s.openChange.current.map _ = _
    rw [hcur]
    rfl
  · simp [HunkState.pushAddition]
  · rfl
  · show s.openChange.additionLinesCount + 1 + c.additions
      = s.openChange.additionLinesCount + (c.additions + 1)
    omega

theorem Booked.pushDeletion (h : s.Booked d a) (line : Text) : (s.pushDeletion line).Booked d a := by
  obtain ⟨c, hcur⟩ := current_openChange' s
  refine @Booked.grow _ _ _ _ (.change { c with deletions := c.deletions + 1 }) _ 1 0 h.openChange
    hcur rfl ?_ rfl rfl rfl rfl rfl rfl rfl ?_ rfl ?_ ?_
  · show s.openChange.current.map _ = _
    rw [hcur]
    rfl
  · simp [HunkState.pushDeletion]
  · show s.openChange.deletionLinesCount + 1 + c.deletions
      = s.openChange.deletionLinesCount + (c.deletions + 1)
    omega
  · rfl

theorem Booked.pushContext (h : s.Booked d a) (line : Text) : (s.pushContext line).Booked d a := by
  obtain ⟨c, hcur⟩ := current_openContext' s
  refine @Booked.grow _ _ _ _ (.context { c with lines := c.lines + 1 }) _ 1 1 h.openContext
    hcur rfl ?_ rfl rfl rfl rfl rfl rfl rfl ?_ ?_ rfl rfl
  · show s.openContext.current.map _ = _
    rw [hcur]
    rfl
  · simp [HunkState.pushContext]
  · simp [HunkState.pushContext]

theorem length_cleanLast (lines : List Text) : (cleanLast lines).length = lines.length := by
  unfold cleanLast
  cases hlast : lines.getLast? with
  | none => rfl
  | some last =>
    have hne : lines ≠ [] := fun h => by simp [h] at hlast
    have := List.length_pos_iff.mpr hne
    simp only [List.length_append, List.length_dropLast, List.length_singleton]
    omega

/-- 行末の改行を落としても、行の数は変わらない。 -/
theorem Booked.pushMetadata (h : s.Booked d a) : s.pushMetadata.Booked d a where
  covers := h.covers
  alternates := h.alternates
  deletionLineIndex := by
    simp only [HunkState.pushMetadata]
    split
    · rw [length_cleanLast]
      exact h.deletionLineIndex
    · exact h.deletionLineIndex
  additionLineIndex := by
    simp only [HunkState.pushMetadata]
    split
    · rw [length_cleanLast]
      exact h.additionLineIndex
    · exact h.additionLineIndex
  deletions := h.deletions
  additions := h.additions
  started := h.started

/-- 一行を読んでも、数は合ったままである。 -/
theorem Booked.pushLine (h : s.Booked d a) (rawLine : Text) : (s.pushLine rawLine).Booked d a := by
  unfold HunkState.pushLine
  split
  · exact h.pushAddition _
  · exact h.pushDeletion _
  · exact h.pushContext _
  · exact h.pushMetadata
  · exact h

theorem Booked.foldl_pushLine : ∀ {lines : List Text} {s : HunkState}, s.Booked d a →
    (lines.foldl HunkState.pushLine s).Booked d a
  | [], _, h => h
  | line :: _, _, h => (h.pushLine line).foldl_pushLine

end HunkState

/-- hunk の行を読み終えた後の数。 -/
theorem booked_readHunkLines (file : FileDiffMetadata) (contentLines : List Text) :
    (readHunkLines file contentLines).Booked file.deletionLines.length file.additionLines.length :=
  HunkState.Booked.foldl_pushLine
    { covers := ⟨rfl, rfl⟩, alternates := .nil, deletionLineIndex := rfl, additionLineIndex := rfl
      deletions := rfl, additions := rfl, started := fun _ => rfl }

/-! ## 行の重さ -/

/-- 足された行・消された行・変わっていない行に重さを付けた、塊の重さ。 -/
def HunkContent.weight (wa wd wc : Nat) : HunkContent → Nat
  | .change c => wa * c.additions + wd * c.deletions
  | .context c => wc * c.lines

/-- 塊の重さの和。 -/
def weightSum (wa wd wc : Nat) (contents : List HunkContent) : Nat :=
  (contents.map (HunkContent.weight wa wd wc)).sum

/-- 一行の重さ。 -/
def lineWeight (wa wd wc : Nat) : Option HunkLineType → Nat
  | some .addition => wa
  | some .deletion => wd
  | some .context => wc
  | _ => 0

section weight

variable {wa wd wc : Nat}

theorem weightSum_append (cs cs' : List HunkContent) :
    weightSum wa wd wc (cs ++ cs') = weightSum wa wd wc cs + weightSum wa wd wc cs' := by
  simp [weightSum]

theorem weightSum_openChange (s : HunkState) :
    weightSum wa wd wc s.openChange.contents = weightSum wa wd wc s.contents := by
  unfold HunkState.openChange
  split
  · rfl
  · show weightSum wa wd wc (s.contents ++ [_]) = _
    rw [weightSum_append]
    rfl

theorem weightSum_openContext (s : HunkState) :
    weightSum wa wd wc s.openContext.contents = weightSum wa wd wc s.contents := by
  unfold HunkState.openContext
  split
  · rfl
  · show weightSum wa wd wc (s.contents ++ [_]) = _
    rw [weightSum_append]
    rfl

/-- 開いた塊が重くなった分だけ、和が増える。 -/
theorem weightSum_grow {s s' : HunkState} {c c' : HunkContent} {w : Nat} (hcur : s.current = some c)
    (hcur' : s'.current = some c') (hcontent : s'.hunkContent = s.hunkContent)
    (hw : c'.weight wa wd wc = c.weight wa wd wc + w) :
    weightSum wa wd wc s'.contents = weightSum wa wd wc s.contents + w := by
  unfold HunkState.contents
  rw [hcur, hcur', hcontent, weightSum_append, weightSum_append]
  simp only [Option.toList_some, weightSum, List.map_cons, List.map_nil, List.sum_singleton, hw]
  omega

/-- 一行を読むと、その行の重さだけ増える。 -/
theorem weightSum_pushLine (s : HunkState) (rawLine : Text) :
    weightSum wa wd wc (s.pushLine rawLine).contents = weightSum wa wd wc s.contents
      + lineWeight wa wd wc ((parseLineType (trimLine rawLine)).map (·.1)) := by
  obtain ⟨c, hchange⟩ := HunkState.current_openChange' s
  obtain ⟨k, hcontext⟩ := HunkState.current_openContext' s
  unfold HunkState.pushLine
  match parseLineType (trimLine rawLine) with
  | some (.addition, line) =>
    rw [← weightSum_openChange s]
    refine @weightSum_grow _ _ _ _ _ _ (.change { c with additions := c.additions + 1 }) _ hchange ?_ rfl ?_
    · show s.openChange.current.map _ = _
      rw [hchange]
      rfl
    · simp only [HunkContent.weight, lineWeight, Option.map_some, Nat.mul_add]
      omega
  | some (.deletion, line) =>
    rw [← weightSum_openChange s]
    refine @weightSum_grow _ _ _ _ _ _ (.change { c with deletions := c.deletions + 1 }) _ hchange ?_ rfl ?_
    · show s.openChange.current.map _ = _
      rw [hchange]
      rfl
    · simp only [HunkContent.weight, lineWeight, Option.map_some, Nat.mul_add]
      omega
  | some (.context, line) =>
    rw [← weightSum_openContext s]
    refine @weightSum_grow _ _ _ _ _ _ (.context { k with lines := k.lines + 1 }) _ hcontext ?_ rfl ?_
    · show s.openContext.current.map _ = _
      rw [hcontext]
      rfl
    · simp only [HunkContent.weight, lineWeight, Option.map_some, Nat.mul_add]
      omega
  | some (.metadata, _) | some (.expanded, _) | none => rfl

theorem weightSum_foldl : ∀ (lines : List Text) (s : HunkState),
    weightSum wa wd wc (lines.foldl HunkState.pushLine s).contents = weightSum wa wd wc s.contents
      + (lines.map fun line => lineWeight wa wd wc ((parseLineType (trimLine line)).map (·.1))).sum
  | [], _ => rfl
  | line :: lines, s => by
    rw [List.foldl_cons, weightSum_foldl lines, weightSum_pushLine, List.map_cons, List.sum_cons]
    omega

/-- 成り立つところで 1 とした和は、成り立つものの数である。 -/
theorem sum_map_ite {α : Type} (p : α → Bool) : ∀ l : List α,
    (l.map fun a => if p a then 1 else 0).sum = l.countP p
  | [] => rfl
  | a :: l => by
    rw [List.map_cons, List.sum_cons, List.countP_cons, sum_map_ite p l, Nat.add_comm]

/-- 読み終えた hunk の重さは、行の重さの和である。 -/
theorem weightSum_readHunkLines (f : FileDiffMetadata) (contentLines : List Text) :
    weightSum wa wd wc (readHunkLines f contentLines).contents
      = ((stripBareNewlines contentLines).map fun line =>
        lineWeight wa wd wc ((parseLineType (trimLine line)).map (·.1))).sum := by
  unfold readHunkLines
  rw [weightSum_foldl]
  exact Nat.zero_add _

end weight

/-! ## build の足し算 -/

/-- `x` が和 `n` を表す。 -/
def Build.Sums (b : Build) (x n : Nat) : Prop :=
  match b with
  | checked => x = n
  | wrapping => x = n % 2 ^ 64

namespace Build

variable {b : Build} {x y z n m : Nat}

theorem sums_add (h : b.add n m = some z) : b.Sums z (n + m) := by
  cases b with
  | checked =>
    simp only [add, Option.ite_none_right_eq_some, Option.some.injEq] at h
    exact h.2.symm
  | wrapping => exact (Option.some.inj h).symm

theorem Sums.add (hx : b.Sums x n) (hy : b.Sums y m) (h : b.add x y = some z) : b.Sums z (n + m) := by
  have hz := sums_add h
  cases b with
  | checked =>
    simp only [Sums] at hx hy hz ⊢
    rw [hz, hx, hy]
  | wrapping =>
    simp only [Sums] at hx hy hz ⊢
    rw [hz, hx, hy, ← Nat.add_mod]

theorem Sums.add_right (hx : b.Sums x n) (h : b.add x m = some z) : b.Sums z (n + m) := by
  have hz := sums_add h
  cases b with
  | checked =>
    simp only [Sums] at hx hz ⊢
    rw [hz, hx]
  | wrapping =>
    simp only [Sums] at hx hz ⊢
    rw [hz, hx, Nat.mod_add_mod]

end Build

/-! ## hunk と file -/

namespace Hunk

/-- 消された側の範囲の長さ。 -/
def deletionSpan (h : Hunk) : Nat := (h.hunkContent.map HunkContent.deletionSpan).sum

/-- 足された側の範囲の長さ。 -/
def additionSpan (h : Hunk) : Nat := (h.hunkContent.map HunkContent.additionSpan).sum

/-- `split` で、畳まれた行を含めて占める行数。 -/
def splitHeight (h : Hunk) : Nat := h.collapsedBefore + h.splitLineCount

/-- `unified` で、畳まれた行を含めて占める行数。 -/
def unifiedHeight (h : Hunk) : Nat := h.collapsedBefore + h.unifiedLineCount

/-- 前の hunk `before` の後にあって、数が合っている。 -/
structure Booked (b : Build) (before : List Hunk) (h : Hunk) : Prop where
  alternates : Alternates h.hunkContent
  covers : Covers h.hunkContent h.deletionLineIndex h.additionLineIndex
    (h.deletionLineIndex + h.deletionSpan) (h.additionLineIndex + h.additionSpan)
  deletionLineIndex : h.deletionLineIndex = (before.map deletionSpan).sum
  additionLineIndex : h.additionLineIndex = (before.map additionSpan).sum
  deletionLines : h.deletionLines = (h.hunkContent.map HunkContent.deleted).sum
  additionLines : h.additionLines = (h.hunkContent.map HunkContent.added).sum
  splitLineCount : h.splitLineCount = (h.hunkContent.map HunkContent.splitHeight).sum
  unifiedLineCount : h.unifiedLineCount = (h.hunkContent.map HunkContent.unifiedHeight).sum
  splitLineStart : b.Sums h.splitLineStart ((before.map splitHeight).sum + h.collapsedBefore)
  unifiedLineStart : b.Sums h.unifiedLineStart ((before.map unifiedHeight).sum + h.collapsedBefore)

end Hunk

/-- file のどの hunk も数が合い、hunk の範囲が行の列をちょうど覆う。 -/
structure FileDiffMetadata.Booked (b : Build) (f : FileDiffMetadata) : Prop where
  hunks : ∀ {before h after}, f.hunks = before ++ h :: after → h.Booked b before
  deletionLines : f.deletionLines.length = (f.hunks.map Hunk.deletionSpan).sum
  additionLines : f.additionLines.length = (f.hunks.map Hunk.additionSpan).sum
  splitLineCount : b.Sums f.splitLineCount (f.hunks.map Hunk.splitHeight).sum
  unifiedLineCount : b.Sums f.unifiedLineCount (f.hunks.map Hunk.unifiedHeight).sum

section file

variable {b : Build} {f f' : FileDiffMetadata} {lastHunkEnd hunkEnd : Nat} {firstLine : Text}
  {header : HunkHeader} {contentLines : List Text} {decimal : Char → Bool} {isGitDiff : Bool}

/-- hunk を一つ読めたときの file。 -/
structure Appended (b : Build) (f : FileDiffMetadata) (lastHunkEnd : Nat) (header : HunkHeader)
    (contentLines : List Text) (h : Hunk) (f' : FileDiffMetadata) (hunkEnd : Nat) : Prop where
  hunks : f'.hunks = f.hunks ++ [h]
  deletionLines : f'.deletionLines = (readHunkLines f contentLines).deletionLines
  additionLines : f'.additionLines = (readHunkLines f contentLines).additionLines
  hunkContent : h.hunkContent = (readHunkLines f contentLines).contents
  deletionCounted : h.deletionLines = (readHunkLines f contentLines).deletionLinesCount
  additionCounted : h.additionLines = (readHunkLines f contentLines).additionLinesCount
  deletionLineIndex : h.deletionLineIndex = f.deletionLines.length
  additionLineIndex : h.additionLineIndex = f.additionLines.length
  collapsedBefore : h.collapsedBefore = header.additionStartNumber - 1 - lastHunkEnd
  additionStart : h.additionStart = header.additionStartNumber
  additionCount : h.additionCount = header.additionCountNumber
  counts : (h.splitLineCount, h.unifiedLineCount) = computeHunkLineCounts h.hunkContent
  splitLineStart : b.add f.splitLineCount h.collapsedBefore = some h.splitLineStart
  unifiedLineStart : b.add f.unifiedLineCount h.collapsedBefore = some h.unifiedLineStart
  splitLineCount : ∃ n, b.add h.collapsedBefore h.splitLineCount = some n
    ∧ b.add f.splitLineCount n = some f'.splitLineCount
  unifiedLineCount : ∃ n, b.add h.collapsedBefore h.unifiedLineCount = some n
    ∧ b.add f.unifiedLineCount n = some f'.unifiedLineCount
  hunkEnd : ∃ n, b.add header.additionStartNumber header.additionCountNumber = some n ∧ hunkEnd = n - 1
  rest : f' = { f with
    hunks := f'.hunks
    splitLineCount := f'.splitLineCount
    unifiedLineCount := f'.unifiedLineCount
    deletionLines := f'.deletionLines
    additionLines := f'.additionLines }

theorem appended_of_parseHunkIn
    (h : parseHunkIn b f lastHunkEnd firstLine header contentLines = some (f', hunkEnd)) :
    ∃ hunk, Appended b f lastHunkEnd header contentLines hunk f' hunkEnd := by
  simp only [parseHunkIn, bind, Option.bind_eq_some_iff, Option.some.injEq, Prod.mk.injEq] at h
  obtain ⟨ss, hss, us, hus, n, hn, st, hst, m, hm, ut, hut, e, he, rfl, rfl⟩ := h
  exact ⟨_, ⟨rfl, rfl, rfl, rfl, rfl, rfl, rfl, rfl, rfl, rfl, rfl, rfl, hss, hus, ⟨n, hn, hst⟩,
    ⟨m, hm, hut⟩, ⟨e, he, rfl⟩, rfl⟩⟩

/-- 最初の hunk を除いても、後の hunk の帳尻は前のものだけで決まる。 -/
theorem append_singleton_eq {before after : List Hunk} {h h' : Hunk} {hs : List Hunk}
    (he : hs ++ [h'] = before ++ h :: after) :
    (∃ after', hs = before ++ h :: after') ∨ (before = hs ∧ h = h') := by
  rcases List.eq_nil_or_concat after with rfl | ⟨after', x, rfl⟩
  · obtain ⟨rfl, h⟩ := List.append_inj' he rfl
    exact .inr ⟨rfl, (List.singleton_inj.mp h).symm⟩
  · have : hs ++ [h'] = (before ++ h :: after') ++ [x] := by simpa using he
    exact .inl ⟨after', (List.append_inj' this rfl).1⟩

/-- **hunk を一つ読んでも、file の数は合ったままである。** -/
theorem FileDiffMetadata.Booked.parseHunkIn (hf : f.Booked b)
    (h : parseHunkIn b f lastHunkEnd firstLine header contentLines = some (f', hunkEnd)) :
    f'.Booked b := by
  obtain ⟨hunk, ha⟩ := appended_of_parseHunkIn h
  have hread := booked_readHunkLines f contentLines
  obtain ⟨hdend, haend⟩ := hread.covers.end_eq
  have hsplit : hunk.splitLineCount = (hunk.hunkContent.map HunkContent.splitHeight).sum :=
    (Prod.mk.inj ha.counts).1
  have hunified : hunk.unifiedLineCount = (hunk.hunkContent.map HunkContent.unifiedHeight).sum :=
    (Prod.mk.inj ha.counts).2
  have hdspan : f'.deletionLines.length = f.deletionLines.length + hunk.deletionSpan := by
    rw [ha.deletionLines, ← hread.deletionLineIndex, hdend, Hunk.deletionSpan, ha.hunkContent]
  have haspan : f'.additionLines.length = f.additionLines.length + hunk.additionSpan := by
    rw [ha.additionLines, ← hread.additionLineIndex, haend, Hunk.additionSpan, ha.hunkContent]
  have hsums : ∀ {total total' m n : Nat}, b.Sums total m →
      (∃ k, b.add hunk.collapsedBefore n = some k ∧ b.add total k = some total') →
      b.Sums total' (m + (hunk.collapsedBefore + n)) := by
    rintro total total' m n htotal ⟨k, hk, hk'⟩
    exact htotal.add (Build.sums_add hk) hk'
  refine ⟨fun {before x after} he => ?_, ?_, ?_, ?_, ?_⟩
  · rw [ha.hunks] at he
    rcases append_singleton_eq he with ⟨after', hold⟩ | ⟨rfl, rfl⟩
    · exact hf.hunks hold
    · exact
        { alternates := ha.hunkContent ▸ hread.alternates
          covers := by
            rw [Hunk.deletionSpan, Hunk.additionSpan, ha.hunkContent, ha.deletionLineIndex,
              ha.additionLineIndex, ← hdend, ← haend]
            exact hread.covers
          deletionLineIndex := ha.deletionLineIndex.trans hf.deletionLines
          additionLineIndex := ha.additionLineIndex.trans hf.additionLines
          deletionLines := by rw [ha.deletionCounted, ha.hunkContent, hread.deletions]
          additionLines := by rw [ha.additionCounted, ha.hunkContent, hread.additions]
          splitLineCount := hsplit
          unifiedLineCount := hunified
          splitLineStart := hf.splitLineCount.add_right ha.splitLineStart
          unifiedLineStart := hf.unifiedLineCount.add_right ha.unifiedLineStart }
  · rw [hdspan, ha.hunks, List.map_append, List.sum_append, hf.deletionLines]
    simp
  · rw [haspan, ha.hunks, List.map_append, List.sum_append, hf.additionLines]
    simp
  · rw [ha.hunks, List.map_append, List.sum_append, List.map_singleton, List.sum_singleton]
    exact hsums hf.splitLineCount ha.splitLineCount
  · rw [ha.hunks, List.map_append, List.sum_append, List.map_singleton, List.sum_singleton]
    exact hsums hf.unifiedLineCount ha.unifiedLineCount

/-- 名前と種類のほかが同じである。 -/
structure SameBody (f f' : FileDiffMetadata) : Prop where
  hunks : f'.hunks = f.hunks
  deletionLines : f'.deletionLines = f.deletionLines
  additionLines : f'.additionLines = f.additionLines
  splitLineCount : f'.splitLineCount = f.splitLineCount
  unifiedLineCount : f'.unifiedLineCount = f.unifiedLineCount

theorem SameBody.refl (f : FileDiffMetadata) : SameBody f f := ⟨rfl, rfl, rfl, rfl, rfl⟩

theorem SameBody.trans {f₁ f₂ f₃ : FileDiffMetadata} (h : SameBody f₁ f₂) (h' : SameBody f₂ f₃) :
    SameBody f₁ f₃ :=
  ⟨h'.hunks.trans h.hunks, h'.deletionLines.trans h.deletionLines,
    h'.additionLines.trans h.additionLines, h'.splitLineCount.trans h.splitLineCount,
    h'.unifiedLineCount.trans h.unifiedLineCount⟩

theorem SameBody.booked (h : SameBody f f') (hf : f.Booked b) : f'.Booked b where
  hunks := fun he => hf.hunks (h.hunks ▸ he)
  deletionLines := by rw [h.deletionLines, h.hunks, hf.deletionLines]
  additionLines := by rw [h.additionLines, h.hunks, hf.additionLines]
  splitLineCount := by rw [h.splitLineCount, h.hunks]; exact hf.splitLineCount
  unifiedLineCount := by rw [h.unifiedLineCount, h.hunks]; exact hf.unifiedLineCount

theorem sameBody_parseGitMetadataLine (f : FileDiffMetadata) (line : Text) :
    SameBody f (parseGitMetadataLine f line) := by
  unfold parseGitMetadataLine
  repeat' split
  all_goals exact ⟨rfl, rfl, rfl, rfl, rfl⟩

theorem sameBody_parseFileHeaderLine (isGitDiff : Bool) (f : FileDiffMetadata) (rawLine : Text) :
    SameBody f (parseFileHeaderLine isGitDiff f rawLine) := by
  simp only [parseFileHeaderLine]
  split
  · split
    · exact .refl f
    · split <;> exact ⟨rfl, rfl, rfl, rfl, rfl⟩
  · split
    · split
      · exact ⟨rfl, rfl, rfl, rfl, rfl⟩
      · split <;> exact ⟨rfl, rfl, rfl, rfl, rfl⟩
    · split
      · exact sameBody_parseGitMetadataLine f _
      · exact .refl f

theorem sameBody_parseFileHeader (isGitDiff : Bool) : ∀ (lines : List Text) (f : FileDiffMetadata),
    SameBody f (parseFileHeader f lines isGitDiff)
  | [], f => .refl f
  | line :: lines, f =>
    (sameBody_parseFileHeaderLine isGitDiff f line).trans (sameBody_parseFileHeader isGitDiff lines _)

theorem sameBody_finishFile (isGitDiff : Bool) (f : FileDiffMetadata) :
    SameBody f (finishFile isGitDiff f) := by
  simp only [finishFile]
  repeat' split
  all_goals exact ⟨rfl, rfl, rfl, rfl, rfl⟩

theorem booked_emptyFile : emptyFile.Booked b where
  hunks := fun h => by simp [emptyFile] at h
  deletionLines := rfl
  additionLines := rfl
  splitLineCount := by cases b <;> rfl
  unifiedLineCount := by cases b <;> rfl

/-- 一つの部分を読んでも、file の数は合ったままである。 -/
theorem booked_processSectionIn {state state' : Option FileDiffMetadata × Nat} {part : Text}
    (hs : ∀ f ∈ state.1, f.Booked b) (h : processSectionIn b decimal isGitDiff state part = some state') :
    ∀ f ∈ state'.1, f.Booked b := by
  unfold processSectionIn at h
  split at h
  · rw [← Option.some.inj h]
    exact hs
  · split at h
    · rw [← Option.some.inj h]
      rintro f ⟨⟩
      exact (sameBody_parseFileHeader isGitDiff _ _).booked booked_emptyFile
    · rw [← Option.some.inj h]
      exact hs
    · next file header hfile _ =>
      obtain ⟨r, hr, rfl⟩ := Option.map_eq_some_iff.mp h
      rintro f ⟨⟩
      exact (hs file hfile).parseHunkIn hr

/-- `process_file` の返す file の数は合っている。 -/
theorem booked_processFileIn {fileDiff : Text}
    (h : processFileIn b decimal fileDiff isGitDiff = some (some f)) : f.Booked b := by
  unfold processFileIn at h
  obtain ⟨state, hstate, hf⟩ := Option.map_eq_some_iff.mp h
  obtain ⟨f₀, hf₀, rfl⟩ := Option.map_eq_some_iff.mp hf
  have hall := foldlM_invariant (I := fun state => ∀ f ∈ state.1, FileDiffMetadata.Booked b f)
    (fun hi hs => booked_processSectionIn hi hs) (by rintro f ⟨⟩) hstate
  exact (sameBody_finishFile isGitDiff f₀).booked (hall f₀ hf₀)

/-- patch の file は、`process_file` の返したものである。 -/
theorem exists_processFileIn {data : Text} {patch : ParsedPatch}
    (h : processPatchIn b decimal data = some (some patch)) (hf : f ∈ patch.files) :
    ∃ part isGitDiff, processFileIn b decimal part isGitDiff = some (some f) := by
  unfold processPatchIn at h
  obtain ⟨files, hfiles, hpatch⟩ := Option.map_eq_some_iff.mp h
  cases hpatch
  obtain ⟨part, -, hpart⟩ := exists_of_mem_mapM hfiles (List.reduceOption_mem_iff.mp hf)
  exact ⟨part, _, hpart⟩

theorem exists_processPatchIn {data : Text} {patches : List ParsedPatch} {patch : ParsedPatch}
    (h : parsePatchFilesIn b decimal data = some patches) (hp : patch ∈ patches) :
    ∃ part, processPatchIn b decimal part = some (some patch) := by
  unfold parsePatchFilesIn at h
  obtain ⟨parsed, hparsed, rfl⟩ := Option.map_eq_some_iff.mp h
  obtain ⟨part, -, hpart⟩ := exists_of_mem_mapM hparsed (List.reduceOption_mem_iff.mp hp)
  exact ⟨part, hpart⟩

/-- **読めた patch のどの file でも、hunk の数が合う。** -/
theorem parsed_hunks_booked (b : Build) (decimal : Char → Bool) (data : Text)
    (patches : List ParsedPatch) (h : parsePatchFilesIn b decimal data = some patches) :
    ∀ patch ∈ patches, ∀ f ∈ patch.files, f.Booked b := by
  intro patch hp f hf
  obtain ⟨part, hpart⟩ := exists_processPatchIn h hp
  obtain ⟨fileDiff, isGitDiff, hfile⟩ := exists_processFileIn hpart hf
  exact booked_processFileIn hfile

end file

/-- 二つの hunk を持つ patch。 -/
def twoHunkPatch : Text :=
  "--- a\n+++ a\n@@ -1,2 +1,2 @@\n-x\n+y\n z\n@@ -9 +9 @@\n-p\n+q\n".toList

theorem parsed_hunks_booked_two :
    ((parsePatchFilesIn .checked isAsciiDigit twoHunkPatch).map fun patches =>
        (patches.flatMap (·.files)).flatMap fun f => f.hunks.map fun h => (h.collapsedBefore, h.splitLineStart))
      = some [(0, 0), (6, 8)]
    ∧ ∀ patch ∈ ((parsePatchFilesIn .checked isAsciiDigit twoHunkPatch).getD []),
        ∀ f ∈ patch.files, f.Booked .checked := by
  refine ⟨by decide, ?_⟩
  obtain ⟨patches, hp⟩ : ∃ patches, parsePatchFilesIn .checked isAsciiDigit twoHunkPatch = some patches :=
    Option.isSome_iff_exists.mp (by decide)
  rw [hp]
  exact parsed_hunks_booked .checked isAsciiDigit twoHunkPatch patches hp

end Cassy.Diffs
