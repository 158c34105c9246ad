import Cassy.Properties.HunkBooks

/-!
# 見出しの足し算と畳まれた行

溢れを調べる build は、見出しの数が `headersFit` を満たすときにだけ終わりまで読み、そのとき溢れない足し算と同じものを
返す。`headersFit` は、どの hunk でも始まりと行数の和が `usize` に収まり、畳まれた行と hunk の行を順に足した和も収まる
ことである。

畳まれた行の数は、行の無い hunk の見出しの読み方に掛かる。行数が 0 の側では、見出しの始まりは hunk の最初の行ではなく、
その一つ手前の行である。実装はこれを区別しない。
-/

namespace Cassy.Diffs

open Infra

/-! ## 読んだ行の数 -/

/-- hunk の行である。 -/
def isRow (rawLine : Text) : Bool :=
  match parseLineType (trimLine rawLine) with
  | some (.context, _) | some (.addition, _) | some (.deletion, _) => true
  | _ => false

/-- hunk の行の数。 -/
def rowCount (contentLines : List Text) : Nat := (stripBareNewlines contentLines).countP isRow

/-- 塊が `unified` で占める行数の和。 -/
def unifiedTotal (contents : List HunkContent) : Nat := (contents.map HunkContent.unifiedHeight).sum

section rows

theorem unifiedTotal_eq (contents : List HunkContent) : unifiedTotal contents = weightSum 1 1 1 contents := by
  unfold unifiedTotal weightSum
  congr 2
  funext c
  cases c with
  | context c => exact (Nat.one_mul _).symm
  | change c =>
    simp only [HunkContent.unifiedHeight, HunkContent.weight]
    omega

theorem lineWeight_one (rawLine : Text) :
    lineWeight 1 1 1 ((parseLineType (trimLine rawLine)).map (·.1)) = if isRow rawLine then 1 else 0 := by
  unfold isRow
  match parseLineType (trimLine rawLine) with
  | some (.addition, _) | some (.deletion, _) | some (.context, _) | some (.metadata, _)
  | some (.expanded, _) | none => rfl

/-- 読み終えた hunk の `unified` の行数は、hunk の行の数である。 -/
theorem unifiedTotal_readHunkLines (f : FileDiffMetadata) (contentLines : List Text) :
    unifiedTotal (readHunkLines f contentLines).contents = rowCount contentLines := by
  rw [unifiedTotal_eq, weightSum_readHunkLines, rowCount, ← sum_map_ite]
  simp only [lineWeight_one]

/-- `split` の行数は `unified` の行数を越えない。 -/
theorem splitTotal_le : ∀ contents : List HunkContent,
    (contents.map HunkContent.splitHeight).sum ≤ unifiedTotal contents
  | [] => Nat.le_refl _
  | c :: contents => by
    have hc : c.splitHeight ≤ c.unifiedHeight := by
      cases c with
      | context c => exact Nat.le_refl _
      | change c =>
        simp only [HunkContent.splitHeight, HunkContent.unifiedHeight]
        omega
    have := splitTotal_le contents
    simp only [unifiedTotal, List.map_cons, List.sum_cons] at this ⊢
    omega

end rows

/-! ## 溢れを調べる build -/

/-- 見出しと、その hunk の行。 -/
abbrev HunkPart := HunkHeader × List Text

namespace HunkPart

/-- hunk の前の、畳まれた行の数。 -/
def gap (hunkEnd : Nat) (h : HunkPart) : Nat := h.1.additionStartNumber - 1 - hunkEnd

/-- hunk の終わり。 -/
def lineEnd (h : HunkPart) : Nat := h.1.additionStartNumber + h.1.additionCountNumber - 1

/-- 一つの hunk の足し算が収まる。 -/
def fits (hunkEnd total : Nat) (h : HunkPart) : Bool :=
  decide (h.1.additionStartNumber + h.1.additionCountNumber ≤ usizeMax)
    && decide (total + (h.gap hunkEnd + rowCount h.2) ≤ usizeMax)

end HunkPart

/-- どの hunk の足し算も収まる。 -/
def headersFit : Nat → Nat → List HunkPart → Bool
  | _, _, [] => true
  | hunkEnd, total, h :: rest =>
    h.fits hunkEnd total && headersFit h.lineEnd (total + (h.gap hunkEnd + rowCount h.2)) rest

section checked

variable (decimal : Char → Bool)

/-- 部分のうち、hunk として読まれるもの。最初の空でない部分は file の見出しである。 -/
def hunkParts : Bool → List Text → List HunkPart
  | _, [] => []
  | started, part :: parts =>
    match splitWithNewlines part with
    | [] => hunkParts started parts
    | first :: rest =>
      if started then
        match hunkHeader decimal (trimLine first) with
        | none => hunkParts true parts
        | some header => (header, rest) :: hunkParts true parts
      else hunkParts true parts

/-- file の見出しの数が収まる。 -/
def fileFits (fileDiff : Text) : Bool :=
  headersFit 0 0 (hunkParts decimal false (splitAtMatches hunkSplit fileDiff))

/-- 一つの commit の file の見出しの数が収まる。 -/
def patchFits (data : Text) : Bool :=
  let fileBreak := if isMatch gitDiffFileBreak data then gitDiffFileBreak else unifiedDiffFileBreak
  ((splitAtMatches fileBreak data).filter (isMatch fileBreak)).all (fileFits decimal)

/-- patch の見出しの数が収まる。 -/
def headerArithmeticFits (data : Text) : Bool :=
  (splitAtMatches commitMetadataSplit data).all (patchFits decimal)

variable {decimal} {f : FileDiffMetadata} {hunkEnd : Nat} {firstLine : Text} {header : HunkHeader}
  {contentLines : List Text} {isGitDiff : Bool}

theorem checked_add {a b : Nat} (h : a + b ≤ usizeMax) : Build.checked.add a b = some (a + b) := if_pos h

theorem fits_iff {total : Nat} :
    HunkPart.fits hunkEnd total (header, contentLines) = true ↔
      header.additionStartNumber + header.additionCountNumber ≤ usizeMax
        ∧ total + (header.additionStartNumber - 1 - hunkEnd + rowCount contentLines) ≤ usizeMax := by
  unfold HunkPart.fits HunkPart.gap
  rw [Bool.and_eq_true, decide_eq_true_eq, decide_eq_true_eq]

/-- 一つの hunk は、足し算が収まるときにだけ読め、そのとき溢れない足し算と同じものになる。 -/
theorem parseHunkIn_checked (hf : f.splitLineCount ≤ f.unifiedLineCount) :
    parseHunkIn .checked f hunkEnd firstLine header contentLines
      = if HunkPart.fits hunkEnd f.unifiedLineCount (header, contentLines) then
          some (parseHunk f hunkEnd firstLine header contentLines)
        else none := by
  have hunified : (computeHunkLineCounts ((readHunkLines f contentLines).hunkContent
      ++ (readHunkLines f contentLines).current.toList)).2 = rowCount contentLines :=
    unifiedTotal_readHunkLines f contentLines
  have hsplit : (computeHunkLineCounts ((readHunkLines f contentLines).hunkContent
      ++ (readHunkLines f contentLines).current.toList)).1 ≤ rowCount contentLines := by
    rw [← hunified]
    exact splitTotal_le _
  by_cases hfits : HunkPart.fits hunkEnd f.unifiedLineCount (header, contentLines) = true
  · rw [if_pos hfits]
    obtain ⟨hend, htotal⟩ := fits_iff.mp hfits
    unfold parseHunkIn
    simp only [hunified, bind]
    rw [checked_add (by omega), Option.bind_some, checked_add (by omega), Option.bind_some,
      checked_add (by omega), Option.bind_some, checked_add (by omega), Option.bind_some,
      checked_add (by omega), Option.bind_some, checked_add htotal, Option.bind_some,
      checked_add hend, Option.bind_some]
    simp only [parseHunk, ← hunified]
    rfl
  · rw [if_neg hfits, Option.eq_none_iff_forall_ne_some]
    rintro ⟨f', e⟩ h
    obtain ⟨hunk, ha⟩ := appended_of_parseHunkIn h
    apply hfits
    have hcount : hunk.unifiedLineCount = rowCount contentLines := by
      rw [(Prod.mk.inj ha.counts).2, ha.hunkContent]
      exact unifiedTotal_readHunkLines f contentLines
    obtain ⟨m, hm, hm'⟩ := ha.unifiedLineCount
    obtain ⟨k, hk, -⟩ := ha.hunkEnd
    simp only [Build.add, Option.ite_none_right_eq_some, Option.some.injEq] at hm hm' hk
    rw [ha.collapsedBefore, hcount] at hm
    exact fits_iff.mpr ⟨hk.1, by omega⟩

theorem parseHunk_counts (f : FileDiffMetadata) (hunkEnd : Nat) (firstLine : Text) (header : HunkHeader)
    (contentLines : List Text) :
    let r := parseHunk f hunkEnd firstLine header contentLines
    r.1.unifiedLineCount
        = f.unifiedLineCount + (HunkPart.gap hunkEnd (header, contentLines) + rowCount contentLines)
      ∧ r.1.splitLineCount
        ≤ f.splitLineCount + (HunkPart.gap hunkEnd (header, contentLines) + rowCount contentLines)
      ∧ r.2 = HunkPart.lineEnd (header, contentLines) := by
  have hunified : (computeHunkLineCounts ((readHunkLines f contentLines).hunkContent
      ++ (readHunkLines f contentLines).current.toList)).2 = rowCount contentLines :=
    unifiedTotal_readHunkLines f contentLines
  have hsplit : (computeHunkLineCounts ((readHunkLines f contentLines).hunkContent
      ++ (readHunkLines f contentLines).current.toList)).1 ≤ rowCount contentLines := by
    rw [← hunified]
    exact splitTotal_le _
  refine ⟨?_, ?_, rfl⟩
  · rw [← hunified]
    rfl
  · show f.splitLineCount + (_ + _) ≤ _
    refine Nat.add_le_add_left (Nat.add_le_add_left ?_ _) _
    exact hsplit

/-- 読み始めた後の部分を順に読む。 -/
theorem foldlM_started : ∀ (parts : List Text) {f : FileDiffMetadata} {hunkEnd : Nat},
    f.splitLineCount ≤ f.unifiedLineCount →
    parts.foldlM (processSectionIn .checked decimal isGitDiff) (some f, hunkEnd)
      = if headersFit hunkEnd f.unifiedLineCount (hunkParts decimal true parts) then
          some (parts.foldl (processSection decimal isGitDiff) (some f, hunkEnd))
        else none
  | [], f, hunkEnd, _ => rfl
  | part :: parts, f, hunkEnd, hf => by
    rw [List.foldlM_cons, List.foldl_cons]
    cases hlines : splitWithNewlines part with
    | nil =>
      have hstep : processSectionIn .checked decimal isGitDiff (some f, hunkEnd) part
          = some (some f, hunkEnd) := by rw [processSectionIn, hlines]
      have hstep' : processSection decimal isGitDiff (some f, hunkEnd) part = (some f, hunkEnd) := by
        rw [processSection, hlines]
      rw [hstep, hstep', hunkParts, hlines]
      exact foldlM_started parts hf
    | cons first rest =>
      cases hheader : hunkHeader decimal (trimLine first) with
      | none =>
        have hstep : processSectionIn .checked decimal isGitDiff (some f, hunkEnd) part
            = some (some f, hunkEnd) := by
          rw [processSectionIn, hlines]
          dsimp only
          rw [hheader]
        have hstep' : processSection decimal isGitDiff (some f, hunkEnd) part = (some f, hunkEnd) := by
          rw [processSection, hlines]
          dsimp only
          rw [hheader]
        have hparts : hunkParts decimal true (part :: parts) = hunkParts decimal true parts := by
          rw [hunkParts, hlines]
          simp [hheader]
        rw [hstep, hstep', hparts]
        exact foldlM_started parts hf
      | some header =>
        have hstep : processSectionIn .checked decimal isGitDiff (some f, hunkEnd) part
            = (parseHunkIn .checked f hunkEnd (trimLine first) header rest).map fun r => (some r.1, r.2) := by
          rw [processSectionIn, hlines]
          dsimp only
          rw [hheader]
        have hstep' : processSection decimal isGitDiff (some f, hunkEnd) part
            = (some (parseHunk f hunkEnd (trimLine first) header rest).1,
              (parseHunk f hunkEnd (trimLine first) header rest).2) := by
          rw [processSection, hlines]
          dsimp only
          rw [hheader]
        obtain ⟨hunified, hsplit, hend⟩ := parseHunk_counts f hunkEnd (trimLine first) header rest
        have hparts : hunkParts decimal true (part :: parts)
            = (header, rest) :: hunkParts decimal true parts := by
          rw [hunkParts, hlines]
          simp [hheader]
        rw [hstep, hstep', hparts, parseHunkIn_checked hf, headersFit]
        by_cases hfits : HunkPart.fits hunkEnd f.unifiedLineCount (header, rest) = true
        · rw [if_pos hfits, hfits, Bool.true_and]
          show List.foldlM _ _ _ = _
          rw [foldlM_started parts (by rw [hunified]; exact hsplit.trans (Nat.add_le_add_right hf _)),
            hunified, hend]
        · rw [if_neg hfits, Bool.eq_false_iff.mpr hfits, Bool.false_and]
          rfl

/-- file を読み始める前の部分を順に読む。 -/
theorem foldlM_checked : ∀ parts : List Text,
    parts.foldlM (processSectionIn .checked decimal isGitDiff) (none, 0)
      = if headersFit 0 0 (hunkParts decimal false parts) then
          some (parts.foldl (processSection decimal isGitDiff) (none, 0))
        else none
  | [] => rfl
  | part :: parts => by
    rw [List.foldlM_cons, List.foldl_cons]
    cases hlines : splitWithNewlines part with
    | nil =>
      have hstep : processSectionIn .checked decimal isGitDiff (none, 0) part = some (none, 0) := by
        rw [processSectionIn, hlines]
      have hstep' : processSection decimal isGitDiff (none, 0) part = (none, 0) := by
        rw [processSection, hlines]
      rw [hstep, hstep', hunkParts, hlines]
      exact foldlM_checked parts
    | cons first rest =>
      have hstep : processSectionIn .checked decimal isGitDiff (none, 0) part
          = some (some (parseFileHeader emptyFile (first :: rest) isGitDiff), 0) := by
        rw [processSectionIn, hlines]
      have hstep' : processSection decimal isGitDiff (none, 0) part
          = (some (parseFileHeader emptyFile (first :: rest) isGitDiff), 0) := by
        rw [processSection, hlines]
      have hbody := sameBody_parseFileHeader isGitDiff (first :: rest) emptyFile
      have hunified : (parseFileHeader emptyFile (first :: rest) isGitDiff).unifiedLineCount = 0 :=
        hbody.unifiedLineCount
      have hparts : hunkParts decimal false (part :: parts) = hunkParts decimal true parts := by
        rw [hunkParts, hlines]
        rfl
      rw [hstep, hstep', hparts]
      show List.foldlM _ _ _ = _
      rw [foldlM_started parts (by rw [hbody.splitLineCount, hunified]; exact Nat.le_refl _), hunified]

theorem processFileIn_checked (fileDiff : Text) (isGitDiff : Bool) :
    processFileIn .checked decimal fileDiff isGitDiff
      = if fileFits decimal fileDiff then some (processFile decimal fileDiff isGitDiff) else none := by
  unfold processFileIn fileFits processFile
  rw [foldlM_checked]
  split <;> rfl

theorem reduceOption_map {α β : Type} (f : α → Option β) (l : List α) :
    (l.map f).reduceOption = l.filterMap f := by
  unfold List.reduceOption
  rw [List.filterMap_map]
  rfl

theorem processPatchIn_checked (data : Text) :
    processPatchIn .checked decimal data
      = if patchFits decimal data then some (processPatch decimal data) else none := by
  simp only [processPatchIn, processFileIn_checked, mapM_ite]
  have hall : ((splitAtMatches
      (if isMatch gitDiffFileBreak data then gitDiffFileBreak else unifiedDiffFileBreak) data).filter
        (isMatch (if isMatch gitDiffFileBreak data then gitDiffFileBreak else unifiedDiffFileBreak))).all
      (fileFits decimal) = patchFits decimal data := rfl
  by_cases hfits : patchFits decimal data = true
  · rw [if_pos hfits, if_pos (hall.trans hfits), Option.map_some, reduceOption_map]
    rfl
  · have hnot := fun h => hfits (hall.symm.trans h)
    rw [if_neg hfits, if_neg hnot, Option.map_none]

/-- 溢れを調べる build は、見出しの数が収まるときにだけ終わりまで読み、溢れない足し算と同じものを返す。 -/
theorem parsePatchFilesIn_checked (data : Text) :
    parsePatchFilesIn .checked decimal data
      = if headerArithmeticFits decimal data then some (parsePatchFiles decimal data) else none := by
  unfold parsePatchFilesIn headerArithmeticFits parsePatchFiles
  rw [show processPatchIn .checked decimal
      = fun data => if patchFits decimal data then some (processPatch decimal data) else none from
    funext processPatchIn_checked, mapM_ite]
  split
  · rw [Option.map_some, reduceOption_map]
  · rfl

/-- **見出しの足し算は、見出しの数が収まるときにだけ溢れない。** -/
theorem header_arithmetic_safe_iff (decimal : Char → Bool) (data : Text) :
    (parsePatchFilesIn .checked decimal data).isSome = true ↔ headerArithmeticFits decimal data = true := by
  rw [parsePatchFilesIn_checked]
  split
  · next h => simp [h]
  · next h => simp [h]

end checked

/-- 始まりに行数を足すと溢れる見出し。 -/
theorem huge_start_overflows :
    parsePatchFilesIn .checked isAsciiDigit
      "--- a\n+++ b\n@@ -1 +18446744073709551615 @@\n+x\n".toList = none := by
  decide

/-! ## 畳まれた行 -/

/-- 見出しの、新しい側の始まりと行数。 -/
structure NewSide where
  start : Nat
  count : Nat
  deriving DecidableEq, Repr

/-- 見出しの新しい側。 -/
def HunkHeader.newSide (header : HunkHeader) : NewSide :=
  ⟨header.additionStartNumber, header.additionCountNumber⟩

/-- hunk の見出しの新しい側。 -/
def Hunk.newSide (h : Hunk) : NewSide := ⟨h.additionStart, h.additionCount⟩

namespace NewSide

/-- hunk の手前の行。行の無い hunk の始まりは、最初の行ではなく手前の行である。 -/
def lineBefore (x : NewSide) : Nat := if x.count = 0 then x.start else x.start - 1

/-- hunk の最後の行。行の無い hunk では、手前の行である。 -/
def lastLine (x : NewSide) : Nat := x.lineBefore + x.count

/-- 前の hunk の最後の行。前の hunk が無ければ、file の始まりである。 -/
def lastLineOf (prev : Option NewSide) : Nat := (prev.map lastLine).getD 0

/-- 実装の覚えている、前の hunk の終わり。 -/
def codeEnd (prev : Option NewSide) : Nat := (prev.map fun p => p.start + p.count - 1).getD 0

/-- 前の hunk より後にあり、行番号が 1 から始まって `usize` に収まる。 -/
def follows (prev : Option NewSide) (x : NewSide) : Bool :=
  decide (x.start + x.count ≤ usizeMax) && (x.count == 0 || decide (1 ≤ x.start))
    && decide (lastLineOf prev ≤ x.lineBefore)

/-- 実装の数え方が、畳まれた行の数になる。 -/
def gapCounted (prev : Option NewSide) (x : NewSide) : Bool :=
  match prev with
  | none => x.count != 0 || x.start == 0
  | some p =>
    if x.count = 0 then
      if p.count = 0 then p.start != 0 || x.start == 0 else x.start == p.lastLine
    else p.count != 0 || p.start == 0

/-- hunk が順に並び、重ならない。 -/
def ordered : Option NewSide → List NewSide → Bool
  | _, [] => true
  | prev, x :: rest => x.follows prev && ordered (some x) rest

/-- どの hunk でも、実装の数え方が畳まれた行の数になる。 -/
def gapsCounted : Option NewSide → List NewSide → Bool
  | _, [] => true
  | prev, x :: rest => x.gapCounted prev && gapsCounted (some x) rest

/-- 前の hunk との間の、変わっていない行の数。 -/
def unchangedGaps : Option NewSide → List NewSide → List Nat
  | _, [] => []
  | prev, x :: rest => (x.lineBefore - lastLineOf prev) :: unchangedGaps (some x) rest

/-- 実装の数える、畳まれた行の数。 -/
def codeGaps : Option NewSide → List NewSide → List Nat
  | _, [] => []
  | prev, x :: rest => (x.start - 1 - codeEnd prev) :: codeGaps (some x) rest

theorem codeGaps_concat (x : NewSide) : ∀ (prev : Option NewSide) (sides : List NewSide),
    codeGaps prev (sides ++ [x])
      = codeGaps prev sides ++ [x.start - 1 - codeEnd (sides.getLast?.or prev)]
  | _, [] => rfl
  | _, y :: sides => by
    have hlast : (y :: sides).getLast?.or none = sides.getLast?.or (some y) := by
      cases sides with
      | nil => rfl
      | cons z sides => simp [List.getLast?_cons]
    rw [List.cons_append, codeGaps, codeGaps_concat x (some y) sides, codeGaps, ← hlast]
    simp [List.getLast?_cons]

variable {prev : Option NewSide} {x p : NewSide}

theorem follows_iff : x.follows prev = true ↔
    x.start + x.count ≤ usizeMax ∧ (x.count = 0 ∨ 1 ≤ x.start) ∧ lastLineOf prev ≤ x.lineBefore := by
  unfold follows
  rw [Bool.and_eq_true, Bool.and_eq_true, Bool.or_eq_true, decide_eq_true_eq, decide_eq_true_eq,
    decide_eq_true_eq, beq_iff_eq, and_assoc]

theorem fits_of_ordered : ∀ {prev : Option NewSide} {sides : List NewSide},
    ordered prev sides = true → ∀ x ∈ sides, x.start + x.count ≤ usizeMax
  | _, [], _, x, hx => by cases hx
  | _, y :: sides, h, x, hx => by
    obtain ⟨hy, hrest⟩ := (Bool.and_eq_true _ _).mp h
    cases hx with
    | head => exact (follows_iff.mp hy).1
    | tail _ hx => exact fits_of_ordered hrest x hx

/-- 一つの hunk の前の、畳まれた行の数。 -/
theorem codeGap_eq_iff (hx : x.follows prev = true) (hprev : ∀ p ∈ prev, p.count = 0 ∨ 1 ≤ p.start) :
    x.start - 1 - codeEnd prev = x.lineBefore - lastLineOf prev ↔ x.gapCounted prev = true := by
  obtain ⟨-, hpos, hafter⟩ := follows_iff.mp hx
  cases prev with
  | none =>
    by_cases hc : x.count = 0
    · simp [codeEnd, lastLineOf, lineBefore, gapCounted, hc]
      omega
    · simp [codeEnd, lastLineOf, lineBefore, gapCounted, hc]
  | some p =>
    have hp := hprev p rfl
    simp only [codeEnd, lastLineOf, lastLine, lineBefore, gapCounted, Option.map_some,
      Option.getD_some] at hafter ⊢
    by_cases hc : x.count = 0
    · by_cases hpc : p.count = 0
      · simp [hc, hpc] at hafter ⊢
        omega
      · simp [hc, hpc] at hp hafter ⊢
        omega
    · by_cases hpc : p.count = 0
      · simp [hc, hpc] at hpos hafter ⊢
        omega
      · simp [hc, hpc] at hpos hp hafter ⊢
        omega

/-- 順に並んだ hunk の畳まれた行の数。 -/
theorem codeGaps_eq_iff : ∀ {prev : Option NewSide} {sides : List NewSide},
    (∀ p ∈ prev, p.count = 0 ∨ 1 ≤ p.start) → ordered prev sides = true →
      (codeGaps prev sides = unchangedGaps prev sides ↔ gapsCounted prev sides = true)
  | _, [], _, _ => by simp [codeGaps, unchangedGaps, gapsCounted]
  | prev, x :: sides, hprev, h => by
    obtain ⟨hx, hrest⟩ := (Bool.and_eq_true _ _).mp h
    have hpos : ∀ p ∈ some x, p.count = 0 ∨ 1 ≤ p.start := by
      rintro p ⟨⟩
      exact (follows_iff.mp hx).2.1
    rw [codeGaps, unchangedGaps, gapsCounted, List.cons.injEq, Bool.and_eq_true,
      codeGap_eq_iff hx hprev, codeGaps_eq_iff hpos hrest]

end NewSide

open NewSide

section collapsed

variable {b : Build} {decimal : Char → Bool} {isGitDiff : Bool} {f f' : FileDiffMetadata}
  {hunkEnd hunkEnd' : Nat} {firstLine : Text} {header : HunkHeader} {contentLines : List Text}
  {sides : List NewSide}

/-- file の見出しの新しい側。 -/
def fileSides (decimal : Char → Bool) (fileDiff : Text) : List NewSide :=
  (hunkParts decimal false (splitAtMatches hunkSplit fileDiff)).map fun part => part.1.newSide

/-- 一つの commit の、file の text。 -/
def patchFileDiffs (data : Text) : List Text :=
  let fileBreak := if isMatch gitDiffFileBreak data then gitDiffFileBreak else unifiedDiffFileBreak
  (splitAtMatches fileBreak data).filter (isMatch fileBreak)

/-- patch の、file の text。 -/
def fileDiffs (data : Text) : List Text := (splitAtMatches commitMetadataSplit data).flatMap patchFileDiffs

/-- 読み進めている間、畳まれた行の数は、それまでの見出しで決まる。 -/
structure GapsRead (sides : List NewSide) (f : FileDiffMetadata) (hunkEnd : Nat) : Prop where
  newSides : f.hunks.map Hunk.newSide = sides
  gaps : (∀ x ∈ sides, x.start + x.count ≤ usizeMax) →
    f.hunks.map Hunk.collapsedBefore = codeGaps none sides
  hunkEnd : (∀ x ∈ sides, x.start + x.count ≤ usizeMax) → hunkEnd = codeEnd sides.getLast?

theorem Build.add_of_le {x y z : Nat} (h : b.add x y = some z) (hle : x + y ≤ usizeMax) : z = x + y := by
  have hz := Build.sums_add h
  cases b with
  | checked => exact hz
  | wrapping =>
    unfold usizeMax at hle
    exact hz.trans (Nat.mod_eq_of_lt (by omega))

theorem GapsRead.parseHunkIn (hg : GapsRead sides f hunkEnd)
    (h : parseHunkIn b f hunkEnd firstLine header contentLines = some (f', hunkEnd')) :
    GapsRead (sides ++ [header.newSide]) f' hunkEnd' := by
  obtain ⟨hunk, ha⟩ := appended_of_parseHunkIn h
  have hside : hunk.newSide = header.newSide := by
    rw [Hunk.newSide, ha.additionStart, ha.additionCount]
    rfl
  refine ⟨?_, fun hfit => ?_, fun hfit => ?_⟩
  · rw [ha.hunks, List.map_append, hg.newSides, List.map_singleton, hside]
  · have hold := fun x hx => hfit x (List.mem_append_left _ hx)
    rw [ha.hunks, List.map_append, hg.gaps hold, codeGaps_concat, Option.or_none, List.map_singleton,
      ha.collapsedBefore, hg.hunkEnd hold]
    rfl
  · obtain ⟨k, hk, rfl⟩ := ha.hunkEnd
    rw [Build.add_of_le hk (hfit header.newSide (by simp)), List.getLast?_concat]
    rfl

theorem SameBody.gapsRead (h : SameBody f f') (hg : GapsRead sides f hunkEnd) :
    GapsRead sides f' hunkEnd := by
  obtain ⟨hsides, hgaps, hend⟩ := hg
  rw [← h.hunks] at hsides hgaps
  exact ⟨hsides, hgaps, hend⟩

/-- 読み始めた後の部分を順に読む。 -/
theorem gapsRead_foldlM : ∀ (parts : List Text) {sides : List NewSide} {f : FileDiffMetadata}
    {hunkEnd : Nat} {state : Option FileDiffMetadata × Nat}, GapsRead sides f hunkEnd →
    parts.foldlM (processSectionIn b decimal isGitDiff) (some f, hunkEnd) = some state →
    ∃ f', state.1 = some f' ∧
      GapsRead (sides ++ (hunkParts decimal true parts).map fun part => part.1.newSide) f' state.2
  | [], sides, f, hunkEnd, state, hg, h => by
    cases Option.some.inj h
    refine ⟨f, rfl, ?_⟩
    simpa [hunkParts] using hg
  | part :: parts, sides, f, hunkEnd, state, hg, h => by
    rw [List.foldlM_cons, Option.bind_eq_bind, Option.bind_eq_some_iff] at h
    obtain ⟨next, hnext, h⟩ := h
    unfold processSectionIn at hnext
    unfold hunkParts
    cases hlines : splitWithNewlines part with
    | nil =>
      rw [hlines] at hnext
      cases Option.some.inj hnext
      exact gapsRead_foldlM parts hg h
    | cons first rest =>
      rw [hlines] at hnext
      dsimp only at hnext ⊢
      cases hheader : hunkHeader decimal (trimLine first) with
      | none =>
        rw [hheader] at hnext
        cases Option.some.inj hnext
        exact gapsRead_foldlM parts hg h
      | some header =>
        rw [hheader] at hnext
        obtain ⟨r, hr, rfl⟩ := Option.map_eq_some_iff.mp hnext
        obtain ⟨f', hf', hg'⟩ := gapsRead_foldlM parts (hg.parseHunkIn hr) h
        rw [List.append_assoc] at hg'
        exact ⟨f', hf', hg'⟩

/-- 読み終えた file。見出しが一つも読まれなければ、file は無い。 -/
theorem gapsRead_processFileIn {fileDiff : Text} {result : Option FileDiffMetadata}
    (h : processFileIn b decimal fileDiff isGitDiff = some result) :
    (result = none → fileSides decimal fileDiff = []) ∧
      ∀ f ∈ result, ∃ hunkEnd, GapsRead (fileSides decimal fileDiff) f hunkEnd := by
  unfold processFileIn at h
  obtain ⟨state, hstate, rfl⟩ := Option.map_eq_some_iff.mp h
  have hfold : ∀ parts : List Text, ∀ state,
      parts.foldlM (processSectionIn b decimal isGitDiff) (none, 0) = some state →
      (state.1 = none ∧ (hunkParts decimal false parts).map (fun part => part.1.newSide) = []) ∨
        ∃ f, state.1 = some f ∧
          GapsRead ((hunkParts decimal false parts).map fun part => part.1.newSide) f state.2 := by
    intro parts
    induction parts with
    | nil =>
      intro state h
      cases Option.some.inj h
      exact .inl ⟨rfl, rfl⟩
    | cons part parts ih =>
      intro state h
      rw [List.foldlM_cons, Option.bind_eq_bind, Option.bind_eq_some_iff] at h
      obtain ⟨next, hnext, h⟩ := h
      unfold processSectionIn at hnext
      unfold hunkParts
      cases hlines : splitWithNewlines part with
      | nil =>
        rw [hlines] at hnext
        cases Option.some.inj hnext
        exact ih state h
      | cons first rest =>
        rw [hlines] at hnext
        cases Option.some.inj hnext
        have hstart : GapsRead [] (parseFileHeader emptyFile (first :: rest) isGitDiff) 0 :=
          (sameBody_parseFileHeader isGitDiff _ _).gapsRead ⟨rfl, fun _ => rfl, fun _ => rfl⟩
        exact .inr (gapsRead_foldlM parts hstart h)
  obtain ⟨hnone, hsides⟩ | ⟨f, hf, hg⟩ := hfold _ state hstate
  · rw [hnone]
    refine ⟨fun _ => hsides, ?_⟩
    rintro f ⟨⟩
  · rw [hf]
    refine ⟨fun h => (by cases h), ?_⟩
    rintro _ ⟨⟩
    exact ⟨state.2, (sameBody_finishFile isGitDiff f).gapsRead hg⟩

/-- 読めた file は、ある file の text から来る。 -/
theorem exists_fileDiff {data : Text} {patches : List ParsedPatch} {patch : ParsedPatch}
    (h : parsePatchFilesIn b decimal data = some patches) (hp : patch ∈ patches) (hf : f ∈ patch.files) :
    ∃ fileDiff ∈ fileDiffs data, ∃ isGitDiff,
      processFileIn b decimal fileDiff isGitDiff = some (some f) := by
  unfold parsePatchFilesIn at h
  obtain ⟨parsed, hparsed, rfl⟩ := Option.map_eq_some_iff.mp h
  obtain ⟨part, hpart, hpatch⟩ := exists_of_mem_mapM hparsed (List.reduceOption_mem_iff.mp hp)
  unfold processPatchIn at hpatch
  obtain ⟨files, hfiles, hpatch⟩ := Option.map_eq_some_iff.mp hpatch
  cases hpatch
  obtain ⟨fileDiff, hmem, hfile⟩ := exists_of_mem_mapM hfiles (List.reduceOption_mem_iff.mp hf)
  exact ⟨fileDiff, List.mem_flatMap.mpr ⟨part, hpart, hmem⟩, _, hfile⟩

/-- どの file の text も読まれ、読めた file は結果に入る。 -/
theorem fileDiff_read {data : Text} {patches : List ParsedPatch} {fileDiff : Text}
    (h : parsePatchFilesIn b decimal data = some patches) (hmem : fileDiff ∈ fileDiffs data) :
    ∃ isGitDiff result, processFileIn b decimal fileDiff isGitDiff = some result ∧
      ∀ f ∈ result, ∃ patch ∈ patches, f ∈ patch.files := by
  unfold parsePatchFilesIn at h
  obtain ⟨parsed, hparsed, rfl⟩ := Option.map_eq_some_iff.mp h
  obtain ⟨part, hpart, hmem⟩ := List.mem_flatMap.mp hmem
  obtain ⟨patch, hpatch, hprocess⟩ := exists_mem_of_mapM hparsed hpart
  unfold processPatchIn at hprocess
  obtain ⟨files, hfiles, hprocess⟩ := Option.map_eq_some_iff.mp hprocess
  obtain ⟨result, hresult, hfile⟩ := exists_mem_of_mapM hfiles hmem
  refine ⟨_, result, hfile, ?_⟩
  rintro f ⟨⟩
  cases hprocess
  exact ⟨_, List.reduceOption_mem_iff.mpr hpatch, List.reduceOption_mem_iff.mpr hresult⟩

/-- 一つの file の、畳まれた行の数。 -/
theorem collapsed_processFileIn {fileDiff : Text}
    (h : processFileIn b decimal fileDiff isGitDiff = some (some f))
    (ho : ordered none (fileSides decimal fileDiff) = true) :
    f.hunks.map Hunk.collapsedBefore = unchangedGaps none (f.hunks.map Hunk.newSide)
      ↔ gapsCounted none (fileSides decimal fileDiff) = true := by
  obtain ⟨-, hfile⟩ := gapsRead_processFileIn h
  obtain ⟨hunkEnd, hg⟩ := hfile f rfl
  rw [hg.newSides, hg.gaps (fits_of_ordered ho)]
  exact codeGaps_eq_iff (by rintro p ⟨⟩) ho

/--
**順に並んだ hunk の畳まれた行の数は、行の無い hunk の前後で狂う。**

`unchangedGaps` は、見出しの表す範囲の間の、変わっていない行の数である。
-/
theorem collapsed_lines_iff (b : Build) (decimal : Char → Bool) (data : Text)
    (patches : List ParsedPatch) (h : parsePatchFilesIn b decimal data = some patches)
    (ho : ∀ fileDiff ∈ fileDiffs data, ordered none (fileSides decimal fileDiff) = true) :
    (∀ patch ∈ patches, ∀ f ∈ patch.files,
        f.hunks.map Hunk.collapsedBefore = unchangedGaps none (f.hunks.map Hunk.newSide))
      ↔ ∀ fileDiff ∈ fileDiffs data, gapsCounted none (fileSides decimal fileDiff) = true := by
  constructor
  · intro hall fileDiff hmem
    obtain ⟨isGitDiff, result, hresult, hpatch⟩ := fileDiff_read h hmem
    cases hcase : result with
    | none =>
      rw [(gapsRead_processFileIn hresult).1 hcase]
      rfl
    | some f =>
      rw [hcase] at hresult hpatch
      obtain ⟨patch, hp, hf⟩ := hpatch f rfl
      exact (collapsed_processFileIn hresult (ho fileDiff hmem)).mp (hall patch hp f hf)
  · intro hall patch hp f hf
    obtain ⟨fileDiff, hmem, isGitDiff, hfile⟩ := exists_fileDiff h hp hf
    exact (collapsed_processFileIn hfile (ho fileDiff hmem)).mpr (hall fileDiff hmem)

/-- 二つの hunk が三行の変わっていない行を挟む patch。 -/
def gapPatch : Text :=
  "--- a\n+++ b\n@@ -1,2 +1,3 @@\n x\n+y\n z\n@@ -6 +7 @@\n-p\n+q\n".toList

theorem collapsed_lines_gapPatch :
    (parsePatchFiles isAsciiDigit gapPatch).map (fun patch => patch.files.length) = [1]
      ∧ ∀ patch ∈ parsePatchFiles isAsciiDigit gapPatch, ∀ f ∈ patch.files,
        f.hunks.map Hunk.collapsedBefore = unchangedGaps none (f.hunks.map Hunk.newSide) :=
  ⟨by decide, (collapsed_lines_iff .checked isAsciiDigit gapPatch _ (by decide) (by decide)).mpr
    (by decide)⟩

/-- 三行目を消す `-U0` の patch では、手前の二行が一行と数えられる。 -/
theorem deletion_gap_lost :
    ((parsePatchFiles isAsciiDigit "--- a\n+++ b\n@@ -3 +2,0 @@\n-x\n".toList).flatMap fun patch =>
        patch.files.flatMap fun f => f.hunks.map fun h => (h.newSide, h.collapsedBefore))
      = [(⟨2, 0⟩, 1)]
      ∧ unchangedGaps none [⟨2, 0⟩] = [2] := by
  decide

end collapsed

end Cassy.Diffs
