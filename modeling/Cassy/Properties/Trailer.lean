import Cassy.Diffs.Mail
import Cassy.Properties.HunkBooks
import Cassy.Properties.PatchRead

/-!
# mail の終わり

`git format-patch` の mail は `-- ` の行で終わる。hunk の行を読む loop は見出しの数で止まらず、行の種類を先頭の文字で
決めるので、最後の hunk の後に続く `-- ` の行は消された行に数えられる。

mail の列を切り分けると、file ごとの hunk の行がそのまま得られ、最後の file の最後の hunk にだけ `-- ` の行と署名が付く。
そこで、hunk の行数が見出しと合うのは、どの mail の最後の file にも hunk が無いときである。
-/

namespace Cassy.Diffs

open Infra

/-! ## 行の種類 -/

/-- 行の種類は、先頭の文字だけで決まる。 -/
theorem lineKind_cons (c : Char) (t : Text) :
    lineKind (c :: t) = if c = ' ' then some .context else if c = '+' then some .addition
      else if c = '-' then some .deletion else if c = '\\' then some .metadata else none := by
  by_cases hspace : c = ' '
  · subst hspace
    rfl
  by_cases hplus : c = '+'
  · subst hplus
    rfl
  by_cases hminus : c = '-'
  · subst hminus
    rfl
  by_cases hback : c = '\\'
  · subst hback
    rfl
  rw [if_neg hspace, if_neg hplus, if_neg hminus, if_neg hback]
  unfold lineKind parseLineType
  split
  · next h => exact absurd (List.cons.inj h).1 hspace
  · next h => exact absurd (List.cons.inj h).1 hplus
  · next h => exact absurd (List.cons.inj h).1 hminus
  · next h => exact absurd (List.cons.inj h).1 hback
  · rfl

/-- 行末の改行と復帰を落としても、行の種類は変わらない。 -/
theorem lineKind_trimLine {l : Text} (hl : '\n' ∉ l) :
    lineKind (trimLine (l ++ ['\n'])) = lineKind l := by
  have hnewline : trimEndMatches (· == '\n') (l ++ ['\n']) = l := by
    have hstep : trimEndMatches (· == '\n') (l ++ ['\n']) = trimEndMatches (· == '\n') l := by
      simp [trimEndMatches]
    rw [hstep]
    refine reverse_dropWhile_of_not fun c hc => ?_
    have hne : c ≠ '\n' := fun he => hl (he ▸ hc)
    simpa using hne
  rw [trimLine, hnewline]
  -- 落ちるのは行末の復帰だけなので、先頭の文字は変わらない。
  have ht : l = trimEndMatches (· == '\r') l ++ l.rtakeWhile (· == '\r') :=
    List.rdropWhile_append_rtakeWhile.symm
  cases hcase : trimEndMatches (· == '\r') l with
  | nil =>
    rw [hcase, List.nil_append] at ht
    cases hl' : l with
    | nil => rfl
    | cons c cs =>
      have hc : c = '\r' := by
        have hmem : c ∈ l.rtakeWhile (· == '\r') := by
          rw [← ht, hl']
          exact .head _
        simpa using List.mem_rtakeWhile_imp hmem
      rw [hc]
      rfl
  | cons c cs =>
    rw [hcase] at ht
    rw [ht, List.cons_append, lineKind_cons, lineKind_cons]

/-- 種類の分からない文字で始まる行は、末尾を落としても種類が分からない。 -/
theorem lineKind_of_prefix {x line : Text} (hx : x <+: line) (h : lineKind line = none) : lineKind x = none := by
  cases x with
  | nil => rfl
  | cons c x =>
    obtain ⟨t, rfl⟩ := hx
    rw [List.cons_append, lineKind_cons] at h
    rw [lineKind_cons]
    exact h

theorem trimLine_isPrefix (line : Text) : trimLine line <+: line :=
  (List.rdropWhile_prefix (· == '\r') _).trans (List.rdropWhile_prefix (· == '\n') _)

/-- 空行は、どの種類の行でもない。 -/
theorem lineKind_bare {line : Text}
    (h : trimEndMatches (· == '\r') line = [] ∨ trimEndMatches (· == '\r') line = ['\n']) :
    lineKind (trimLine line) = none := by
  refine lineKind_of_prefix (trimLine_isPrefix line) ?_
  have hline : line = trimEndMatches (· == '\r') line ++ line.rtakeWhile (· == '\r') :=
    List.rdropWhile_append_rtakeWhile.symm
  rcases h with h | h
  · rw [h, List.nil_append] at hline
    cases hcase : line with
    | nil => rfl
    | cons c cs =>
      have hc : c = '\r' := by
        have hmem : c ∈ line.rtakeWhile (· == '\r') := by
          rw [← hline, hcase]
          exact .head _
        simpa using List.mem_rtakeWhile_imp hmem
      rw [lineKind_cons, hc]
      rfl
  · rw [hline, h, List.singleton_append, lineKind_cons]
    rfl

/-! ## hunk の行を数える -/

section count

/-- hunk の数が、見出しと行から読んだものである。 -/
structure HunkReads (h : Hunk) (header : HunkHeader) (rows : List Text) : Prop where
  deletionCount : h.deletionCount = header.deletionCountNumber
  additionCount : h.additionCount = header.additionCountNumber
  context : h.contextTotal = countKind .context rows
  deletions : h.deletionLines = countKind .deletion rows
  additions : h.additionLines = countKind .addition rows

/-- 終わりの空行を落としても、行の重さの和は変わらない。 -/
theorem sum_stripBareNewlines {w : Option HunkLineType → Nat} (hw : w none = 0) (lines : List Text) :
    ((stripBareNewlines lines).map fun line => w (lineKind (trimLine line))).sum
      = (lines.map fun line => w (lineKind (trimLine line))).sum := by
  have hlines : lines = stripBareNewlines lines ++ lines.rtakeWhile fun line =>
      trimEndMatches (· == '\r') line = [] ∨ trimEndMatches (· == '\r') line = ['\n'] :=
    List.rdropWhile_append_rtakeWhile.symm
  have hbare : ∀ line ∈ lines.rtakeWhile fun line =>
      trimEndMatches (· == '\r') line = [] ∨ trimEndMatches (· == '\r') line = ['\n'],
      w (lineKind (trimLine line)) = 0 := by
    intro line hline
    rw [lineKind_bare (by simpa using List.mem_rtakeWhile_imp hline), hw]
  conv_rhs => rw [hlines, List.map_append, List.sum_append, List.map_congr_left hbare]
  simp

/-- 読み終えた hunk の、種類ごとの行の重さ。 -/
theorem weightSum_read {ls : List Text} (hls : ∀ l ∈ ls, '\n' ∉ l) (f : FileDiffMetadata)
    (wa wd wc : Nat) :
    weightSum wa wd wc (readHunkLines f (ls.map (· ++ ['\n']))).contents
      = (ls.map fun l => lineWeight wa wd wc (lineKind l)).sum := by
  rw [weightSum_readHunkLines]
  refine (sum_stripBareNewlines (w := lineWeight wa wd wc) rfl _).trans ?_
  rw [List.map_map]
  refine congrArg List.sum (List.map_congr_left fun l hl => ?_)
  show lineWeight wa wd wc (lineKind (trimLine (l ++ ['\n']))) = _
  rw [lineKind_trimLine (hls l hl)]

/-- 一つの種類だけを数える重さ。 -/
theorem countKind_eq {w : Option HunkLineType → Nat} {kind : HunkLineType}
    (hw : ∀ k, w k = if k = some kind then 1 else 0) (ls : List Text) :
    (ls.map fun l => w (lineKind l)).sum = countKind kind ls := by
  rw [countKind, ← sum_map_ite]
  simp only [hw, decide_eq_true_eq]

/-- 一つの hunk を読む。 -/
theorem hunkReads_parseHunk {ls : List Text} (hls : ∀ l ∈ ls, '\n' ∉ l) (f : FileDiffMetadata)
    (hunkEnd : Nat) (firstLine : Text) (header : HunkHeader) :
    ∃ h, (parseHunk f hunkEnd firstLine header (ls.map (· ++ ['\n']))).1.hunks = f.hunks ++ [h]
      ∧ HunkReads h header ls := by
  have hbooked := booked_readHunkLines f (ls.map (· ++ ['\n']))
  refine ⟨_, rfl, rfl, rfl, ?_, ?_, ?_⟩
  · rw [← countKind_eq (w := lineWeight 0 0 1) (by rintro (_ | _ | _ | _ | _ | _) <;> rfl),
      ← weightSum_read hls f]
    show ((readHunkLines f _).contents.map _).sum = _
    unfold weightSum
    congr 2
    funext c
    cases c with
    | context c => exact (Nat.one_mul _).symm
    | change c => simp [HunkContent.weight]
  · rw [← countKind_eq (w := lineWeight 0 1 0) (by rintro (_ | _ | _ | _ | _ | _) <;> rfl),
      ← weightSum_read hls f]
    refine hbooked.deletions.trans ?_
    unfold weightSum
    congr 2
    funext c
    cases c <;> simp [HunkContent.weight, HunkContent.deleted]
  · rw [← countKind_eq (w := lineWeight 1 0 0) (by rintro (_ | _ | _ | _ | _ | _) <;> rfl),
      ← weightSum_read hls f]
    refine hbooked.additions.trans ?_
    unfold weightSum
    congr 2
    funext c
    cases c <;> simp [HunkContent.weight, HunkContent.added]

end count

/-! ## 行の pattern -/

section patterns

theorem gitDiffFileBreak_eq (t : Text) :
    gitDiffFileBreak t = if ['d', 'i', 'f', 'f', ' ', '-', '-', 'g', 'i', 't', ' '] <+: t then
      some ['d', 'i', 'f', 'f', ' ', '-', '-', 'g', 'i', 't', ' '].length else none := by
  unfold gitDiffFileBreak
  split
  · next t => exact (if_pos (List.prefix_append _ _)).symm
  · next hne =>
    rw [if_neg]
    rintro ⟨u, rfl⟩
    exact hne u rfl

theorem lineLocal_gitDiffFileBreak : LineLocal gitDiffFileBreak :=
  .of_pattern (by decide) (by decide) gitDiffFileBreak_eq

/-- 改行の手前で止まる読み取りは、改行の後を見ない。 -/
theorem takeWhile_append_newline {p : Char → Bool} (hp : p '\n' = false) (l t : Text) :
    (l ++ '\n' :: t).takeWhile p = l.takeWhile p := by
  induction l with
  | nil => simp [hp]
  | cons c l ih => simp [List.takeWhile_cons, ih]

/-- `[a-f0-9]`。 -/
def isShaChar (c : Char) : Bool := ('a' ≤ c && c ≤ 'f') || ('0' ≤ c && c ≤ '9')

/-- `From ` の後の一致。 -/
def commitTail (t : Text) : Option Nat :=
  match t.drop (t.takeWhile isShaChar).length with
  | ' ' :: rest =>
    if t.takeWhile isShaChar = [] ∨ rest.takeWhile (· ≠ '\n') = [] then none
    else some (5 + (t.takeWhile isShaChar).length + 1 + (rest.takeWhile (· ≠ '\n')).length)
  | _ => none

theorem commitMetadataSplit_eq (t : Text) :
    commitMetadataSplit t = if ['F', 'r', 'o', 'm', ' '] <+: t then commitTail (t.drop 5) else none := by
  unfold commitMetadataSplit
  split
  · next t => exact (if_pos (List.prefix_append ['F', 'r', 'o', 'm', ' '] t)).symm
  · next hne =>
    rw [if_neg]
    rintro ⟨u, rfl⟩
    exact hne u rfl

theorem commitTail_append_newline (u t : Text) : commitTail (u ++ '\n' :: t) = commitTail u := by
  have hhex : (u ++ '\n' :: t).takeWhile isShaChar = u.takeWhile isShaChar :=
    takeWhile_append_newline (by decide) u t
  have hle : (u.takeWhile isShaChar).length ≤ u.length := (List.takeWhile_prefix _).length_le
  unfold commitTail
  rw [hhex, List.drop_append_of_le_length hle]
  cases hrest : u.drop (u.takeWhile isShaChar).length with
  | nil => rfl
  | cons c v =>
    by_cases hc : c = ' '
    · subst hc
      simp only [List.cons_append, takeWhile_append_newline (p := (· ≠ '\n')) (by decide) v t]
    · simp [hc]

theorem lineLocal_commitMetadataSplit : LineLocal commitMetadataSplit where
  line := by
    intro l t _
    rw [commitMetadataSplit_eq, commitMetadataSplit_eq]
    by_cases hpre : ['F', 'r', 'o', 'm', ' '] <+: l
    · obtain ⟨u, rfl⟩ := hpre
      rw [if_pos ((prefix_append_newline (by decide)).mpr (List.prefix_append _ u)),
        if_pos (List.prefix_append _ u)]
      exact commitTail_append_newline u t
    · rw [if_neg (fun h => hpre ((prefix_append_newline (by decide)).mp h)), if_neg hpre]
  length_le := by
    intro l n h
    rw [commitMetadataSplit_eq] at h
    split at h
    · next hpre =>
      obtain ⟨u, rfl⟩ := hpre
      have hu : (['F', 'r', 'o', 'm', ' '] ++ u).drop 5 = u := rfl
      rw [hu] at h
      unfold commitTail at h
      split at h
      · next rest hrest =>
        split at h
        · cases h
        · have hn := Option.some.inj h
          have hlen := congrArg List.length hrest
          have hline := (List.takeWhile_prefix (l := rest) (· ≠ '\n')).length_le
          simp only [List.length_drop, List.length_cons, List.length_append] at hlen ⊢
          omega
      · cases h
    · cases h
  nil := rfl

/-! ### 先頭の文字 -/

theorem hunkSplit_of_head {l : Text} (h : l.head? ≠ some '@') : hunkSplit l = none := by
  rw [hunkSplit_eq, if_neg]
  rintro ⟨u, rfl⟩
  exact h rfl

theorem gitDiffFileBreak_of_head {l : Text} (h : l.head? ≠ some 'd') : gitDiffFileBreak l = none := by
  rw [gitDiffFileBreak_eq, if_neg]
  rintro ⟨u, rfl⟩
  exact h rfl

theorem commitMetadataSplit_of_head {l : Text} (h : l.head? ≠ some 'F') : commitMetadataSplit l = none := by
  rw [commitMetadataSplit_eq, if_neg]
  rintro ⟨u, rfl⟩
  exact h rfl

theorem head_of_hunkSplit {l : Text} (h : (hunkSplit l).isSome = true) : l.head? = some '@' := by
  by_contra hne
  rw [hunkSplit_of_head hne] at h
  cases h

theorem head_of_gitDiffFileBreak {l : Text} (h : (gitDiffFileBreak l).isSome = true) :
    l.head? = some 'd' := by
  by_contra hne
  rw [gitDiffFileBreak_of_head hne] at h
  cases h

theorem head_of_commitMetadataSplit {l : Text} (h : (commitMetadataSplit l).isSome = true) :
    l.head? = some 'F' := by
  by_contra hne
  rw [commitMetadataSplit_of_head hne] at h
  cases h

/-- 種類の分かる行は、ほかの文字では始まらない。 -/
theorem head_of_lineKind {l : Text} (h : (lineKind l).isSome = true) {c : Char} (hc : lineKind [c] = none) :
    l.head? ≠ some c := by
  cases l with
  | nil => simp
  | cons d t =>
    intro hd
    cases hd
    rw [lineKind_cons] at h hc
    rw [hc] at h
    cases h

theorem hunkSplit_of_hunkHeader {decimal : Char → Bool} {l : Text} {header : HunkHeader}
    (h : hunkHeader decimal l = some header) : (hunkSplit l).isSome = true := by
  unfold hunkHeader at h
  split at h
  · rfl
  · cases h

end patterns

/-! ## 行の列 -/

section headed

variable {decimal : Char → Bool}

/-- hunk の行は、hunk の見出しから始まる部分である。 -/
theorem MailHunk.headed (h : MailHunk decimal) : Headed (fun l => (hunkSplit l).isSome) h.lines := by
  refine ⟨h.headerLine, h.body, rfl, hunkSplit_of_hunkHeader h.read, ?_⟩
  intro l hl
  show (hunkSplit l).isSome = false
  rw [hunkSplit_of_head (head_of_lineKind (h.marked l hl).2 (by decide))]
  rfl

/-- hunk の行は、commit の切れ目にも file の切れ目にもならない。 -/
theorem MailHunk.unmarked (h : MailHunk decimal) : ∀ l ∈ h.lines, Unmarked l := by
  intro l hl
  cases hl with
  | head =>
    have hhead := head_of_hunkSplit (hunkSplit_of_hunkHeader h.read)
    exact ⟨h.oneLine.1, commitMetadataSplit_of_head (by rw [hhead]; decide),
      gitDiffFileBreak_of_head (by rw [hhead]; decide)⟩
  | tail _ hl =>
    obtain ⟨hnewline, hkind⟩ := h.marked l hl
    exact ⟨hnewline, commitMetadataSplit_of_head (head_of_lineKind hkind (by decide)),
      gitDiffFileBreak_of_head (head_of_lineKind hkind (by decide))⟩

/-- file の、最初の行より後の行。 -/
theorem MailFile.unmarked (f : MailFile decimal) :
    ∀ l ∈ f.headerLines ++ (f.hunks.map MailHunk.lines).flatten, Unmarked l := by
  intro l hl
  rcases List.mem_append.mp hl with hl | hl
  · exact (f.plain l hl).1
  · obtain ⟨ls, hls, hl⟩ := List.mem_flatten.mp hl
    obtain ⟨h, -, rfl⟩ := List.mem_map.mp hls
    exact h.unmarked l hl

/-- file の行は、`diff --git` の行から始まる部分である。 -/
theorem MailFile.headed (f : MailFile decimal) : Headed (fun l => (gitDiffFileBreak l).isSome) f.lines := by
  refine ⟨f.diffLine, _, rfl, f.isDiff.2, ?_⟩
  intro l hl
  show (gitDiffFileBreak l).isSome = false
  rw [(f.unmarked l hl).notFile]
  rfl

theorem MailFile.noNewline (f : MailFile decimal) : ∀ l ∈ f.lines, '\n' ∉ l := by
  intro l hl
  cases hl with
  | head => exact f.isDiff.1
  | tail _ hl => exact (f.unmarked l hl).noNewline

/-- `-- ` の行と署名は、diff の構造に見えない。 -/
theorem Mail.trailer_ok (m : Mail decimal) : ∀ l ∈ m.trailer, Unmarked l ∧ hunkSplit l = none := by
  intro l hl
  cases hl with
  | head =>
    exact ⟨⟨by decide, commitMetadataSplit_of_head (by decide),
      gitDiffFileBreak_of_head (by decide)⟩, hunkSplit_of_head (by decide)⟩
  | tail _ hl => exact m.signed l hl

/-- mail の行は、`From` の行から始まる部分である。 -/
theorem Mail.headed (m : Mail decimal) : Headed (fun l => (commitMetadataSplit l).isSome) m.lines := by
  refine ⟨m.fromLine, m.preamble ++ ((m.files.map MailFile.lines).flatten ++ m.trailer), rfl,
    m.isFrom.2, ?_⟩
  intro l hl
  show (commitMetadataSplit l).isSome = false
  have hnone : commitMetadataSplit l = none := by
    rcases List.mem_append.mp hl with hl | hl
    · exact (m.plain l hl).notCommit
    rcases List.mem_append.mp hl with hl | hl
    · obtain ⟨ls, hls, hl⟩ := List.mem_flatten.mp hl
      obtain ⟨f, -, rfl⟩ := List.mem_map.mp hls
      cases hl with
      | head =>
        exact commitMetadataSplit_of_head (by rw [head_of_gitDiffFileBreak f.isDiff.2]; decide)
      | tail _ hl => exact (f.unmarked l hl).notCommit
    · exact (m.trailer_ok l hl).1.notCommit
  rw [hnone]
  rfl

theorem Mail.noNewline (m : Mail decimal) : ∀ l ∈ m.lines, '\n' ∉ l := by
  intro l hl
  rcases List.mem_append.mp hl with hl | hl
  · cases hl with
    | head => exact m.isFrom.1
    | tail _ hl => exact (m.plain l hl).noNewline
  rcases List.mem_append.mp hl with hl | hl
  · obtain ⟨ls, hls, hl⟩ := List.mem_flatten.mp hl
    obtain ⟨f, -, rfl⟩ := List.mem_map.mp hls
    exact f.noNewline l hl
  · exact (m.trailer_ok l hl).1.noNewline

end headed

/-! ## file を読む -/

section file

variable {decimal : Char → Bool} {f : FileDiffMetadata}

/-- file の hunk が、見出しと行から読んだものである。最後の hunk の行には `tail` が付く。 -/
def FileReads (tail : List Text) (g : MailFile decimal) (f : FileDiffMetadata) : Prop :=
  List.Forall₂ (fun h x => HunkReads h x.1.header (x.1.body ++ x.2)) f.hunks (withTail tail g.hunks)

/-- hunk の部分を順に読む。 -/
theorem foldl_hunkParts : ∀ {parts : List (MailHunk decimal × List Text)} {f : FileDiffMetadata}
    {hunkEnd : Nat}, (∀ x ∈ parts, ∀ l ∈ x.2, '\n' ∉ l) →
    ∃ f' hs, ((parts.map fun x => unlines (x.1.lines ++ x.2)).foldl (processSection decimal true)
        (some f, hunkEnd)).1 = some f' ∧ f'.hunks = f.hunks ++ hs
      ∧ List.Forall₂ (fun h x => HunkReads h x.1.header (x.1.body ++ x.2)) hs parts
  | [], f, _, _ => ⟨f, [], rfl, (List.append_nil _).symm, .nil⟩
  | x :: parts, f, hunkEnd, hx => by
    obtain ⟨h, extra⟩ := x
    have hrows : ∀ l ∈ h.body ++ extra, '\n' ∉ l := by
      intro l hl
      rcases List.mem_append.mp hl with hl | hl
      · exact (h.marked l hl).1
      · exact hx _ (.head _) l hl
    have hlines : splitWithNewlines (unlines (h.lines ++ extra))
        = (h.headerLine ++ ['\n']) :: (h.body ++ extra).map (· ++ ['\n']) := by
      refine splitInclusive_unlines ?_
      intro l hl
      cases hl with
      | head => exact h.oneLine.1
      | tail _ hl => exact hrows l hl
    obtain ⟨hunk, hhunks, hreads⟩ := hunkReads_parseHunk hrows f hunkEnd h.headerLine h.header
    obtain ⟨f', hs, hrun, hf', hall⟩ := @foldl_hunkParts parts
      (parseHunk f hunkEnd h.headerLine h.header ((h.body ++ extra).map (· ++ ['\n']))).1
      (parseHunk f hunkEnd h.headerLine h.header ((h.body ++ extra).map (· ++ ['\n']))).2
      fun y hy => hx y (.tail _ hy)
    refine ⟨f', hunk :: hs, ?_, ?_, .cons hreads hall⟩
    · have hstep : processSection decimal true (some f, hunkEnd) (unlines (h.lines ++ extra))
          = (some (parseHunk f hunkEnd h.headerLine h.header ((h.body ++ extra).map (· ++ ['\n']))).1,
            (parseHunk f hunkEnd h.headerLine h.header ((h.body ++ extra).map (· ++ ['\n']))).2) := by
        simp only [processSection, hlines, trimLine_append_newline h.oneLine, h.read]
      rw [List.map_cons, List.foldl_cons, hstep, hrun]
    · rw [hf', hhunks, List.append_assoc, List.singleton_append]

/-- 見出しだけの部分からは、hunk の無い file が始まる。 -/
theorem processSection_header {part : Text} (hne : part ≠ []) (isGitDiff : Bool) :
    ∃ f, processSection decimal isGitDiff (none, 0) part = (some f, 0) ∧ f.hunks = [] := by
  unfold processSection
  cases hlines : splitWithNewlines part with
  | nil =>
    have hflat := flatten_splitInclusive part
    rw [show splitInclusive part = [] from hlines] at hflat
    exact absurd hflat.symm hne
  | cons first rest => exact ⟨_, rfl, (sameBody_parseFileHeader isGitDiff (first :: rest) emptyFile).hunks⟩

theorem hunks_finishFile (isGitDiff : Bool) (f : FileDiffMetadata) :
    (finishFile isGitDiff f).hunks = f.hunks := (sameBody_finishFile isGitDiff f).hunks

/-- mail の file を読む。 -/
theorem processFile_mailFile (g : MailFile decimal) {tail : List Text}
    (htail : ∀ l ∈ tail, '\n' ∉ l ∧ hunkSplit l = none) :
    ∃ f, processFile decimal (unlines (g.lines ++ tail)) true = some f ∧ FileReads tail g f := by
  have hnewline : ∀ l ∈ g.lines ++ tail, '\n' ∉ l := by
    intro l hl
    rcases List.mem_append.mp hl with hl | hl
    · exact g.noNewline l hl
    · exact (htail l hl).1
  have hfirst : ∀ l ∈ g.diffLine :: g.headerLines, (hunkSplit l).isSome = false := by
    intro l hl
    cases hl with
    | head =>
      rw [hunkSplit_of_head (by rw [head_of_gitDiffFileBreak g.isDiff.2]; decide)]
      rfl
    | tail _ hl =>
      rw [(g.plain l hl).2]
      rfl
  have htail' : ∀ l ∈ tail, (hunkSplit l).isSome = false := by
    intro l hl
    rw [(htail l hl).2]
    rfl
  have hchunk : chunk (fun l => (hunkSplit l).isSome) (g.lines ++ tail)
      = if g.hunks = [] then ((g.diffLine :: g.headerLines) ++ tail, [])
        else (g.diffLine :: g.headerLines, (withTail tail g.hunks).map fun x => x.1.lines ++ x.2) := by
    have hlines : g.lines ++ tail
        = (g.diffLine :: g.headerLines) ++ ((g.hunks.map MailHunk.lines).flatten ++ tail) := by
      simp [MailFile.lines]
    rw [hlines, chunk_append_of_not hfirst, chunk_headed htail' fun h _ => h.headed]
    split
    · rfl
    · rw [List.append_nil]
  have hcut := lineLocal_hunkSplit.cutGo_unlines hnewline
  rw [hchunk] at hcut
  unfold processFile splitAtMatches cut
  dsimp only
  rw [hcut]
  by_cases hhunks : g.hunks = []
  · obtain ⟨f, hf, hnil⟩ := @processSection_header decimal
      (unlines ((g.diffLine :: g.headerLines) ++ tail)) (unlines_ne_nil (by simp)) true
    have hne : unlines ((g.diffLine :: g.headerLines) ++ tail) ≠ [] := unlines_ne_nil (by simp)
    refine ⟨finishFile true f, ?_, ?_⟩
    · simp only [hhunks, if_true, List.map_nil, if_neg hne, List.foldl_cons, List.foldl_nil, hf,
        List.cons_ne_nil, if_false, Option.map_some]
    · unfold FileReads
      rw [hunks_finishFile, hnil, hhunks]
      exact .nil
  · obtain ⟨f, hf, hnil⟩ := @processSection_header decimal
      (unlines (g.diffLine :: g.headerLines)) (unlines_ne_nil (by simp)) true
    have hne : unlines (g.diffLine :: g.headerLines) ≠ [] := unlines_ne_nil (by simp)
    obtain ⟨f', hs, hrun, hf', hall⟩ := @foldl_hunkParts decimal
      (withTail tail g.hunks) f 0 (by
        intro x hx l hl
        rcases (mem_withTail hx).2 with h | ⟨-, h⟩
        · rw [h] at hl
          cases hl
        · rw [h] at hl
          exact (htail l hl).1)
    refine ⟨finishFile true f', ?_, ?_⟩
    · simp only [if_neg hhunks, if_neg hne, List.cons_ne_nil, if_false, List.foldl_cons, hf,
        List.map_map, Function.comp_def, hrun, Option.map_some]
    · unfold FileReads
      rw [hunks_finishFile, hf', hnil, List.nil_append]
      exact hall

end file

/-! ## 数の合う hunk -/

section forall₂

variable {α β : Type} {R : α → β → Prop} {l : List α} {l' : List β}

theorem exists_of_forall₂ {a : α} (h : List.Forall₂ R l l') (ha : a ∈ l) : ∃ b ∈ l', R a b := by
  induction h with
  | nil => cases ha
  | cons hab _ ih =>
    cases ha with
    | head => exact ⟨_, .head _, hab⟩
    | tail _ ha =>
      obtain ⟨b, hb, hab⟩ := ih ha
      exact ⟨b, .tail _ hb, hab⟩

theorem exists_of_forall₂' {b : β} (h : List.Forall₂ R l l') (hb : b ∈ l') : ∃ a ∈ l, R a b :=
  exists_of_forall₂ h.flip hb

/-- どの要素も読めれば、読んだものが順に並ぶ。 -/
theorem forall₂_filterMap {γ : Type} {text : β → γ} {read : γ → Option α} :
    ∀ {l' : List β}, (∀ b ∈ l', ∃ a, read (text b) = some a ∧ R a b) →
      List.Forall₂ R ((l'.map text).filterMap read) l'
  | [], _ => .nil
  | b :: l', h => by
    obtain ⟨a, ha, hab⟩ := h b (.head _)
    rw [List.map_cons, List.filterMap_cons, ha]
    exact .cons hab (forall₂_filterMap fun x hx => h x (.tail _ hx))

end forall₂

section exact

variable {decimal : Char → Bool} {h : Hunk} {header : HunkHeader} {body extra : List Text}

theorem countKind_append (kind : HunkLineType) (ls ls' : List Text) :
    countKind kind (ls ++ ls') = countKind kind ls + countKind kind ls' := List.countP_append

/-- 見出しと合う行に何も付かなければ、hunk の数は合う。 -/
theorem HunkReads.exact (hr : HunkReads h header (body ++ [])) (hc : header.Counts body) : h.Exact := by
  rw [List.append_nil] at hr
  unfold Hunk.Exact
  rw [hr.context, hr.deletions, hr.additions, hr.deletionCount, hr.additionCount]
  exact hc

/-- 見出しと合う行に `-- ` の行が付けば、消された行が一つ多い。 -/
theorem HunkReads.not_exact {signature : List Text}
    (hr : HunkReads h header (body ++ ("-- ".toList :: signature))) (hc : header.Counts body) :
    ¬ h.Exact := by
  rintro ⟨hdel, -⟩
  have hone : 1 ≤ countKind .deletion ("-- ".toList :: signature) := by
    have hkind : decide (lineKind "-- ".toList = some .deletion) = true := by decide
    rw [countKind, List.countP_cons, if_pos hkind]
    omega
  have hcounts := hc.1
  rw [hr.context, hr.deletions, hr.deletionCount, countKind_append, countKind_append] at hdel
  omega

/-- 何も付かない file の hunk は、どれも数が合う。 -/
theorem FileReads.exact {g : MailFile decimal} {f : FileDiffMetadata} (hr : FileReads [] g f) :
    ∀ h ∈ f.hunks, h.Exact := by
  intro h hh
  obtain ⟨x, hx, hread⟩ := exists_of_forall₂ hr hh
  have hnil : x.2 = [] := by
    rcases (mem_withTail hx).2 with hnil | ⟨-, hnil⟩ <;> exact hnil
  rw [hnil] at hread
  exact hread.exact x.1.counts

/-- `-- ` の行の付く file の hunk の数が合うのは、hunk が無いときである。 -/
theorem FileReads.exact_iff {m : Mail decimal} {g : MailFile decimal} {f : FileDiffMetadata}
    (hr : FileReads m.trailer g f) : (∀ h ∈ f.hunks, h.Exact) ↔ g.hunks = [] := by
  constructor
  · intro hall
    by_contra hne
    obtain ⟨last, hlast⟩ : ∃ last, g.hunks.getLast? = some last := ⟨_, List.getLast?_eq_some_getLast hne⟩
    obtain ⟨h, hh, hread⟩ := exists_of_forall₂' hr (getLast?_withTail m.trailer hlast)
    exact hread.not_exact last.counts (hall h hh)
  · intro hnil h hh
    have hnone : f.hunks = [] := by
      rw [FileReads, hnil] at hr
      exact List.forall₂_nil_right_iff.mp hr
    rw [hnone] at hh
    cases hh

end exact

/-! ## mail を読む -/

section mail

variable {decimal : Char → Bool}

/-- hunk の見出しの無い部分からは、hunk の無い file ができる。 -/
theorem hunks_of_not_match {part : Text} {isGitDiff : Bool} {f : FileDiffMetadata}
    (h : matchGo hunkSplit true part = false) (hf : processFile decimal part isGitDiff = some f) :
    f.hunks = [] := by
  have hcut : splitAtMatches hunkSplit part = [part] := by
    unfold splitAtMatches cut
    rw [cutGo_of_not_match h]
    by_cases hnil : part = []
    · simp [hnil]
    · simp [hnil]
  by_cases hnil : part = []
  · rw [hnil] at hf
    cases hf
  · obtain ⟨f', hstep, hhunks⟩ := @processSection_header decimal _ hnil isGitDiff
    rw [processFile, hcut, List.foldl_cons, List.foldl_nil, hstep] at hf
    cases hf
    rw [hunks_finishFile, hhunks]

/-- 一致しない text を切った部分は、どれも一致しない。 -/
theorem matchGo_splitAtMatches {re re' : Text → Option Nat} {t : Text}
    (hmono : ∀ x y, re' (x ++ y) = none → re' x = none) (h : matchGo re' true t = false) :
    ∀ part ∈ splitAtMatches re t, matchGo re' true part = false := by
  intro part hpart
  unfold splitAtMatches at hpart
  split at hpart
  · rw [List.mem_singleton.mp hpart]
    exact h
  · exact matchGo_cut hmono h part hpart

/-- file の無い mail からは、hunk は読まれない。 -/
theorem processPatch_coverLetter {m : Mail decimal} (hnil : m.files = []) {patch : ParsedPatch}
    (h : processPatch decimal (unlines m.lines) = some patch) : ∀ f ∈ patch.files, f.hunks = [] := by
  have hmatch : matchGo hunkSplit true (unlines m.lines) = false := by
    rw [lineLocal_hunkSplit.matchGo_unlines m.noNewline, List.any_eq_false]
    intro l hl
    rw [Bool.not_eq_true, Option.isSome_eq_false_iff, Option.isNone_iff_eq_none]
    rcases List.mem_append.mp hl with hl | hl
    · cases hl with
      | head => exact hunkSplit_of_head (by rw [head_of_commitMetadataSplit m.isFrom.2]; decide)
      | tail _ hl => exact m.coverLetter hnil l hl
    · rw [hnil] at hl
      exact (m.trailer_ok l hl).2
  have hmono : ∀ x y, hunkSplit (x ++ y) = none → hunkSplit x = none := by
    intro x y hxy
    rw [hunkSplit_eq] at hxy ⊢
    split at hxy
    · cases hxy
    · next hpre => exact if_neg fun hx => hpre (hx.trans (List.prefix_append x y))
  cases h
  intro f hf
  obtain ⟨part, hpart, hread⟩ := List.mem_filterMap.mp hf
  refine hunks_of_not_match ?_ hread
  exact matchGo_splitAtMatches hmono hmatch part (List.mem_of_mem_filter hpart)

/-- file のある mail を読む。 -/
theorem processPatch_mail {m : Mail decimal} (hne : m.files ≠ []) :
    ∃ patch, processPatch decimal (unlines m.lines) = some patch
      ∧ List.Forall₂ (fun f x => FileReads x.2 x.1 f) patch.files (withTail m.trailer m.files) := by
  have hfirst : ∀ l ∈ m.fromLine :: m.preamble, (gitDiffFileBreak l).isSome = false := by
    intro l hl
    cases hl with
    | head =>
      rw [gitDiffFileBreak_of_head (by rw [head_of_commitMetadataSplit m.isFrom.2]; decide)]
      rfl
    | tail _ hl =>
      rw [(m.plain l hl).notFile]
      rfl
  have htrailer : ∀ l ∈ m.trailer, (gitDiffFileBreak l).isSome = false := by
    intro l hl
    rw [(m.trailer_ok l hl).1.notFile]
    rfl
  have hparts : ∀ x ∈ withTail m.trailer m.files, ∀ l ∈ x.2, '\n' ∉ l ∧ hunkSplit l = none := by
    intro x hx l hl
    rcases (mem_withTail hx).2 with h | ⟨-, h⟩
    · rw [h] at hl
      cases hl
    · rw [h] at hl
      exact ⟨(m.trailer_ok l hl).1.noNewline, (m.trailer_ok l hl).2⟩
  have hchunk : chunk (fun l => (gitDiffFileBreak l).isSome) m.lines
      = (m.fromLine :: m.preamble, (withTail m.trailer m.files).map fun x => x.1.lines ++ x.2) := by
    rw [Mail.lines, chunk_append_of_not hfirst, chunk_headed htrailer fun f _ => f.headed, if_neg hne,
      List.append_nil]
  have hcut := lineLocal_gitDiffFileBreak.cutGo_unlines m.noNewline
  rw [hchunk] at hcut
  have hfirstNewline : ∀ l ∈ m.fromLine :: m.preamble, '\n' ∉ l := fun l hl =>
    m.noNewline l (List.mem_append_left _ hl)
  -- 最初の部分は file でなく、残りはどれも file である。
  have hmatchFirst : isMatch gitDiffFileBreak (unlines (m.fromLine :: m.preamble)) = false := by
    unfold isMatch
    rw [lineLocal_gitDiffFileBreak.matchGo_unlines hfirstNewline, List.any_eq_false]
    intro l hl
    rw [hfirst l hl]
    decide
  have hmatchPart : ∀ x ∈ withTail m.trailer m.files,
      isMatch gitDiffFileBreak (unlines (x.1.lines ++ x.2)) = true := by
    intro x hx
    unfold isMatch
    refine matchGo_of_match ?_ (unlines_ne_nil (by simp [MailFile.lines]))
    have hline : unlines (x.1.lines ++ x.2) = x.1.diffLine ++ '\n' :: unlines
        (x.1.headerLines ++ (x.1.hunks.map MailHunk.lines).flatten ++ x.2) := unlines_cons _ _
    rw [hline, lineLocal_gitDiffFileBreak.line _ x.1.isDiff.1]
    exact x.1.isDiff.2
  have hmatch : isMatch gitDiffFileBreak (unlines m.lines) = true := by
    unfold isMatch
    rw [lineLocal_gitDiffFileBreak.matchGo_unlines m.noNewline, List.any_eq_true]
    obtain ⟨g, gs, hfiles⟩ := List.exists_cons_of_ne_nil hne
    refine ⟨g.diffLine, ?_, g.isDiff.2⟩
    simp [Mail.lines, hfiles, MailFile.lines]
  have hraw : splitAtMatches gitDiffFileBreak (unlines m.lines)
      = unlines (m.fromLine :: m.preamble)
        :: (withTail m.trailer m.files).map fun x => unlines (x.1.lines ++ x.2) := by
    have hne' : unlines (m.fromLine :: m.preamble) ≠ [] := unlines_ne_nil (by simp)
    unfold splitAtMatches cut
    dsimp only
    rw [hcut]
    simp [hne', Function.comp_def]
  refine ⟨_, rfl, ?_⟩
  simp only [hmatch, if_true, hraw]
  rw [List.filter_cons_of_neg (by rw [hmatchFirst]; decide), List.filter_eq_self.mpr (by
    intro part hpart
    obtain ⟨x, hx, rfl⟩ := List.mem_map.mp hpart
    exact hmatchPart x hx)]
  exact forall₂_filterMap fun x hx => processFile_mailFile x.1 (hparts x hx)

/-- mail の hunk の数が合うのは、最後の file に hunk が無いときである。 -/
theorem mail_exact_iff (m : Mail decimal) :
    ∃ patch, processPatch decimal (unlines m.lines) = some patch
      ∧ ((∀ f ∈ patch.files, ∀ h ∈ f.hunks, h.Exact) ↔ ∀ g ∈ m.files.getLast?, g.hunks = []) := by
  by_cases hfiles : m.files = []
  · refine ⟨_, rfl, iff_of_true ?_ ?_⟩
    · intro f hf h hh
      rw [processPatch_coverLetter hfiles rfl f hf] at hh
      cases hh
    · rw [hfiles]
      rintro g ⟨⟩
  · obtain ⟨patch, hpatch, hall⟩ := processPatch_mail hfiles
    obtain ⟨last, hlast⟩ : ∃ last, m.files.getLast? = some last := ⟨_, List.getLast?_eq_some_getLast hfiles⟩
    refine ⟨patch, hpatch, ?_⟩
    constructor
    · intro hexact g hg
      obtain ⟨f, hf, hread⟩ := exists_of_forall₂' hall (getLast?_withTail m.trailer hg)
      exact hread.exact_iff.mp (hexact f hf)
    · intro hnil f hf
      obtain ⟨x, hx, hread⟩ := exists_of_forall₂ hall hf
      rcases (mem_withTail hx).2 with htail | ⟨hlastx, htail⟩
      · rw [htail] at hread
        exact hread.exact
      · rw [htail] at hread
        exact hread.exact_iff.mpr (hnil x.1 hlastx)

/-- mail の列は、mail ごとに読まれる。 -/
theorem splitAtMatches_mailText {mails : List (Mail decimal)} (hne : mails ≠ []) :
    splitAtMatches commitMetadataSplit (mailText mails) = mails.map fun m => unlines m.lines := by
  have hnewline : ∀ l ∈ (mails.map Mail.lines).flatten, '\n' ∉ l := by
    intro l hl
    obtain ⟨ls, hls, hl⟩ := List.mem_flatten.mp hl
    obtain ⟨m, -, rfl⟩ := List.mem_map.mp hls
    exact m.noNewline l hl
  have hheaded : ∀ ls ∈ mails.map Mail.lines, Headed (fun l => (commitMetadataSplit l).isSome) ls := by
    intro ls hls
    obtain ⟨m, -, rfl⟩ := List.mem_map.mp hls
    exact m.headed
  have hcut := lineLocal_commitMetadataSplit.cutGo_unlines hnewline
  rw [chunk_flatten hheaded] at hcut
  unfold splitAtMatches cut mailText
  dsimp only
  rw [hcut]
  simp [unlines, hne, Function.comp_def]

/--
**mail の列の hunk の行数が見出しと合うのは、どの mail の最後の file にも hunk が無いときである。**

最後の hunk の後の `-- ` の行が、消された行に数えられる。
-/
theorem mail_hunks_exact_iff (decimal : Char → Bool) (mails : List (Mail decimal)) :
    (∀ patch ∈ parsePatchFiles decimal (mailText mails), ∀ f ∈ patch.files, ∀ h ∈ f.hunks, h.Exact)
      ↔ ∀ m ∈ mails, ∀ g ∈ m.files.getLast?, g.hunks = [] := by
  by_cases hmails : mails = []
  · rw [hmails]
    refine iff_of_true ?_ (by simp)
    intro patch hpatch f hf
    cases List.mem_singleton.mp (show patch ∈ [_] from hpatch)
    cases hf
  · unfold parsePatchFiles
    rw [splitAtMatches_mailText hmails]
    constructor
    · intro hall m hm
      obtain ⟨patch, hpatch, hiff⟩ := mail_exact_iff m
      refine hiff.mp (hall patch ?_)
      exact List.mem_filterMap.mpr ⟨_, List.mem_map.mpr ⟨m, hm, rfl⟩, hpatch⟩
    · intro hall patch hmem
      obtain ⟨text, htext, hpatch⟩ := List.mem_filterMap.mp hmem
      obtain ⟨m, hm, rfl⟩ := List.mem_map.mp htext
      obtain ⟨patch', hpatch', hiff⟩ := mail_exact_iff m
      cases hpatch.symm.trans hpatch'
      exact hiff.mpr (hall m hm)

/-- 一行を替えた commit の mail。 -/
def changeMail : Mail isAsciiDigit where
  fromLine := "From abc123 Mon Sep 17 00:00:00 2001".toList
  isFrom := by decide
  preamble := ["Subject: [PATCH] x".toList, [], "---".toList, []]
  plain := by
    intro l hl
    simp only [List.mem_cons, List.not_mem_nil, or_false] at hl
    rcases hl with rfl | rfl | rfl | rfl <;>
      exact ⟨by decide, by decide, by decide⟩
  files := [{
    diffLine := "diff --git a/x b/x".toList
    isDiff := by decide
    headerLines := ["--- a/x".toList, "+++ b/x".toList]
    plain := by
      intro l hl
      simp only [List.mem_cons, List.not_mem_nil, or_false] at hl
      rcases hl with rfl | rfl <;>
        exact ⟨⟨by decide, by decide, by decide⟩, by decide⟩
    hunks := [{
      headerLine := "@@ -1 +1 @@".toList
      header := ⟨['1'], none, ['1'], none, none⟩
      body := ["-a".toList, "+b".toList]
      oneLine := by decide
      read := by decide
      marked := by decide
      counts := by
        unfold HunkHeader.Counts
        decide }] }]
  coverLetter := by
    intro h
    cases h
  signature := ["2.39.0".toList, []]
  signed := by
    intro l hl
    simp only [List.mem_cons, List.not_mem_nil, or_false] at hl
    rcases hl with rfl | rfl <;>
      exact ⟨⟨by decide, by decide, by decide⟩, by decide⟩

/-- 消された行は一つなのに、二つと数えられる。 -/
theorem signature_counted_as_deletion :
    (parsePatchFiles isAsciiDigit (mailText [changeMail])).flatMap (fun patch => patch.files.flatMap
        fun f => f.hunks.map fun h => (h.contextTotal + h.deletionLines, h.deletionCount))
      = [(2, 1)] := by
  decide

end mail

end Cassy.Diffs
