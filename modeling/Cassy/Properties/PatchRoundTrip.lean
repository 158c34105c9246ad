import Cassy.Properties.PatchRead

/-!
# unified diff の往復

file の変更を書いて読むと元に戻るのは、消される行のどれも file の切れ目に見えないとき、そのときに限る
（`unified_roundTrip_iff`）。

切れ目に見える行があれば、最初のものの手前で file が切られる。切られた部分は、行を途中までしか持たない
file を書いたものに等しいので、その名前と見出しは元のままで、行だけが足りない。
-/

namespace Cassy.Diffs

open Infra

variable {following : Text}

/-! ## file の切れ目 -/

theorem isSome_unifiedDiffFileBreak (text following : Text) :
    (unifiedDiffFileBreak ('-' :: (text ++ '\n' :: following))).isSome
      = looksLikeBreak text following := by
  unfold looksLikeBreak
  split
  · rename_i rest
    have hspace : (rest ++ '\n' :: following).takeWhile isWhitespace = []
        ↔ ¬ (rest.head?.all isWhitespace) = true := by
      cases rest with
      | nil => simp [isWhitespace_newline]
      | cons c rest => simp
    have hrest : (rest ++ '\n' :: following).dropWhile isWhitespace = []
        ↔ ¬ ((rest ++ following).any fun c => !isWhitespace c) = true := by
      rw [List.dropWhile_eq_nil_iff]
      simp [isWhitespace_newline, or_imp, forall_and]
    simp only [List.cons_append, unifiedDiffFileBreak, hspace, hrest]
    split
    · rename_i h
      simp only [Option.isSome_none]
      rcases h with h | h
      · rw [Bool.eq_false_iff.2 h, Bool.false_and]
      · rw [Bool.eq_false_iff.2 h, Bool.and_false]
    · rename_i h
      rw [not_or, not_not, not_not] at h
      rw [h.1, h.2]
      rfl
  · rename_i hne
    unfold unifiedDiffFileBreak
    split
    · rename_i t he
      rcases text with _ | ⟨a, _ | ⟨b, rest⟩⟩
      · simp at he
      · simp at he
      · simp only [List.cons_append, List.cons.injEq, true_and] at he
        obtain ⟨rfl, rfl, -⟩ := he
        exact absurd rfl (hne rest)
    · rfl

theorem unifiedDiffFileBreak_eq_none {text : Text} (h : looksLikeBreak text following = false) :
    unifiedDiffFileBreak ('-' :: (text ++ '\n' :: following)) = none := by
  rw [← isSome_unifiedDiffFileBreak] at h
  simpa using h

theorem ignores_unifiedDiffFileBreak {c : Char} (hc : c ≠ '-') : Ignores unifiedDiffFileBreak c := by
  intro t
  unfold unifiedDiffFileBreak
  split
  · rename_i he
    exact absurd (List.cons.inj he).1 hc
  · rfl

/-- 切れ目に見えない行は、切られない。 -/
theorem unifiedDiffFileBreak_body {l : ChangedLine}
    (h : ¬ (l.kind = .deletion ∧ looksLikeBreak l.text following = true)) :
    unifiedDiffFileBreak (l.body ++ '\n' :: following) = none := by
  obtain ⟨kind, text⟩ := l
  cases kind with
  | context => exact ignores_unifiedDiffFileBreak (c := ' ') (by decide) _
  | addition => exact ignores_unifiedDiffFileBreak (c := '+') (by decide) _
  | deletion =>
    exact unifiedDiffFileBreak_eq_none (Bool.eq_false_iff.2 fun hb => h ⟨rfl, hb⟩)

theorem quiet_of_linesClear : ∀ {ls : List ChangedLine},
    (∀ l ∈ ls, OneLine l.text) → linesClear following ls = true →
    Quiet unifiedDiffFileBreak following (renderLines ls)
  | [], _, _ => .nil
  | l :: ls, h, hclear => by
    simp only [linesClear, Bool.and_eq_true, Bool.not_eq_true'] at hclear
    have ih := quiet_of_linesClear (fun l' hl' => h l' (List.mem_cons_of_mem _ hl')) hclear.2
    refine .line (oneLine_body (h l List.mem_cons_self)).1 (unifiedDiffFileBreak_body ?_) ih
    rintro ⟨hk, hb⟩
    have hfalse := hclear.1
    rw [hk, hb] at hfalse
    exact absurd hfalse (by decide)

/-- hunk の見出しと行は、行が切れ目に見えなければ切られない。 -/
theorem quiet_renderHunk {h : HunkChange} (hv : h.Valid)
    (hlines : Quiet unifiedDiffFileBreak following (renderLines h.lines)) :
    Quiet unifiedDiffFileBreak following (renderHunk h) := by
  refine .line (oneLine_header hv).1 ?_ hlines
  rw [h.header_eq]
  exact ignores_unifiedDiffFileBreak (by decide) _

theorem quiet_of_hunksClear : ∀ {hs : List HunkChange}, (∀ h ∈ hs, h.Valid) →
    hunksClear following hs = true → Quiet unifiedDiffFileBreak following (renderHunks hs)
  | [], _, _ => .nil
  | h :: hs, hv, hclear => by
    rw [hunksClear, Bool.and_eq_true] at hclear
    have hh := hv h List.mem_cons_self
    exact (quiet_renderHunk hh (quiet_of_linesClear hh.lines hclear.1)).append
      (quiet_of_hunksClear (fun h' hh' => hv h' (List.mem_cons_of_mem _ hh')) hclear.2)

/-! ## 途中で切られた hunk -/

theorem renderLines_append : ∀ ls ls' : List ChangedLine,
    renderLines (ls ++ ls') = renderLines ls ++ renderLines ls'
  | [], _ => rfl
  | l :: ls, ls' => by
    rw [List.cons_append, renderLines, renderLines, renderLines_append ls ls', List.append_assoc,
      List.cons_append]

/-- 切れ目に見える行があれば、最初のものの手前までが切られずに残る。 -/
theorem exists_break_of_lines : ∀ {ls : List ChangedLine},
    (∀ l ∈ ls, OneLine l.text) → linesClear following ls = false →
    ∃ ls₁ l ls₂, ls = ls₁ ++ l :: ls₂
      ∧ (unifiedDiffFileBreak (renderLines (l :: ls₂) ++ following)).isSome
      ∧ Quiet unifiedDiffFileBreak (renderLines (l :: ls₂) ++ following) (renderLines ls₁)
  | [], _, hclear => absurd hclear (by simp [linesClear])
  | l :: ls, h, hclear => by
    by_cases hb : l.kind = .deletion ∧ looksLikeBreak l.text (renderLines ls ++ following) = true
    · refine ⟨[], l, ls, rfl, ?_, .nil⟩
      obtain ⟨kind, text⟩ := l
      obtain ⟨rfl, hb⟩ := hb
      rw [← isSome_unifiedDiffFileBreak] at hb
      simpa [renderLines, ChangedLine.body, LineKind.marker] using hb
    · have hrest : linesClear following ls = false := by
        simp only [linesClear, Bool.and_eq_false_iff, Bool.not_eq_false'] at hclear
        rcases hclear with hl | hl
        · exact absurd (by simpa using hl) hb
        · exact hl
      obtain ⟨ls₁, l', ls₂, rfl, hsome, hquiet⟩ :=
        exists_break_of_lines (fun l' hl' => h l' (List.mem_cons_of_mem _ hl')) hrest
      refine ⟨l :: ls₁, l', ls₂, rfl, hsome, ?_⟩
      refine .line (oneLine_body (h l List.mem_cons_self)).1 ?_ hquiet
      rw [← List.append_assoc, ← renderLines_append]
      exact unifiedDiffFileBreak_body hb

/-- 塊の行数。 -/
def Block.size : Block → Nat
  | .context ds as => ds.length + as.length
  | .change ds as => ds.length + as.length

/-- 行が塊に入れる行数。 -/
def ChangedLine.size (l : ChangedLine) : Nat :=
  match l.kind with
  | .context => 2
  | _ => 1

theorem ChangedLine.size_pos (l : ChangedLine) : 0 < l.size := by
  unfold size
  cases l.kind <;> decide

theorem sum_size_blocksOf : ∀ ls : List ChangedLine,
    ((blocksOf ls).map Block.size).sum = (ls.map ChangedLine.size).sum
  | [] => rfl
  | ⟨kind, text⟩ :: ls => by
    have ih := sum_size_blocksOf ls
    rw [blocksOf, List.map_cons, List.sum_cons, ← ih]
    generalize blocksOf ls = blocks
    cases kind <;> rcases blocks with _ | ⟨⟨_ | _⟩, rest⟩ <;>
      simp [Block.size, ChangedLine.size] <;> omega

/-- 途中までの行は、元の塊にならない。 -/
theorem blocksOf_truncated_ne (ls₁ : List ChangedLine) (l : ChangedLine) (ls₂ : List ChangedLine) :
    blocksOf ls₁ ≠ blocksOf (ls₁ ++ l :: ls₂) := by
  intro he
  have hsum := congrArg (fun bs => (bs.map Block.size).sum) he
  simp only [sum_size_blocksOf, List.map_append, List.sum_append, List.map_cons,
    List.sum_cons] at hsum
  have hpos := l.size_pos
  omega

/-- `hs` を書いたものは、`tail` の手前で切られ、残りは `hs'` を書いたものに等しい。 -/
structure HunksBroken (following : Text) (hs hs' : List HunkChange) (tail : Text) : Prop where
  text : renderHunks hs ++ following = renderHunks hs' ++ tail
  breaks : (unifiedDiffFileBreak tail).isSome
  quiet : Quiet unifiedDiffFileBreak tail (renderHunks hs')
  valid : ∀ h ∈ hs', h.Valid
  ne : hs'.map HunkChange.reading ≠ hs.map HunkChange.reading

theorem exists_hunksBroken : ∀ {hs : List HunkChange}, (∀ h ∈ hs, h.Valid) →
    hunksClear following hs = false → ∃ hs' tail, HunksBroken following hs hs' tail
  | [], _, hclear => absurd hclear (by simp [hunksClear])
  | h :: hs, hv, hclear => by
    have hh := hv h List.mem_cons_self
    by_cases hlines : linesClear (renderHunks hs ++ following) h.lines = true
    · -- 前の hunk は残り、後の hunk のどこかで切られる。
      have hrest : hunksClear following hs = false := by
        simpa [hunksClear, hlines] using hclear
      obtain ⟨hs', tail, hb⟩ :=
        exists_hunksBroken (fun h' hh' => hv h' (List.mem_cons_of_mem _ hh')) hrest
      refine ⟨h :: hs', tail, ?_, hb.breaks, ?_, ?_, ?_⟩
      · rw [renderHunks, renderHunks, List.append_assoc, List.append_assoc, hb.text]
      · rw [hb.text] at hlines
        exact (quiet_renderHunk hh (quiet_of_linesClear hh.lines hlines)).append hb.quiet
      · rintro h' (_ | ⟨_, hh'⟩)
        · exact hh
        · exact hb.valid h' hh'
      · rw [List.map_cons, List.map_cons]
        exact fun he => hb.ne (List.cons.inj he).2
    · -- この hunk の途中で切られる。
      rw [Bool.not_eq_true] at hlines
      obtain ⟨ls₁, l, ls₂, hsplit, hsome, hquiet⟩ := exists_break_of_lines hh.lines hlines
      have hh' : HunkChange.Valid { h with lines := ls₁ } :=
        { hh with lines := fun l' hl' => hh.lines l' (hsplit ▸ List.mem_append_left _ hl') }
      refine ⟨[{ h with lines := ls₁ }], _, ?_, hsome, ?_, ?_, ?_⟩
      · simp only [renderHunks, renderHunk, hsplit, renderLines_append, HunkChange.header,
          List.append_assoc, List.cons_append, List.append_nil]
      · rw [renderHunks, renderHunks, List.append_nil]
        exact quiet_renderHunk hh' hquiet
      · intro h' hmem
        rw [List.mem_singleton.1 hmem]
        exact hh'
      · intro he
        have hblocks := congrArg HunkReading.blocks (List.cons.inj he).1
        exact blocksOf_truncated_ne ls₁ l ls₂ (hblocks.trans (congrArg blocksOf hsplit))

/-! ## file の切り分け -/

/-- file の見出しの一行目は、file の切れ目である。 -/
theorem unifiedDiffFileBreak_header {name : Text} (h : ValidName name) (t : Text) :
    unifiedDiffFileBreak (("--- ".toList ++ name) ++ t) = some 5 := by
  obtain ⟨c, rest, rfl, hc⟩ := h.exists_cons
  have htake : (' ' :: c :: (rest ++ t)).takeWhile isWhitespace = [' '] := by
    rw [List.takeWhile_cons_of_pos (by decide), List.takeWhile_cons_of_neg (by simp [hc])]
  have hdrop : (' ' :: c :: (rest ++ t)).dropWhile isWhitespace ≠ [] := by
    rw [List.dropWhile_cons_of_pos (by decide), List.dropWhile_cons_of_neg (by simp [hc])]
    exact List.cons_ne_nil _ _
  show unifiedDiffFileBreak ('-' :: '-' :: '-' :: (' ' :: c :: (rest ++ t))) = some 5
  simp only [unifiedDiffFileBreak, htake]
  rw [if_neg (not_or.2 ⟨List.cons_ne_nil _ _, hdrop⟩)]
  rfl

theorem unifiedDiffFileBreak_renderFile {f : FileChange} (hv : f.Valid) (t : Text) :
    unifiedDiffFileBreak (renderFile f ++ t) = some 5 := by
  rw [renderFile, FileChange.header, List.append_assoc, List.append_assoc]
  exact unifiedDiffFileBreak_header hv.oldName _

/-- 切られない hunk が続く file は、見出しから次の切れ目までが一つの部分になる。 -/
theorem cutGo_renderFile {f : FileChange} (hv : f.Valid) {t : Text}
    (hquiet : Quiet unifiedDiffFileBreak t (renderHunks f.hunks))
    (ht : (cutGo unifiedDiffFileBreak 0 true t).1 = []) :
    cutGo unifiedDiffFileBreak 0 true (renderFile f ++ t)
      = ([], renderFile f :: (cutGo unifiedDiffFileBreak 0 true t).2) := by
  -- 見出しの二行目と hunk は切られない。
  have hnew : Quiet unifiedDiffFileBreak (renderHunks f.hunks ++ t)
      (("+++ ".toList ++ f.newName) ++ ['\n']) :=
    .line (hv.newName.oneLine_marked (by decide) (by decide)).1
      (ignores_unifiedDiffFileBreak (c := '+') (by decide) _) .nil
  have hrest := (hnew.append hquiet).cutGo_eq
  rw [ht, List.append_nil] at hrest
  have hold := (hv.oldName.oneLine_marked (c := '-') (by decide) (by decide)).1
  have htext : renderFile f ++ t = ("--- ".toList ++ f.oldName)
      ++ '\n' :: (("+++ ".toList ++ f.newName ++ ['\n'] ++ renderHunks f.hunks) ++ t) := by
    simp only [renderFile, FileChange.header, List.append_assoc, List.cons_append]
  have hpart : renderFile f = ("--- ".toList ++ f.oldName)
      ++ '\n' :: ("+++ ".toList ++ f.newName ++ ['\n'] ++ renderHunks f.hunks) := by
    simp only [renderFile, FileChange.header, List.append_assoc, List.cons_append]
  rw [htext, hpart]
  refine (cutGo_match hold (List.cons_ne_nil _ _)
    (unifiedDiffFileBreak_header hv.oldName _) (by simp)).trans ?_
  rw [hrest]
  rfl

/-- 書いた file の列は、空でなければ切れ目から始まる。 -/
theorem isSome_renderFiles {f : FileChange} (fs : List FileChange) (hv : f.Valid) :
    (unifiedDiffFileBreak (renderFiles (f :: fs))).isSome ∧ renderFiles (f :: fs) ≠ [] := by
  refine ⟨?_, List.cons_ne_nil _ _⟩
  rw [renderFiles, unifiedDiffFileBreak_renderFile hv]
  rfl

/-- 次の file の手前には、何も残らない。 -/
theorem cutGo_renderFiles_fst {fs : List FileChange} (hv : ∀ f ∈ fs, f.Valid) :
    (cutGo unifiedDiffFileBreak 0 true (renderFiles fs)).1 = [] := by
  cases fs with
  | nil => rfl
  | cons f fs =>
    obtain ⟨hsome, hne⟩ := isSome_renderFiles fs (hv f List.mem_cons_self)
    exact (cutGo_of_match hsome hne).1

section patch

variable (decimal : Char → Bool)

/-- 部分の列を読んだ結果。 -/
def sectionsReading (parts : List Text) : List FileReading :=
  ((parts.filter (isMatch unifiedDiffFileBreak)).filterMap fun part =>
    processFile decimal part false).map FileDiffMetadata.reading

variable {decimal}

theorem sectionsReading_renderFile
    (hd : ∀ c : Char, c.toNat < 128 → decimal c = isAsciiDigit c) {f : FileChange} (hv : f.Valid)
    (parts : List Text) : sectionsReading decimal (renderFile f :: parts)
      = f.reading :: sectionsReading decimal parts := by
  obtain ⟨file, hfile, hreading⟩ := processFile_renderFile hd hv
  have hmatch : isMatch unifiedDiffFileBreak (renderFile f) = true := by
    refine matchGo_of_match ?_ (List.cons_ne_nil _ _)
    rw [← List.append_nil (renderFile f), unifiedDiffFileBreak_renderFile hv]
    rfl
  simp only [sectionsReading, List.filter_cons_of_pos hmatch, List.filterMap_cons, hfile,
    List.map_cons, hreading]

/-- 部分を読むと元に戻るのは、消される行が切れ目に見えないとき、そのときに限る。 -/
theorem sectionsReading_eq_iff (hd : ∀ c : Char, c.toNat < 128 → decimal c = isAsciiDigit c) :
    ∀ {fs : List FileChange}, (∀ f ∈ fs, f.Valid) →
      (sectionsReading decimal (cutGo unifiedDiffFileBreak 0 true (renderFiles fs)).2
        = fs.map FileChange.reading ↔ filesClear fs = true)
  | [], _ => by simp [renderFiles, cutGo, sectionsReading, filesClear]
  | f :: fs, hv => by
    have hf := hv f List.mem_cons_self
    have hfs : ∀ f' ∈ fs, f'.Valid := fun f' hf' => hv f' (List.mem_cons_of_mem _ hf')
    have ih := sectionsReading_eq_iff hd hfs
    by_cases hclear : hunksClear (renderFiles fs) f.hunks = true
    · rw [renderFiles, cutGo_renderFile hf (quiet_of_hunksClear hf.hunks hclear)
        (cutGo_renderFiles_fst hfs), sectionsReading_renderFile hd hf, List.map_cons,
        List.cons.injEq, filesClear, hclear, Bool.true_and, ih]
      exact and_iff_right rfl
    · -- 切られた部分は、行の足りない file として読まれる。
      rw [Bool.not_eq_true] at hclear
      obtain ⟨hs', tail, hb⟩ := exists_hunksBroken hf.hunks hclear
      have hf' : FileChange.Valid { f with hunks := hs' } := { hf with hunks := hb.valid }
      have htext : renderFiles (f :: fs) = renderFile { f with hunks := hs' } ++ tail := by
        rw [renderFiles, renderFile, renderFile, List.append_assoc, hb.text, List.append_assoc]
        rfl
      have htail : tail ≠ [] := by
        rintro rfl
        exact absurd hb.breaks (by decide)
      rw [htext, cutGo_renderFile hf' hb.quiet (cutGo_of_match hb.breaks htail).1,
        sectionsReading_renderFile hd hf', filesClear, hclear, Bool.false_and]
      refine iff_of_false (fun he => hb.ne ?_) (by decide)
      exact congrArg FileReading.hunks (List.cons.inj he).1

/-! ## patch -/

theorem ignores_commitMetadataSplit {c : Char} (hc : c ≠ 'F') : Ignores commitMetadataSplit c := by
  intro t
  unfold commitMetadataSplit
  split
  · rename_i he
    exact absurd (List.cons.inj he).1 hc
  · rfl

theorem ignores_gitDiffFileBreak {c : Char} (hc : c ≠ 'd') : Ignores gitDiffFileBreak c := by
  intro t
  unfold gitDiffFileBreak
  split
  · rename_i he
    exact absurd (List.cons.inj he).1 hc
  · rfl

/-- 書かれた行の先頭を見ない pattern は、どこにも一致しない。 -/
theorem quiet_renderHunks {re : Text → Option Nat} (hre : ∀ k : LineKind, Ignores re k.marker)
    (hat : Ignores re '@') (t : Text) : ∀ {hs : List HunkChange}, (∀ h ∈ hs, h.Valid) →
    Quiet re t (renderHunks hs)
  | [], _ => .nil
  | h :: hs, hv => by
    have hh := hv h List.mem_cons_self
    refine .append (.line (oneLine_header hh).1 ?_ (quiet_renderLines hre _ hh.lines))
      (quiet_renderHunks hre hat t fun h' hh' => hv h' (List.mem_cons_of_mem _ hh'))
    rw [h.header_eq]
    exact hat _

theorem quiet_renderFiles {re : Text → Option Nat} (hre : ∀ k : LineKind, Ignores re k.marker)
    (hat : Ignores re '@') (t : Text) : ∀ {fs : List FileChange}, (∀ f ∈ fs, f.Valid) →
    Quiet re t (renderFiles fs)
  | [], _ => .nil
  | f :: fs, hv => by
    have hf := hv f List.mem_cons_self
    refine .append (.append (quiet_header (hre .deletion) (hre .addition) hf _) ?_)
      (quiet_renderFiles hre hat t fun f' hf' => hv f' (List.mem_cons_of_mem _ hf'))
    exact quiet_renderHunks hre hat _ hf.hunks

/-- 書いたものは、commit に切られない。 -/
theorem splitAtMatches_of_quiet {re : Text → Option Nat} {x : Text} (h : Quiet re [] x) :
    splitAtMatches re x = [x] := by
  by_cases hx : x = []
  · rw [hx]
    rfl
  · rw [splitAtMatches, h.cut_eq hx, if_neg (List.cons_ne_nil _ _)]

/-- 書いたものを読んだ結果は、部分を読んだ結果である。 -/
theorem files_parsePatchFiles_renderFiles {fs : List FileChange} (hv : ∀ f ∈ fs, f.Valid) :
    ((parsePatchFiles decimal (renderFiles fs)).flatMap ParsedPatch.files).map
        FileDiffMetadata.reading
      = sectionsReading decimal (cutGo unifiedDiffFileBreak 0 true (renderFiles fs)).2 := by
  have hcommit : splitAtMatches commitMetadataSplit (renderFiles fs) = [renderFiles fs] :=
    splitAtMatches_of_quiet (quiet_renderFiles
      (fun k => ignores_commitMetadataSplit (by cases k <;> decide))
      (ignores_commitMetadataSplit (by decide)) [] hv)
  have hgit : isMatch gitDiffFileBreak (renderFiles fs) = false :=
    (quiet_renderFiles (fun k => ignores_gitDiffFileBreak (by cases k <;> decide))
      (ignores_gitDiffFileBreak (by decide)) [] hv).matchGo_eq
  have hparts : (splitAtMatches unifiedDiffFileBreak (renderFiles fs)).filter
        (isMatch unifiedDiffFileBreak)
      = (cutGo unifiedDiffFileBreak 0 true (renderFiles fs)).2.filter
        (isMatch unifiedDiffFileBreak) := by
    cases fs with
    | nil => rfl
    | cons f fs =>
      obtain ⟨hsome, hne⟩ := isSome_renderFiles fs (hv f List.mem_cons_self)
      rw [splitAtMatches, cut_of_match hsome hne, if_neg (cutGo_of_match hsome hne).2]
  simp only [parsePatchFiles, hcommit, List.filterMap_cons, List.filterMap_nil, processPatch, hgit,
    Bool.false_eq_true, if_false, hparts, List.flatMap_cons, List.flatMap_nil, List.append_nil,
    sectionsReading]

/-- 変更を書いて読むと元に戻るのは、消される行のどれも file の切れ目に見えないとき、そのときに限る。 -/
theorem unified_roundTrip_iff (hd : ∀ c : Char, c.toNat < 128 → decimal c = isAsciiDigit c)
    (files : List FileChange) (hv : ∀ f ∈ files, f.Valid) :
    ((parsePatchFiles decimal (renderFiles files)).flatMap ParsedPatch.files).map
        FileDiffMetadata.reading = files.map FileChange.reading
      ↔ filesClear files = true := by
  rw [files_parsePatchFiles_renderFiles hv]
  exact sectionsReading_eq_iff hd hv

/-- `text` を `y` に変える。 -/
def oneLineChange (text : Text) : FileChange where
  oldName := "a".toList
  newName := "a".toList
  hunks := [{ deletionStart := 1, deletionCount := 1, additionStart := 1, additionCount := 1
              context := none
              lines := [⟨.deletion, text⟩, ⟨.addition, "y".toList⟩] }]

theorem valid_oneLineChange {text : Text} (h : OneLine text) : (oneLineChange text).Valid := by
  have hname : ValidName "a".toList := ⟨by decide, by decide, by simp [isNameChar]⟩
  refine ⟨hname, hname, fun hunk hmem => ?_⟩
  rw [List.mem_singleton.1 hmem]
  have hone : 1 ≤ usizeMax := by decide
  refine ⟨hone, hone, hone, hone, nofun, fun l hl => ?_⟩
  rcases List.mem_pair.1 hl with rfl | rfl
  · exact h
  · exact ⟨by decide, by decide⟩

theorem unified_roundTrip_joined : filesClear [oneLineChange "--x".toList] = true
    ∧ ((parsePatchFiles isAsciiDigit (renderFiles [oneLineChange "--x".toList])).flatMap
        ParsedPatch.files).map FileDiffMetadata.reading
      = [(oneLineChange "--x".toList).reading] := by
  have hclear : filesClear [oneLineChange "--x".toList] = true := by decide
  have hv : ∀ f ∈ [oneLineChange "--x".toList], f.Valid := by
    intro f hf
    rw [List.mem_singleton.1 hf]
    exact valid_oneLineChange ⟨by decide, by decide⟩
  exact ⟨hclear, (unified_roundTrip_iff (fun _ _ => rfl) _ hv).2 hclear⟩

/-- 消される行 `-- x` は、file の見出しとして読まれる。 -/
theorem unified_roundTrip_comment_lost : (oneLineChange "-- x".toList).Valid
    ∧ ((parsePatchFiles isAsciiDigit (renderFiles [oneLineChange "-- x".toList])).flatMap
        ParsedPatch.files).map FileDiffMetadata.reading
      ≠ [(oneLineChange "-- x".toList).reading] :=
  ⟨valid_oneLineChange ⟨by decide, by decide⟩, by decide⟩

end patch

end Cassy.Diffs
