import Cassy.Infra.Cut
import Cassy.Properties.PatchRender

/-!
# 書いた file を読む

一つの file を書いたものを `process_file` が読むと、名前・見出し・塊が元に戻ることを示す。file の切れ目は
ここでは試されないので、消される行の文字列には条件が要らない。

hunk の行を読む loop は、塊の始まりの番号と長さだけを持つ。番号の指す文字列に写すと、塊に行を足していく
`Reading` の loop になり、その結果が `blocksOf` である。
-/

namespace Cassy.Diffs

open Infra

/-! ## 行 -/

theorem oneLine_body {l : ChangedLine} (h : OneLine l.text) : OneLine l.body := by
  unfold ChangedLine.body
  cases l.kind <;> exact h.cons (by decide) (by decide)

theorem parseLineType_body (l : ChangedLine) : parseLineType l.body
    = some (match l.kind with
        | .context => .context
        | .deletion => .deletion
        | .addition => .addition, readBack l.text) := by
  unfold ChangedLine.body
  cases l.kind <;> rfl

/-- 書いた行を切り分けると、元の行に戻る。 -/
theorem splitInclusive_renderLines : ∀ {ls : List ChangedLine}, (∀ l ∈ ls, OneLine l.text) →
    splitInclusive (renderLines ls) = ls.map fun l => l.body ++ ['\n']
  | [], _ => rfl
  | l :: ls, h => by
    have ih := splitInclusive_renderLines fun l' hl' => h l' (List.mem_cons_of_mem _ hl')
    rw [renderLines, splitInclusive_append_newline (oneLine_body (h l List.mem_cons_self)).1, ih,
      List.map_cons]

/-- 書いた行に、空行は無い。 -/
theorem stripBareNewlines_rendered (ls : List ChangedLine) :
    stripBareNewlines (ls.map fun l => l.body ++ ['\n']) = ls.map fun l => l.body ++ ['\n'] := by
  refine reverse_dropWhile_of_not fun line hline => ?_
  obtain ⟨l, _, rfl⟩ := List.mem_map.1 hline
  have hkeep : trimEndMatches (· == '\r') (l.body ++ ['\n']) = l.body ++ ['\n'] := by
    simp [trimEndMatches]
  rw [hkeep, ChangedLine.body]
  simp

/-! ## 塊 -/

/-- 塊に行を足していく途中。 -/
structure Reading where
  done : List Block
  current : Option Block

namespace Reading

/-- 行を一つ足す。 -/
def push (r : Reading) (l : ChangedLine) : Reading :=
  let text := readBack l.text
  match l.kind, r.current with
  | .context, some (.context ds as) =>
    { r with current := some (.context (ds ++ [text]) (as ++ [text])) }
  | .context, current =>
    { done := r.done ++ current.toList, current := some (.context [text] [text]) }
  | .deletion, some (.change ds as) => { r with current := some (.change (ds ++ [text]) as) }
  | .deletion, current =>
    { done := r.done ++ current.toList, current := some (.change [text] []) }
  | .addition, some (.change ds as) => { r with current := some (.change ds (as ++ [text])) }
  | .addition, current =>
    { done := r.done ++ current.toList, current := some (.change [] [text]) }

/-- 開いている塊に、後の塊を繋ぐ。 -/
def join : Option Block → List Block → List Block
  | some (.context ds as), .context ds' as' :: rest => .context (ds ++ ds') (as ++ as') :: rest
  | some (.change ds as), .change ds' as' :: rest => .change (ds ++ ds') (as ++ as') :: rest
  | current, blocks => current.toList ++ blocks

theorem push_join (r : Reading) (l : ChangedLine) (ls : List ChangedLine) :
    (r.push l).done ++ join (r.push l).current (blocksOf ls)
      = r.done ++ join r.current (blocksOf (l :: ls)) := by
  obtain ⟨kind, text⟩ := l
  obtain ⟨done, current⟩ := r
  rw [blocksOf]
  generalize blocksOf ls = blocks
  cases kind <;> rcases current with _ | ⟨_ | _⟩ <;> rcases blocks with _ | ⟨⟨_ | _⟩, rest⟩ <;>
    simp [push, join]

/-- 行を読み終えたときの塊。 -/
theorem foldl_push : ∀ (ls : List ChangedLine) (r : Reading),
    (ls.foldl push r).done ++ (ls.foldl push r).current.toList
      = r.done ++ join r.current (blocksOf ls)
  | [], r => by
    rcases r with ⟨done, _ | ⟨_ | _⟩⟩ <;> rfl
  | l :: ls, r => by
    rw [List.foldl_cons, foldl_push ls, push_join]

end Reading

/-! ## 番号の指す行 -/

theorem take_drop_append {α : Type} {l : List α} {i n : Nat} (h : i + n ≤ l.length) (l' : List α) :
    ((l ++ l').drop i).take n = (l.drop i).take n := by
  rw [List.drop_append_of_le_length (by omega),
    List.take_append_of_le_length (by rw [List.length_drop]; omega)]

theorem take_drop_snoc {α : Type} {l : List α} {i n : Nat} (h : i + n = l.length) (a : α) :
    ((l ++ [a]).drop i).take (n + 1) = (l.drop i).take n ++ [a] := by
  rw [List.drop_append_of_le_length (by omega), List.take_of_length_le (by simp; omega),
    List.take_of_length_le (by simp; omega)]

namespace HunkContent

/-- 塊は、読んだ行の中を指す。 -/
def Within (deletionLines additionLines : List Text) : HunkContent → Prop
  | .context c => c.deletionLineIndex + c.lines ≤ deletionLines.length
      ∧ c.additionLineIndex + c.lines ≤ additionLines.length
  | .change c => c.deletionLineIndex + c.deletions ≤ deletionLines.length
      ∧ c.additionLineIndex + c.additions ≤ additionLines.length

/-- 塊は、読んだ行の終わりまでを指す。 -/
def Ends (deletionLines additionLines : List Text) : HunkContent → Prop
  | .context c => c.deletionLineIndex + c.lines = deletionLines.length
      ∧ c.additionLineIndex + c.lines = additionLines.length
  | .change c => c.deletionLineIndex + c.deletions = deletionLines.length
      ∧ c.additionLineIndex + c.additions = additionLines.length

variable {ds as : List Text} {c : HunkContent}

theorem Ends.within (h : c.Ends ds as) : c.Within ds as := by
  cases c with
  | context c => exact ⟨h.1.le, h.2.le⟩
  | change c => exact ⟨h.1.le, h.2.le⟩

theorem Within.append (h : c.Within ds as) (ds' as' : List Text) :
    c.Within (ds ++ ds') (as ++ as') := by
  cases c with
  | context c =>
    refine ⟨h.1.trans ?_, h.2.trans ?_⟩ <;> simp
  | change c =>
    refine ⟨h.1.trans ?_, h.2.trans ?_⟩ <;> simp

/-- 後から読んだ行は、前の塊を変えない。 -/
theorem Within.block_append (h : c.Within ds as) (ds' as' : List Text) :
    c.block (ds ++ ds') (as ++ as') = c.block ds as := by
  cases c with
  | context c =>
    rw [block, block, take_drop_append h.1, take_drop_append h.2]
  | change c =>
    rw [block, block, take_drop_append h.1, take_drop_append h.2]

end HunkContent

namespace HunkState

/-- `ds`・`as` の後に行を読んでいる間の不変条件。 -/
structure Tight (ds as : List Text) (s : HunkState) : Prop where
  deletionLines : ds <+: s.deletionLines
  additionLines : as <+: s.additionLines
  deletionLineIndex : s.deletionLineIndex = s.deletionLines.length
  additionLineIndex : s.additionLineIndex = s.additionLines.length
  hunkContent : ∀ c ∈ s.hunkContent, c.Within s.deletionLines s.additionLines
  current : ∀ c ∈ s.current, c.Ends s.deletionLines s.additionLines

/-- 番号の指す文字列に写す。 -/
def toReading (s : HunkState) : Reading where
  done := s.hunkContent.map (HunkContent.block s.deletionLines s.additionLines)
  current := s.current.map (HunkContent.block s.deletionLines s.additionLines)

variable {ds as : List Text} {s : HunkState}

theorem Tight.within (h : s.Tight ds as) :
    ∀ c ∈ s.hunkContent ++ s.current.toList, c.Within s.deletionLines s.additionLines := by
  intro c hc
  rcases List.mem_append.1 hc with hc | hc
  · exact h.hunkContent c hc
  · exact (h.current c (Option.mem_toList.1 hc)).within

theorem current_openChange (s : HunkState) : ∃ c, s.openChange.current = some (.change c) := by
  rcases hcur : s.current with _ | ⟨_ | c⟩
  · exact ⟨_, by rw [openChange, hcur]⟩
  · exact ⟨_, by rw [openChange, hcur]⟩
  · exact ⟨c, by rw [openChange, hcur]; exact hcur⟩

theorem current_openContext (s : HunkState) : ∃ c, s.openContext.current = some (.context c) := by
  rcases hcur : s.current with _ | ⟨c | _⟩
  · exact ⟨_, by rw [openContext, hcur]⟩
  · exact ⟨c, by rw [openContext, hcur]; exact hcur⟩
  · exact ⟨_, by rw [openContext, hcur]⟩

/-- 塊を開いても、読んだ行は変わらない。 -/
theorem Tight.openChange (h : s.Tight ds as) : s.openChange.Tight ds as := by
  have hopen : Tight ds as
      { s with
        hunkContent := s.hunkContent ++ s.current.toList
        current := some (.change { deletions := 0, deletionLineIndex := s.deletionLineIndex
                                   additions := 0, additionLineIndex := s.additionLineIndex }) } := by
    refine { h with hunkContent := h.within, current := ?_ }
    rintro c ⟨⟩
    exact ⟨h.deletionLineIndex, h.additionLineIndex⟩
  rcases hcur : s.current with _ | ⟨_ | c⟩
  · rw [HunkState.openChange, hcur]; rwa [hcur] at hopen
  · rw [HunkState.openChange, hcur]; rwa [hcur] at hopen
  · rw [HunkState.openChange, hcur]; exact h

theorem Tight.openContext (h : s.Tight ds as) : s.openContext.Tight ds as := by
  have hopen : Tight ds as
      { s with
        hunkContent := s.hunkContent ++ s.current.toList
        current := some (.context { lines := 0, additionLineIndex := s.additionLineIndex
                                    deletionLineIndex := s.deletionLineIndex }) } := by
    refine { h with hunkContent := h.within, current := ?_ }
    rintro c ⟨⟩
    exact ⟨h.deletionLineIndex, h.additionLineIndex⟩
  rcases hcur : s.current with _ | ⟨_ | c⟩
  · rw [HunkState.openContext, hcur]; rwa [hcur] at hopen
  · rw [HunkState.openContext, hcur]; exact h
  · rw [HunkState.openContext, hcur]; rwa [hcur] at hopen

theorem push_openChange (s : HunkState) {l : ChangedLine} (hl : l.kind ≠ .context) :
    s.openChange.toReading.push l = s.toReading.push l := by
  obtain ⟨kind, text⟩ := l
  rcases hcur : s.current with _ | ⟨_ | c⟩ <;> cases kind <;>
    simp_all [HunkState.openChange, toReading, Reading.push, HunkContent.block]

theorem push_openContext (s : HunkState) {l : ChangedLine} (hl : l.kind = .context) :
    s.openContext.toReading.push l = s.toReading.push l := by
  obtain ⟨kind, text⟩ := l
  cases hl
  rcases hcur : s.current with _ | ⟨_ | c⟩ <;>
    simp [HunkState.openContext, hcur, toReading, Reading.push, HunkContent.block]

/-- 閉じた塊は、行を足しても変わらない。 -/
theorem Tight.map_block (h : s.Tight ds as) (ds' as' : List Text) :
    s.hunkContent.map (HunkContent.block (s.deletionLines ++ ds') (s.additionLines ++ as'))
      = s.hunkContent.map (HunkContent.block s.deletionLines s.additionLines) :=
  List.map_congr_left fun c hc => (h.hunkContent c hc).block_append ds' as'

/-- 行を末尾に足した状態。 -/
theorem Tight.extend (h : s.Tight ds as) (ds' as' : List Text) {s' : HunkState}
    (hd : s'.deletionLines = s.deletionLines ++ ds')
    (ha : s'.additionLines = s.additionLines ++ as')
    (hdi : s'.deletionLineIndex = s.deletionLineIndex + ds'.length)
    (hai : s'.additionLineIndex = s.additionLineIndex + as'.length)
    (hc : s'.hunkContent = s.hunkContent)
    (hcur : ∀ c ∈ s'.current, c.Ends s'.deletionLines s'.additionLines) : s'.Tight ds as where
  deletionLines := hd ▸ h.deletionLines.trans (List.prefix_append _ _)
  additionLines := ha ▸ h.additionLines.trans (List.prefix_append _ _)
  deletionLineIndex := by rw [hdi, hd, h.deletionLineIndex, List.length_append]
  additionLineIndex := by rw [hai, ha, h.additionLineIndex, List.length_append]
  hunkContent := by
    rw [hc, hd, ha]
    exact fun c hc => (h.hunkContent c hc).append ds' as'
  current := hcur

/-- 不変条件を満たし、番号の指す文字列が `r` である。 -/
def Reads (ds as : List Text) (s : HunkState) (r : Reading) : Prop :=
  s.Tight ds as ∧ s.toReading = r

theorem Tight.reads_pushDeletion (h : s.Tight ds as) (text : Text) :
    (s.pushDeletion (readBack text)).Reads ds as (s.toReading.push ⟨.deletion, text⟩) := by
  obtain ⟨c, hc⟩ := s.current_openChange
  have ht := h.openChange
  have hends := ht.current _ hc
  refine ⟨ht.extend [readBack text] [] rfl (List.append_nil _).symm rfl rfl rfl ?_, ?_⟩
  · simp only [pushDeletion, hc, Option.map_some, Option.mem_some_iff, forall_eq']
    exact ⟨by rw [List.length_append, ← hends.1]; exact (Nat.add_assoc _ _ _).symm, hends.2⟩
  · rw [← s.push_openChange (l := ⟨.deletion, text⟩) nofun]
    have hdone := ht.map_block [readBack text] []
    rw [List.append_nil] at hdone
    simp only [toReading, pushDeletion, hc, Option.map_some, Reading.push, HunkContent.block, hdone,
      take_drop_snoc hends.1]

theorem Tight.reads_pushAddition (h : s.Tight ds as) (text : Text) :
    (s.pushAddition (readBack text)).Reads ds as (s.toReading.push ⟨.addition, text⟩) := by
  obtain ⟨c, hc⟩ := s.current_openChange
  have ht := h.openChange
  have hends := ht.current _ hc
  refine ⟨ht.extend [] [readBack text] (List.append_nil _).symm rfl rfl rfl rfl ?_, ?_⟩
  · simp only [pushAddition, hc, Option.map_some, Option.mem_some_iff, forall_eq']
    exact ⟨hends.1, by rw [List.length_append, ← hends.2]; exact (Nat.add_assoc _ _ _).symm⟩
  · rw [← s.push_openChange (l := ⟨.addition, text⟩) nofun]
    have hdone := ht.map_block [] [readBack text]
    rw [List.append_nil] at hdone
    simp only [toReading, pushAddition, hc, Option.map_some, Reading.push, HunkContent.block, hdone,
      take_drop_snoc hends.2]

theorem Tight.reads_pushContext (h : s.Tight ds as) (text : Text) :
    (s.pushContext (readBack text)).Reads ds as (s.toReading.push ⟨.context, text⟩) := by
  obtain ⟨c, hc⟩ := s.current_openContext
  have ht := h.openContext
  have hends := ht.current _ hc
  refine ⟨ht.extend [readBack text] [readBack text] rfl rfl rfl rfl rfl ?_, ?_⟩
  · simp only [pushContext, hc, Option.map_some, Option.mem_some_iff, forall_eq']
    refine ⟨?_, ?_⟩
    · rw [List.length_append, ← hends.1]; exact (Nat.add_assoc _ _ _).symm
    · rw [List.length_append, ← hends.2]; exact (Nat.add_assoc _ _ _).symm
  · rw [← s.push_openContext (l := ⟨.context, text⟩) rfl]
    have hdone := ht.map_block [readBack text] [readBack text]
    simp only [toReading, pushContext, hc, Option.map_some, Reading.push, HunkContent.block, hdone,
      take_drop_snoc hends.1, take_drop_snoc hends.2]

/-- 書いた行を一つ読む。 -/
theorem Reads.pushLine {r : Reading} (h : s.Reads ds as r) {l : ChangedLine} (hl : OneLine l.text) :
    (s.pushLine (l.body ++ ['\n'])).Reads ds as (r.push l) := by
  obtain ⟨ht, rfl⟩ := h
  rw [HunkState.pushLine, trimLine_append_newline (oneLine_body hl), parseLineType_body]
  obtain ⟨kind, text⟩ := l
  cases kind with
  | context => exact ht.reads_pushContext text
  | deletion => exact ht.reads_pushDeletion text
  | addition => exact ht.reads_pushAddition text

/-- 書いた行を順に読む。 -/
theorem Reads.foldl_pushLine : ∀ {ls : List ChangedLine} {s : HunkState} {r : Reading},
    s.Reads ds as r → (∀ l ∈ ls, OneLine l.text) →
    ((ls.map fun l => l.body ++ ['\n']).foldl HunkState.pushLine s).Reads ds as
      (ls.foldl Reading.push r)
  | [], _, _, h, _ => h
  | l :: ls, s, r, h, hls => by
    rw [List.map_cons, List.foldl_cons, List.foldl_cons]
    exact foldl_pushLine (h.pushLine (hls l List.mem_cons_self))
      fun l' hl' => hls l' (List.mem_cons_of_mem _ hl')

end HunkState

/-! ## hunk -/

/-- どの塊も、file の行の中を指す。 -/
def FileDiffMetadata.Within (f : FileDiffMetadata) : Prop :=
  ∀ h ∈ f.hunks, ∀ c ∈ h.hunkContent, c.Within f.deletionLines f.additionLines

/-- 読み終えた hunk は、後から読んだ行で変わらない。 -/
theorem Hunk.reading_append {ds as : List Text} {h : Hunk}
    (hw : ∀ c ∈ h.hunkContent, c.Within ds as) (ds' as' : List Text) :
    h.reading (ds ++ ds') (as ++ as') = h.reading ds as := by
  have hblocks : h.hunkContent.map (HunkContent.block (ds ++ ds') (as ++ as'))
      = h.hunkContent.map (HunkContent.block ds as) :=
    List.map_congr_left fun c hc => (hw c hc).block_append ds' as'
  rw [Hunk.reading, hblocks, Hunk.reading]

/-- hunk を一つ読んだ後の file。 -/
structure HunkRead (file : FileDiffMetadata) (h : HunkReading) (file' : FileDiffMetadata) : Prop where
  within : file'.Within
  changeType : file'.changeType = file.changeType
  name : file'.name = file.name
  prevName : file'.prevName = file.prevName
  hunks : file'.reading.hunks = file.reading.hunks ++ [h]

/-- 書いた hunk を読む。 -/
theorem hunkRead_parseHunk {file : FileDiffMetadata} (hw : file.Within) {h : HunkChange}
    (hv : h.Valid) (lastHunkEnd : Nat) (firstLine : Text) :
    HunkRead file h.reading
      (parseHunk file lastHunkEnd firstLine
        { deletionStart := numberText h.deletionStart
          deletionCount := some (numberText h.deletionCount)
          additionStart := numberText h.additionStart
          additionCount := some (numberText h.additionCount)
          context := h.context }
        (splitWithNewlines (renderLines h.lines))).1 := by
  have hlines : stripBareNewlines (splitWithNewlines (renderLines h.lines))
      = h.lines.map fun l => l.body ++ ['\n'] := by
    rw [splitWithNewlines, splitInclusive_renderLines hv.lines, stripBareNewlines_rendered]
  have hinit : HunkState.Reads file.deletionLines file.additionLines
      { deletionLines := file.deletionLines, additionLines := file.additionLines
        deletionLineIndex := file.deletionLines.length
        additionLineIndex := file.additionLines.length
        hunkContent := [], current := none, lastLineType := none
        deletionLinesCount := 0, additionLinesCount := 0
        noEofCrDeletions := false, noEofCrAdditions := false } ⟨[], none⟩ := by
    refine ⟨⟨List.prefix_rfl, List.prefix_rfl, rfl, rfl, ?_, ?_⟩, rfl⟩
    · exact fun c hc => absurd hc List.not_mem_nil
    · exact fun c hc => absurd hc (Option.not_mem_none c)
  have hread := hinit.foldl_pushLine hv.lines
  have hblocks := Reading.foldl_push h.lines ⟨[], none⟩
  simp only [parseHunk, hlines]
  generalize List.foldl HunkState.pushLine _ _ = s at hread ⊢
  obtain ⟨ht, hr⟩ := hread
  rw [← hr] at hblocks
  obtain ⟨ds', hds⟩ := ht.deletionLines
  obtain ⟨as', has⟩ := ht.additionLines
  refine ⟨?_, rfl, rfl, rfl, ?_⟩
  · -- 前からの hunk は行の接頭辞を、今の hunk は読んだ行の中を指す。
    intro hunk hmem
    rcases List.mem_append.1 hmem with hmem | hmem
    · rw [← hds, ← has]
      exact fun c hc => (hw hunk hmem c hc).append ds' as'
    · rw [List.mem_singleton.1 hmem]
      exact ht.within
  · have hdone : file.hunks.map (Hunk.reading s.deletionLines s.additionLines)
        = file.hunks.map (Hunk.reading file.deletionLines file.additionLines) := by
      rw [← hds, ← has]
      exact List.map_congr_left fun hunk hmem => Hunk.reading_append (hw hunk hmem) ds' as'
    have hnew : (s.hunkContent ++ s.current.toList).map
        (HunkContent.block s.deletionLines s.additionLines) = blocksOf h.lines := by
      rw [List.map_append, ← Option.toList_map]
      exact hblocks
    simp only [FileDiffMetadata.reading, List.map_append, List.map_cons, List.map_nil, hdone,
      HunkChange.reading]
    congr 2
    simp only [Hunk.reading, hnew, Option.map_some, Option.getD_some,
      headerNumber_numberText hv.deletionStart, headerNumber_numberText hv.deletionCount,
      headerNumber_numberText hv.additionStart, headerNumber_numberText hv.additionCount]

/-! ## 切り分け -/

/-- `c` で始まる行には一致しない。 -/
def Ignores (re : Text → Option Nat) (c : Char) : Prop := ∀ t, re (c :: t) = none

section cut

variable {re : Text → Option Nat}

/-- 行の印を見ない pattern は、行を切らない。 -/
theorem quiet_renderLines (hre : ∀ k : LineKind, Ignores re k.marker) (t : Text) :
    ∀ {ls : List ChangedLine}, (∀ l ∈ ls, OneLine l.text) → Quiet re t (renderLines ls)
  | [], _ => .nil
  | l :: ls, h => by
    have ih := quiet_renderLines hre t fun l' hl' => h l' (List.mem_cons_of_mem _ hl')
    exact .line (oneLine_body (h l List.mem_cons_self)).1 (hre l.kind _) ih

theorem quiet_header (hold : Ignores re '-') (hnew : Ignores re '+') {f : FileChange}
    (hv : f.Valid) (t : Text) : Quiet re t f.header := by
  refine .line (hv.oldName.oneLine_marked (by decide) (by decide)).1 (hold _) ?_
  exact .line (hv.newName.oneLine_marked (by decide) (by decide)).1 (hnew _) .nil

end cut

theorem ignores_hunkSplit {c : Char} (hc : c ≠ '@') : Ignores hunkSplit c := by
  intro t
  unfold hunkSplit
  split
  · rename_i he
    exact absurd (List.cons.inj he).1 hc
  · rfl

theorem hunkSplit_eq (t : Text) :
    hunkSplit t = if ['@', '@', ' '] <+: t then some ['@', '@', ' '].length else none := by
  unfold hunkSplit
  split
  · next t => exact (if_pos (List.prefix_append _ _)).symm
  · next hne =>
    rw [if_neg]
    rintro ⟨u, rfl⟩
    exact hne u rfl

/-- 行の切れ目の後は、`@@ ` の一致に関わらない。 -/
theorem lineLocal_hunkSplit : LineLocal hunkSplit := .of_pattern (by decide) (by decide) hunkSplit_eq

theorem LineKind.marker_ne_at (k : LineKind) : k.marker ≠ '@' := by
  cases k <;> decide

/-- hunk の見出しの手前で切られる。 -/
theorem cutGo_renderHunks : ∀ {hs : List HunkChange}, (∀ h ∈ hs, h.Valid) →
    cutGo hunkSplit 0 true (renderHunks hs) = ([], hs.map renderHunk)
  | [], _ => rfl
  | h :: hs, hv => by
    have hh := hv h List.mem_cons_self
    have ih := cutGo_renderHunks fun h' hh' => hv h' (List.mem_cons_of_mem _ hh')
    have hlines := (quiet_renderLines (fun k => ignores_hunkSplit k.marker_ne_at)
      (renderHunks hs) hh.lines).cutGo_eq
    have hmatch : ∀ t, hunkSplit (h.header ++ t) = some 3 := by
      intro t
      rw [h.header_eq]
      rfl
    have hlen : 3 ≤ h.header.length + 1 := by
      rw [h.header_eq]
      simp
    have hne : h.header ≠ [] := by
      rw [h.header_eq]
      exact List.cons_ne_nil _ _
    rw [renderHunks, renderHunk, List.append_assoc, List.cons_append,
      cutGo_match (oneLine_header hh).1 hne (hmatch _) hlen, hlines, ih, List.append_nil,
      List.map_cons, renderHunk]

/-- file を切り分けると、見出しと hunk になる。 -/
theorem splitAtMatches_renderFile {f : FileChange} (hv : f.Valid) :
    splitAtMatches hunkSplit (renderFile f) = f.header :: f.hunks.map renderHunk := by
  have hquiet := (quiet_header (ignores_hunkSplit (by decide)) (ignores_hunkSplit (by decide)) hv
    (renderHunks f.hunks)).cutGo_eq
  have hne : f.header ≠ [] := List.cons_ne_nil _ _
  have hcut : cut hunkSplit (renderFile f) = f.header :: f.hunks.map renderHunk := by
    rw [cut, renderFile, hquiet, cutGo_renderHunks hv.hunks, List.append_nil, if_neg hne]
  rw [splitAtMatches, hcut, if_neg (List.cons_ne_nil _ _)]

section file

variable {decimal : Char → Bool}

/-- hunk の部分を一つ読む。 -/
theorem processSection_renderHunk
    (hd : ∀ c : Char, c.toNat < 128 → decimal c = isAsciiDigit c) {file : FileDiffMetadata}
    (hw : file.Within) {h : HunkChange} (hv : h.Valid) (lastHunkEnd : Nat) :
    ∃ file' lastHunkEnd', processSection decimal false (some file, lastHunkEnd) (renderHunk h)
      = (some file', lastHunkEnd') ∧ HunkRead file h.reading file' := by
  have hsplit : splitWithNewlines (renderHunk h)
      = (h.header ++ ['\n']) :: splitWithNewlines (renderLines h.lines) :=
    splitInclusive_append_newline (oneLine_header hv).1 _
  simp only [processSection, hsplit, trimLine_append_newline (oneLine_header hv),
    hunkHeader_header hd hv]
  exact ⟨_, _, rfl, hunkRead_parseHunk hw hv lastHunkEnd h.header⟩

/-- hunk を順に読む。 -/
theorem foldl_processSection_renderHunk
    (hd : ∀ c : Char, c.toNat < 128 → decimal c = isAsciiDigit c) :
    ∀ {hs : List HunkChange} {file : FileDiffMetadata} (lastHunkEnd : Nat), file.Within →
      (∀ h ∈ hs, h.Valid) →
      ∃ file', ((hs.map renderHunk).foldl (processSection decimal false)
          (some file, lastHunkEnd)).1 = some file'
        ∧ file'.changeType = file.changeType ∧ file'.name = file.name
        ∧ file'.prevName = file.prevName
        ∧ file'.reading.hunks = file.reading.hunks ++ hs.map HunkChange.reading
  | [], file, _, _, _ => ⟨file, rfl, rfl, rfl, rfl, (List.append_nil _).symm⟩
  | h :: hs, file, lastHunkEnd, hw, hv => by
    obtain ⟨file₁, e₁, hstep, hread⟩ :=
      processSection_renderHunk hd hw (hv h List.mem_cons_self) lastHunkEnd
    obtain ⟨file', hrun, htype, hname, hprev, hhunks⟩ :=
      foldl_processSection_renderHunk hd e₁ hread.within
        fun h' hh' => hv h' (List.mem_cons_of_mem _ hh')
    refine ⟨file', ?_, htype.trans hread.changeType, hname.trans hread.name,
      hprev.trans hread.prevName, ?_⟩
    · rw [List.map_cons, List.foldl_cons, hstep, hrun]
    · rw [hhunks, hread.hunks, List.append_assoc, List.map_cons, List.singleton_append]

/-- 見出しだけを読んだ file。 -/
def FileChange.headerFile (f : FileChange) : FileDiffMetadata :=
  { emptyFile with
    name := f.name
    prevName := if f.oldName ≠ devNull then some f.oldName else none }

/-- 書いた file の見出しを読む。 -/
theorem parseFileHeader_header {f : FileChange} (hv : f.Valid) :
    parseFileHeader emptyFile (splitWithNewlines f.header) false = f.headerFile := by
  have hsplit : splitWithNewlines f.header
      = ["--- ".toList ++ f.oldName ++ ['\n'], "+++ ".toList ++ f.newName ++ ['\n']] := by
    have hold := (hv.oldName.oneLine_marked (c := '-') (by decide) (by decide)).1
    have hnew := (hv.newName.oneLine_marked (c := '+') (by decide) (by decide)).1
    rw [splitWithNewlines, FileChange.header]
    refine (splitInclusive_append_newline hold _).trans ?_
    exact congrArg _ (splitInclusive_append_newline hnew [])
  rw [hsplit, parseFileHeader, List.foldl_cons, List.foldl_cons, List.foldl_nil,
    hv.oldName.parseFileHeaderLine_old, hv.newName.parseFileHeaderLine_new]
  unfold FileChange.headerFile FileChange.name
  by_cases hold : f.oldName = devNull <;> by_cases hnew : f.newName = devNull <;>
    simp [hold, hnew, emptyFile]

/-- 種類が決まっていない file の終わり。前の名前は、後の名前と違うときだけ残る。 -/
theorem reading_finishFile {file : FileDiffMetadata} (h : file.changeType = .change) :
    (finishFile false file).reading
      = { file.reading with prevName := file.prevName.filter (· ≠ file.name) } := by
  unfold finishFile
  rcases hprev : file.prevName with _ | prev
  · simp [h, FileDiffMetadata.reading]
  · by_cases hname : prev = file.name
    · simp [h, hname, FileDiffMetadata.reading, Option.filter]
    · by_cases hhunks : file.hunks = []
      · simp [hprev, hname, hhunks, FileDiffMetadata.reading, Option.filter]
      · simp [hprev, hname, hhunks, FileDiffMetadata.reading, Option.filter]

/-- 書いた file を読むと、元の変更に戻る。 -/
theorem processFile_renderFile (hd : ∀ c : Char, c.toNat < 128 → decimal c = isAsciiDigit c)
    {f : FileChange} (hv : f.Valid) :
    ∃ file, processFile decimal (renderFile f) false = some file ∧ file.reading = f.reading := by
  have hfirst : processSection decimal false (none, 0) f.header
      = (some (parseFileHeader emptyFile (splitWithNewlines f.header) false), 0) := by
    unfold processSection
    cases hlines : splitWithNewlines f.header with
    | nil =>
      have hflat := flatten_splitInclusive f.header
      rw [show splitInclusive f.header = [] from hlines] at hflat
      exact absurd hflat.symm (List.cons_ne_nil _ _)
    | cons first rest => rfl
  rw [parseFileHeader_header hv] at hfirst
  have hw : f.headerFile.Within := fun h hh => absurd hh List.not_mem_nil
  obtain ⟨file, hrun, htype, hname, hprev, hhunks⟩ :=
    foldl_processSection_renderHunk hd 0 hw hv.hunks
  refine ⟨finishFile false file, ?_, ?_⟩
  · rw [processFile, splitAtMatches_renderFile hv, List.foldl_cons, hfirst, hrun, Option.map_some]
  · replace hname : file.name = f.name := hname
    have hreading : file.reading = ⟨f.name, f.headerFile.prevName, f.hunks.map HunkChange.reading⟩ :=
      FileReading.ext hname hprev hhunks
    rw [reading_finishFile htype, hprev, hname, hreading, FileChange.reading]
    by_cases hold : f.oldName = devNull
    · simp [FileChange.headerFile, hold]
    · have hp : f.headerFile.prevName = some f.oldName := if_pos hold
      rw [hp]
      by_cases hsame : f.oldName = f.name <;> simp [hold, hsame, Option.filter]

end file

end Cassy.Diffs
