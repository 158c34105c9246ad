import Cassy.Properties.PatchRead

/-!
# git の見出しの名前

git は、制御文字・二重引用符・逆斜線の無い path を、引用符を付けずに印字する。`diff --git a/p b/p` には二つの名前の
区切りが無いので、名前の切れ目は正規表現の短い一致が決める。

* 切れ目は最初の ` b/` である。`p` が ` b/` を含めば、`p` の途中で切れる
* `---` と `+++` の行があれば、名前はその行で上書きされる。名前の変わらない mode の変更や空の file には無い
* どの名前も前後の空白を落とされる
-/

namespace Cassy.Diffs

open Infra

/-! ## git の印字 -/

/-- 名前を変えない見出しの行。 -/
structure PlainLine (line : Text) : Prop where
  oneLine : OneLine line
  notHunk : hunkSplit line = none
  notDiff : "diff --git".toList.isPrefixOf line = false
  notFileName : filenameHeaderGit line = none
  notSimilarity : "similarity index".toList.isPrefixOf line = false
  notRenameFrom : "rename from ".toList.isPrefixOf line = false
  notRenameTo : "rename to ".toList.isPrefixOf line = false

/-- `---` と `+++` の行。無い側は `/dev/null` である。git は空白を含む名前の後に tab を足す。 -/
structure FileNameLines where
  oldSide : Bool
  newSide : Bool
  tab : Bool
  deriving DecidableEq, Repr

/-- 名前の変更の無い、一つの file の diff。 -/
structure GitFileDiff where
  path : Text
  path_ne_nil : path ≠ []
  unquoted : ∀ c ∈ path, ' ' ≤ c ∧ c ≠ '\x7f' ∧ c ≠ '"' ∧ c ≠ '\\'
  /-- mode や `index` の行。 -/
  metadata : List Text
  plain : ∀ line ∈ metadata, PlainLine line
  fileNames : Option FileNameLines
  /-- hunk。 -/
  body : Text
  hunks : body = [] ∨ (hunkSplit body).isSome

/-- ` b/` で区切った二つの名前。 -/
def twoNames (p : Text) : Text := p ++ ' ' :: 'b' :: '/' :: p

namespace GitFileDiff

variable (g : GitFileDiff)

/-- `diff --git` の行。 -/
def diffLine : Text := "diff --git a/".toList ++ twoNames g.path

/-- `---` か `+++` の後の名前。 -/
def sideName (side : Char) (isPresent tab : Bool) : Text :=
  if isPresent then side :: '/' :: (g.path ++ if tab then ['\t'] else []) else devNull

/-- `---` と `+++` の行。 -/
def nameLines : List Text :=
  match g.fileNames with
  | none => []
  | some names =>
    ["--- ".toList ++ g.sideName 'a' names.oldSide names.tab,
      "+++ ".toList ++ g.sideName 'b' names.newSide names.tab]

/-- 見出しの行。 -/
def headerLines : List Text := g.diffLine :: (g.metadata ++ g.nameLines)

/-- 見出し。 -/
def header : Text := unlines g.headerLines

/-- diff の text。 -/
def text : Text := g.header ++ g.body

/-- `---` か `+++` の行が path を挙げる。 -/
def isNamed : Bool := g.fileNames.any fun names => names.oldSide || names.newSide

end GitFileDiff

/-! ## 見出しの行 -/

section lines

variable {g : GitFileDiff} {c : Char}

namespace GitFileDiff

theorem oneLine_path : OneLine g.path := by
  constructor
  · intro h
    exact absurd (g.unquoted _ h).1 (by decide)
  · intro h
    exact absurd (g.unquoted _ h).1 (by decide)

theorem oneLine_diffLine : OneLine g.diffLine := by
  have hsep := ((oneLine_path (g := g).cons (c := '/') (by decide) (by decide)).cons (c := 'b')
    (by decide) (by decide)).cons (c := ' ') (by decide) (by decide)
  refine OneLine.append ?_ (oneLine_path.append hsep)
  unfold OneLine
  decide

theorem oneLine_sideName {side : Char} (hside : side = 'a' ∨ side = 'b') (isPresent tab : Bool) :
    OneLine (g.sideName side isPresent tab) := by
  cases isPresent with
  | false =>
    show OneLine devNull
    unfold OneLine
    decide
  | true =>
    have htab : OneLine (if tab then ['\t'] else []) := by
      cases tab <;> simp [OneLine]
    have hname := oneLine_path (g := g) |>.append htab
    rcases hside with rfl | rfl
    · exact (hname.cons (by decide) (by decide)).cons (by decide) (by decide)
    · exact (hname.cons (by decide) (by decide)).cons (by decide) (by decide)

theorem oneLine_nameLines : ∀ line ∈ g.nameLines, OneLine line := by
  unfold nameLines
  intro line hline
  cases hnames : g.fileNames with
  | none =>
    rw [hnames] at hline
    cases hline
  | some names =>
    rw [hnames] at hline
    have hmark : ∀ m : Text, m = "--- ".toList ∨ m = "+++ ".toList → OneLine m := by
      rintro m (rfl | rfl) <;> (unfold OneLine; decide)
    rcases List.mem_cons.mp hline with rfl | hline
    · exact (hmark _ (.inl rfl)).append (oneLine_sideName (.inl rfl) _ _)
    · rw [List.mem_singleton.mp hline]
      exact (hmark _ (.inr rfl)).append (oneLine_sideName (.inr rfl) _ _)

/-- 見出しの行は一行で、hunk の見出しではない。 -/
theorem headerLines_ok : ∀ line ∈ g.headerLines, OneLine line ∧ hunkSplit line = none := by
  intro line hline
  rcases List.mem_cons.mp hline with rfl | hline
  · exact ⟨oneLine_diffLine, rfl⟩
  rcases List.mem_append.mp hline with hline | hline
  · exact ⟨(g.plain line hline).oneLine, (g.plain line hline).notHunk⟩
  · refine ⟨oneLine_nameLines line hline, ?_⟩
    unfold nameLines at hline
    split at hline
    · cases hline
    · rcases List.mem_cons.mp hline with rfl | hline
      · rfl
      · rw [List.mem_singleton.mp hline]
        rfl

end GitFileDiff

end lines

/-! ## 切れ目 -/

/-- 正規表現の、前の名前が `k` 文字のときの一致。 -/
def cutName (t : Text) (k : Nat) : Option (Text × Text) :=
  match t.drop k with
  | ' ' :: rest => (alternateName rest).map (t.take k, ·)
  | _ => none

/-- 小さい方から探した数。 -/
theorem findSome?_range' {α : Type} {f : Nat → Option α} {a : α} : ∀ {n s : Nat},
    (List.range' s n).findSome? f = some a →
      ∃ k, s ≤ k ∧ k < s + n ∧ f k = some a ∧ ∀ j, s ≤ j → j < k → f j = none
  | 0, _, h => by cases h
  | n + 1, s, h => by
    rw [List.range'_succ, List.findSome?_cons] at h
    cases hs : f s with
    | some b =>
      rw [hs] at h
      exact ⟨s, Nat.le_refl _, by omega, hs.trans h, fun j hj hj' => by omega⟩
    | none =>
      rw [hs] at h
      obtain ⟨k, hk, hkn, hfk, hbefore⟩ := findSome?_range' h
      refine ⟨k, by omega, by omega, hfk, fun j hj hj' => ?_⟩
      rcases Nat.eq_or_lt_of_le hj with rfl | hj
      · exact hs
      · exact hbefore j hj hj'

theorem alternateName_eq_some {rest u : Text} (hq : '"' ∉ rest) :
    alternateName rest = some u ↔ rest = 'b' :: '/' :: u ∧ u ≠ [] := by
  unfold alternateName
  split
  · simp at hq
  · next t =>
    by_cases ht : t = []
    · simp only [ht, if_true, List.cons.injEq, true_and, reduceCtorEq, false_iff, not_and, not_not]
      rintro rfl
      rfl
    · simp only [ht, if_false, Option.some.injEq, List.cons.injEq, true_and]
      constructor
      · rintro rfl
        exact ⟨rfl, ht⟩
      · rintro ⟨rfl, -⟩
        rfl
  · next hne =>
    simp only [reduceCtorEq, false_iff, not_and]
    rintro rfl
    exact absurd rfl (hne u)

theorem cutName_eq_some {t x u : Text} {k : Nat} (hq : '"' ∉ t) :
    cutName t k = some (x, u) ↔ t.drop k = ' ' :: 'b' :: '/' :: u ∧ u ≠ [] ∧ x = t.take k := by
  have hdrop : '"' ∉ t.drop k := fun h => hq (List.mem_of_mem_drop h)
  unfold cutName
  split
  · next rest hrest =>
    rw [hrest] at hdrop
    have hq' : '"' ∉ rest := fun h => hdrop (.tail _ h)
    rw [Option.map_eq_some_iff, hrest, List.cons.injEq]
    constructor
    · rintro ⟨v, hv, he⟩
      obtain ⟨rfl, rfl⟩ := Prod.mk.inj he
      obtain ⟨hb, hne⟩ := (alternateName_eq_some hq').mp hv
      exact ⟨⟨rfl, hb⟩, hne, rfl⟩
    · rintro ⟨⟨-, hb⟩, hne, rfl⟩
      exact ⟨u, (alternateName_eq_some hq').mpr ⟨hb, hne⟩, rfl⟩
  · next hne =>
    simp only [reduceCtorEq, false_iff, not_and]
    intro h
    exact absurd h (hne _)

section cut

variable {p : Text}

theorem alternateFileNamesGit_twoNames :
    alternateFileNamesGit ("diff --git a/".toList ++ twoNames p)
      = (List.range' 1 (twoNames p).length).findSome? (cutName (twoNames p)) := rfl

theorem not_mem_twoNames {c : Char} (hc : c ∉ p) (h : c ≠ ' ') (h' : c ≠ 'b') (h'' : c ≠ '/') :
    c ∉ twoNames p := by
  simp [twoNames, hc, h, h', h'']

/-- 二つの名前の間より手前の切れ目は、前の名前の中にある。 -/
theorem infix_of_drop_twoNames {k : Nat} (hk : k < p.length) {u : Text}
    (hu : (twoNames p).drop k = ' ' :: 'b' :: '/' :: u) : [' ', 'b', '/'] <:+: p := by
  have hq : (twoNames p).drop k = p.drop k ++ ' ' :: 'b' :: '/' :: p :=
    List.drop_append_of_le_length (by omega)
  rw [hq] at hu
  have hsuffix := List.drop_suffix k p
  match hd : p.drop k, hu with
  | [], _ => exact absurd (List.drop_eq_nil_iff.mp hd) (by omega)
  | [a], hu =>
    simp at hu
  | [a, b], hu =>
    simp at hu
  | a :: b :: c :: rest, hu =>
    simp only [List.cons_append, List.cons.injEq] at hu
    obtain ⟨rfl, rfl, rfl, -⟩ := hu
    rw [hd] at hsuffix
    exact List.IsInfix.trans ⟨[], rest, rfl⟩ hsuffix.isInfix

/-- ` b/` の無い path は、二つの名前の間で切れる。 -/
theorem cut_twoNames_of_absent (hne : p ≠ []) (hq : '"' ∉ p)
    (hb : ¬ [' ', 'b', '/'] <:+: p) :
    alternateFileNamesGit ("diff --git a/".toList ++ twoNames p) = some (p, p) := by
  have hq' := not_mem_twoNames hq (by decide) (by decide) (by decide)
  have hpos : 0 < p.length := List.length_pos_iff.mpr hne
  have hmid : cutName (twoNames p) p.length = some (p, p) :=
    (cutName_eq_some hq').mpr ⟨by simp [twoNames], hne, by simp [twoNames]⟩
  rw [alternateFileNamesGit_twoNames]
  cases hfind : (List.range' 1 (twoNames p).length).findSome? (cutName (twoNames p)) with
  | none =>
    have hnone := List.findSome?_eq_none_iff.mp hfind p.length
      (List.mem_range'_1.mpr ⟨hpos, by simp [twoNames]; omega⟩)
    rw [hmid] at hnone
    cases hnone
  | some r =>
    obtain ⟨k, hk, -, hfk, hbefore⟩ := findSome?_range' hfind
    obtain ⟨hdrop, -, -⟩ := (cutName_eq_some (x := r.1) (u := r.2) hq').mp hfk
    rcases Nat.lt_trichotomy k p.length with hlt | rfl | hgt
    · exact absurd (infix_of_drop_twoNames hlt hdrop) hb
    · exact hfk.symm.trans hmid
    · have hnone := hbefore p.length hpos hgt
      rw [hmid] at hnone
      cases hnone

/-- ` b/` のある path は、その手前か、そこで切れる。 -/
theorem cut_twoNames_of_infix (hq : '"' ∉ p) (h : trim p = p) (hb : [' ', 'b', '/'] <:+: p) :
    ∃ x y, alternateFileNamesGit ("diff --git a/".toList ++ twoNames p)
      = some (x, y ++ ' ' :: 'b' :: '/' :: p) := by
  have hq' := not_mem_twoNames hq (by decide) (by decide) (by decide)
  obtain ⟨x, y, hp⟩ := hb
  have hx : x ≠ [] := by
    rintro rfl
    have hstart := trimStart_eq_of_length (congrArg List.length h)
    rw [← hp] at hstart
    have hlen := congrArg List.length hstart
    have hle : (trimStart ('b' :: '/' :: y)).length ≤ ('b' :: '/' :: y).length :=
      (List.dropWhile_suffix isWhitespace).length_le
    have hdrop : trimStart ([] ++ [' ', 'b', '/'] ++ y) = trimStart ('b' :: '/' :: y) := rfl
    rw [hdrop] at hlen
    simp only [List.nil_append, List.cons_append, List.length_cons] at hlen hle
    omega
  have hpos : 0 < x.length := List.length_pos_iff.mpr hx
  have htwo : twoNames p = x ++ ' ' :: 'b' :: '/' :: (y ++ ' ' :: 'b' :: '/' :: p) := by
    conv_lhs => rw [twoNames, ← hp]
    simp [← hp]
  have hat : cutName (twoNames p) x.length = some (x, y ++ ' ' :: 'b' :: '/' :: p) :=
    (cutName_eq_some hq').mpr ⟨by rw [htwo]; simp, by simp, by rw [htwo]; simp⟩
  rw [alternateFileNamesGit_twoNames]
  cases hfind : (List.range' 1 (twoNames p).length).findSome? (cutName (twoNames p)) with
  | none =>
    have hnone := List.findSome?_eq_none_iff.mp hfind x.length
      (List.mem_range'_1.mpr ⟨hpos, by rw [htwo]; simp; omega⟩)
    rw [hat] at hnone
    cases hnone
  | some r =>
    obtain ⟨k, hk, -, hfk, hbefore⟩ := findSome?_range' hfind
    obtain ⟨hdrop, -, -⟩ := (cutName_eq_some (x := r.1) (u := r.2) hq').mp hfk
    have hle : k ≤ x.length := by
      by_contra hlt
      have hnone := hbefore x.length hpos (by omega)
      rw [hat] at hnone
      cases hnone
    have hplen : x.length + 3 + y.length = p.length := by
      rw [← hp]
      simp
      omega
    -- 切れ目の後は、`p` の残りに ` b/` と `p` が続く。
    have hrest : r.2 = p.drop (k + 3) ++ ' ' :: 'b' :: '/' :: p := by
      have h3 := congrArg (List.drop 3) hdrop
      rw [List.drop_drop, twoNames, List.drop_append_of_le_length (by omega)] at h3
      exact h3.symm
    exact ⟨r.1, p.drop (k + 3), by rw [← hrest]⟩

end cut

/-! ## 見出しを読む -/

section read

variable {g : GitFileDiff} {file : FileDiffMetadata} {decimal : Char → Bool}

/-- 種類が名前の変更でない。 -/
def NotRenamed (file : FileDiffMetadata) : Prop :=
  file.changeType ≠ .renamePure ∧ file.changeType ≠ .renameChanged

theorem notRenamed_of (t : ChangeType) (h : file.changeType = t)
    (ht : t ≠ .renamePure ∧ t ≠ .renameChanged) : NotRenamed file := by
  rw [NotRenamed, h]
  exact ht

theorem name_parseGitMetadataLine {line : Text} (h : PlainLine line) (hf : NotRenamed file) :
    (parseGitMetadataLine file line).name = file.name ∧ NotRenamed (parseGitMetadataLine file line) := by
  have hfull : "similarity index 100%".toList.isPrefixOf line = false := by
    rw [Bool.eq_false_iff]
    intro hpre
    have hprefix := List.isPrefixOf_iff_prefix.mp hpre
    have hshort : "similarity index".toList <+: line :=
      List.IsPrefix.trans ⟨" 100%".toList, rfl⟩ hprefix
    have hnot := h.notSimilarity
    rw [List.isPrefixOf_iff_prefix.mpr hshort] at hnot
    cases hnot
  unfold parseGitMetadataLine
  rw [hfull, h.notSimilarity, h.notRenameFrom, h.notRenameTo]
  by_cases hnew : "new file mode".toList.isPrefixOf line = true
  · rw [if_pos hnew]
    exact ⟨rfl, notRenamed_of .new rfl (by decide)⟩
  · rw [if_neg hnew]
    by_cases hdeleted : "deleted file mode".toList.isPrefixOf line = true
    · rw [if_pos hdeleted]
      exact ⟨rfl, notRenamed_of .deleted rfl (by decide)⟩
    · rw [if_neg hdeleted]
      exact ⟨rfl, hf⟩

/-- 名前を変えない行。 -/
theorem name_plainLine {line : Text} (h : PlainLine line) (hf : NotRenamed file) :
    (parseFileHeaderLine true file (line ++ ['\n'])).name = file.name
      ∧ NotRenamed (parseFileHeaderLine true file (line ++ ['\n'])) := by
  have hstep : parseFileHeaderLine true file (line ++ ['\n']) = parseGitMetadataLine file line := by
    simp only [parseFileHeaderLine, trimLine_append_newline h.oneLine, h.notDiff, if_true,
      h.notFileName]
    rfl
  rw [hstep]
  exact name_parseGitMetadataLine h hf

theorem name_plainLines : ∀ {ls : List Text} {file : FileDiffMetadata},
    (∀ line ∈ ls, PlainLine line) → NotRenamed file →
    (parseFileHeader file (ls.map (· ++ ['\n'])) true).name = file.name
      ∧ NotRenamed (parseFileHeader file (ls.map (· ++ ['\n'])) true)
  | [], _, _, hf => ⟨rfl, hf⟩
  | l :: ls, file, h, hf => by
    obtain ⟨hname, hnot⟩ := name_plainLine (h l (.head _)) hf
    obtain ⟨hname', hnot'⟩ := name_plainLines (fun line hline => h line (.tail _ hline)) hnot
    exact ⟨hname'.trans hname, hnot'⟩

namespace GitFileDiff

theorem isNameChar_path : ∀ c ∈ g.path, isNameChar c = true := by
  intro c hc
  have hle := (g.unquoted c hc).1
  have hne : ∀ d : Char, d < ' ' → c ≠ d := by
    rintro d hd rfl
    exact absurd hd (Char.not_lt.mpr hle)
  simp [isNameChar, hne '\t' (by decide), hne '\r' (by decide), hne '\n' (by decide)]

theorem nameText_path (tab : Bool) :
    nameText (g.path ++ if tab then ['\t'] else []) = some g.path := by
  have htake : (g.path ++ if tab then ['\t'] else []).takeWhile isNameChar = g.path := by
    rw [List.takeWhile_append_of_pos isNameChar_path]
    cases tab with
    | true => exact List.append_nil _
    | false => exact List.append_nil _
  rw [nameText, htake, if_neg g.path_ne_nil]

/-- 空白一つの後の名前。 -/
theorem afterSpaces_sideName {side : Char} (hside : side = 'a' ∨ side = 'b') (isPresent tab : Bool) :
    afterSpaces (' ' :: g.sideName side isPresent tab) gitNameText
      = if isPresent then some g.path else none := by
  have hspaces : (' ' :: g.sideName side isPresent tab).takeWhile isWhitespace = [' '] := by
    rw [List.takeWhile_cons_of_pos (by decide)]
    cases isPresent with
    | false => rfl
    | true => rcases hside with rfl | rfl <;> rfl
  rw [afterSpaces, hspaces]
  cases isPresent with
  | false => rfl
  | true =>
    have hname : gitNameText (g.sideName side true tab) = some g.path := by
      show (if side = 'a' ∨ side = 'b' then nameText _ else none) = _
      rw [if_pos hside, nameText_path]
    simp [hname]

/-- `---` か `+++` の行。 -/
theorem name_nameLine {mark : Char} (hmark : mark = '-' ∨ mark = '+') {side : Char}
    (hside : side = 'a' ∨ side = 'b') (isPresent tab : Bool) (hf : NotRenamed file) :
    let line := mark :: mark :: mark :: ' ' :: g.sideName side isPresent tab
    (parseFileHeaderLine true file (line ++ ['\n'])).name
        = (if isPresent ∧ trim g.path ≠ devNull then trim g.path else file.name)
      ∧ NotRenamed (parseFileHeaderLine true file (line ++ ['\n'])) := by
  intro line
  have hone : OneLine line := by
    have h := (oneLine_sideName (g := g) hside isPresent tab).cons (c := ' ') (by decide) (by decide)
    rcases hmark with rfl | rfl
    · exact ((h.cons (by decide) (by decide)).cons (by decide) (by decide)).cons (by decide) (by decide)
    · exact ((h.cons (by decide) (by decide)).cons (by decide) (by decide)).cons (by decide) (by decide)
  have hline : trimLine (line ++ ['\n']) = line := trimLine_append_newline hone
  have hdiff : "diff --git".toList.isPrefixOf line = false := by
    rcases hmark with rfl | rfl <;> rfl
  have hheader : filenameHeaderGit line
      = (if isPresent then some g.path else none).map (decide (mark = '-'), ·) := by
    rcases hmark with rfl | rfl
    · show (afterSpaces _ gitNameText).map _ = _
      rw [afterSpaces_sideName hside]
      rfl
    · show (afterSpaces _ gitNameText).map _ = _
      rw [afterSpaces_sideName hside]
      rfl
  have hmeta : parseGitMetadataLine file line = file := by
    rcases hmark with rfl | rfl <;> rfl
  simp only [parseFileHeaderLine, hline, hdiff, if_true, hheader]
  cases isPresent with
  | false => simp [hmeta, hf]
  | true =>
    by_cases hnull : trim g.path = devNull
    · simp [hnull, hf]
    · rcases hmark with rfl | rfl
      · simp only [hnull, ne_eq, not_false_eq_true, and_true, if_true, Option.map_some, decide_true]
        exact ⟨rfl, hf⟩
      · simp only [hnull, ne_eq, not_false_eq_true, and_true, if_true, Option.map_some]
        exact ⟨rfl, hf⟩

/-- `---` と `+++` の行。 -/
theorem name_nameLines (hf : NotRenamed file) :
    (parseFileHeader file (g.nameLines.map (· ++ ['\n'])) true).name
        = (if g.isNamed = true ∧ trim g.path ≠ devNull then trim g.path else file.name)
      ∧ NotRenamed (parseFileHeader file (g.nameLines.map (· ++ ['\n'])) true) := by
  unfold nameLines isNamed
  cases hnames : g.fileNames with
  | none => exact ⟨by simp [parseFileHeader], hf⟩
  | some names =>
    obtain ⟨oldSide, newSide, tab⟩ := names
    obtain ⟨hold, hf'⟩ := name_nameLine (g := g) (.inl rfl) (.inl rfl) oldSide tab hf
    obtain ⟨hnew, hf''⟩ := name_nameLine (g := g) (.inr rfl) (.inr rfl) newSide tab hf'
    have hfold : ∀ l l' : Text, parseFileHeader file ([l, l'].map (· ++ ['\n'])) true
        = parseFileHeaderLine true (parseFileHeaderLine true file (l ++ ['\n'])) (l' ++ ['\n']) :=
      fun _ _ => rfl
    dsimp only
    rw [hfold]
    refine ⟨hnew.trans ?_, hf''⟩
    rw [hold]
    by_cases hnull : trim g.path = devNull
    · simp [hnull]
    · cases oldSide <;> cases newSide <;> simp [hnull]

/-- `diff --git` の行から読む名前。 -/
def diffName (g : GitFileDiff) : Text :=
  ((alternateFileNamesGit (trim g.diffLine)).map fun r => trim r.2).getD []

/-- `diff --git` の行。 -/
theorem name_diffLine :
    (parseFileHeaderLine true emptyFile (g.diffLine ++ ['\n'])).name = g.diffName
      ∧ NotRenamed (parseFileHeaderLine true emptyFile (g.diffLine ++ ['\n'])) := by
  have hdiff : "diff --git".toList.isPrefixOf g.diffLine = true := rfl
  simp only [parseFileHeaderLine, trimLine_append_newline oneLine_diffLine, hdiff, if_true, diffName]
  cases hcut : alternateFileNamesGit (trim g.diffLine) with
  | none => exact ⟨rfl, notRenamed_of .change rfl (by decide)⟩
  | some r =>
    dsimp only
    split
    · exact ⟨rfl, notRenamed_of .change rfl (by decide)⟩
    · exact ⟨rfl, notRenamed_of .change rfl (by decide)⟩

/-- 見出しを読み終えたときの名前。 -/
theorem name_header :
    (parseFileHeader emptyFile (g.headerLines.map (· ++ ['\n'])) true).name
        = (if g.isNamed = true ∧ trim g.path ≠ devNull then trim g.path else g.diffName)
      ∧ NotRenamed (parseFileHeader emptyFile (g.headerLines.map (· ++ ['\n'])) true) := by
  obtain ⟨hdiff, hf⟩ := name_diffLine (g := g)
  obtain ⟨hmeta, hf'⟩ := name_plainLines g.plain hf
  obtain ⟨hname, hf''⟩ := name_nameLines (g := g) hf'
  have hfold : parseFileHeader emptyFile (g.headerLines.map (· ++ ['\n'])) true
      = parseFileHeader (parseFileHeader (parseFileHeaderLine true emptyFile (g.diffLine ++ ['\n']))
          (g.metadata.map (· ++ ['\n'])) true) (g.nameLines.map (· ++ ['\n'])) true := by
    simp [parseFileHeader, headerLines, List.foldl_append]
  rw [hfold, hname, hmeta, hdiff]
  exact ⟨rfl, hf''⟩

end GitFileDiff

/-- 空白でない文字より後は、頭から落ちない。 -/
theorem exists_trimStart_append {c : Char} (hc : isWhitespace c = false) (x y : Text) :
    ∃ z, trimStart (x ++ c :: y) = z ++ c :: y := by
  unfold trimStart
  rw [List.dropWhile_append]
  split
  · exact ⟨[], by rw [List.dropWhile_cons_of_neg (by simp [hc]), List.nil_append]⟩
  · exact ⟨_, rfl⟩

/-- 前後に空白の無い path では、`diff --git` の行から読む名前は、` b/` が無いときにだけ path である。 -/
theorem GitFileDiff.diffName_eq_iff (h : trim g.path = g.path) :
    g.diffName = g.path ↔ ¬ [' ', 'b', '/'] <:+: g.path := by
  have hq : '"' ∉ g.path := fun hmem => (g.unquoted _ hmem).2.2.1 rfl
  have hline : trim g.diffLine = "diff --git a/".toList ++ twoNames g.path := by
    have hstart : trim "diff --git a/".toList = "diff --git a/".toList := by decide
    have hne : "diff --git a/".toList ≠ [] := by decide
    have htrim := trim_append_append hstart hne h g.path_ne_nil (g.path ++ [' ', 'b', '/'])
    rw [List.append_assoc] at htrim
    exact htrim
  unfold diffName
  rw [hline]
  by_cases hb : [' ', 'b', '/'] <:+: g.path
  · obtain ⟨x, y, hcut⟩ := cut_twoNames_of_infix hq h hb
    rw [hcut]
    simp only [Option.map_some, Option.getD_some, hb, not_true_eq_false, iff_false]
    intro heq
    have hend : trimEnd g.path = g.path := by
      rw [trim, trimStart_eq_of_length (congrArg List.length h)] at h
      exact h
    obtain ⟨z, hz⟩ := exists_trimStart_append (c := 'b') (by decide) (y ++ [' ']) ('/' :: g.path)
    have hw : y ++ ' ' :: 'b' :: '/' :: g.path = y ++ [' '] ++ 'b' :: '/' :: g.path := by simp
    have hz' : z ++ 'b' :: '/' :: g.path = z ++ ['b', '/'] ++ g.path := by simp
    rw [hw, trim, hz, hz', trimEnd_append (by rw [hend]; exact g.path_ne_nil), hend] at heq
    have hlen := congrArg List.length heq
    simp only [List.length_append, List.length_cons, List.length_nil] at hlen
    omega
  · rw [cut_twoNames_of_absent g.path_ne_nil hq hb]
    simp [h, hb]

/-- 読む名前は、どれも前後の空白を落としてある。 -/
theorem GitFileDiff.trim_diffName : trim g.diffName = g.diffName := by
  unfold diffName
  cases alternateFileNamesGit (trim g.diffLine) with
  | none => rfl
  | some r => exact trim_idem r.2

/-- 見出しから読む名前が path であるのは、前後に空白が無く、` b/` が無いか別の行が path を挙げるときである。 -/
theorem GitFileDiff.name_eq_iff :
    (if g.isNamed = true ∧ trim g.path ≠ devNull then trim g.path else g.diffName) = g.path
      ↔ trim g.path = g.path ∧ (¬ [' ', 'b', '/'] <:+: g.path ∨ g.isNamed = true) := by
  by_cases htrim : trim g.path = g.path
  · by_cases hnamed : g.isNamed = true ∧ trim g.path ≠ devNull
    · rw [if_pos hnamed]
      simp [htrim, hnamed.1]
    · rw [if_neg hnamed, diffName_eq_iff htrim]
      constructor
      · intro hb
        exact ⟨htrim, .inl hb⟩
      · rintro ⟨-, hb | hname⟩
        · exact hb
        · -- path が `/dev/null` なら、` b/` は無い。
          have hnull : trim g.path = devNull := by
            by_contra hne
            exact hnamed ⟨hname, hne⟩
          rw [htrim] at hnull
          rw [hnull]
          decide +kernel
  · have hne : (if g.isNamed = true ∧ trim g.path ≠ devNull then trim g.path else g.diffName) ≠ g.path := by
      intro heq
      apply htrim
      split at heq
      · exact heq
      · rw [← heq]
        exact trim_diffName
    simp [hne, htrim]

/-! ## file を読む -/

/-- hunk を読んでも、名前と種類は変わらない。 -/
structure SameName (f f' : FileDiffMetadata) : Prop where
  name : f'.name = f.name
  changeType : f'.changeType = f.changeType

/-- 読み始めた後の部分は、名前と種類を変えない。 -/
theorem sameName_foldl : ∀ (parts : List Text) {f : FileDiffMetadata} {hunkEnd : Nat},
    ∃ f', (parts.foldl (processSection decimal true) (some f, hunkEnd)).1 = some f' ∧ SameName f f'
  | [], f, _ => ⟨f, rfl, rfl, rfl⟩
  | part :: parts, f, hunkEnd => by
    rw [List.foldl_cons]
    unfold processSection
    cases splitWithNewlines part with
    | nil => exact sameName_foldl parts
    | cons first rest =>
      dsimp only
      cases hunkHeader decimal (trimLine first) with
      | none => exact sameName_foldl parts
      | some header =>
        obtain ⟨f', hf', hsame⟩ := @sameName_foldl parts
          (parseHunk f hunkEnd (trimLine first) header rest).1
          (parseHunk f hunkEnd (trimLine first) header rest).2
        exact ⟨f', hf', hsame.name, hsame.changeType⟩

/-- 見出しの後で hunk が切られる。 -/
theorem GitFileDiff.splitAtMatches_text :
    ∃ parts, splitAtMatches hunkSplit g.text = g.header :: parts := by
  have hquiet := (lineLocal_hunkSplit.quiet g.body fun line hline =>
    ⟨(g.headerLines_ok line hline).1.1, (g.headerLines_ok line hline).2⟩).cutGo_eq
  have hne : g.header ≠ [] := unlines_ne_nil (List.cons_ne_nil _ _)
  have hbody : (cutGo hunkSplit 0 true g.body).1 = [] := by
    rcases g.hunks with h | h
    · rw [h]
      rfl
    · refine (cutGo_of_match h ?_).1
      rintro hnil
      rw [hnil] at h
      cases h
  have hcut : cut hunkSplit g.text = g.header :: (cutGo hunkSplit 0 true g.body).2 := by
    unfold cut
    rw [show cutGo hunkSplit 0 true g.text = _ from hquiet, hbody, List.append_nil]
    exact if_neg hne
  exact ⟨_, by rw [splitAtMatches, hcut, if_neg (List.cons_ne_nil _ _)]⟩

/--
**`diff --git a/p b/p` から読む名前は、`p` の前後に空白が無く、` b/` が無いか別の行が `p` を挙げるときにだけ、`p` である。**

前の名前は残らない。
-/
theorem git_header_name_iff (decimal : Char → Bool) (g : GitFileDiff) :
    ∃ f, processFile decimal g.text true = some f ∧
      (f.name = g.path ∧ f.prevName = none
        ↔ trim g.path = g.path ∧ (¬ [' ', 'b', '/'] <:+: g.path ∨ g.isNamed = true)) := by
  obtain ⟨parts, hparts⟩ := g.splitAtMatches_text
  have hlines : splitWithNewlines g.header = g.headerLines.map (· ++ ['\n']) :=
    splitInclusive_unlines fun line hline => (g.headerLines_ok line hline).1.1
  have hfirst : processSection decimal true (none, 0) g.header
      = (some (parseFileHeader emptyFile (g.headerLines.map (· ++ ['\n'])) true), 0) := by
    rw [processSection, hlines]
    rfl
  obtain ⟨hname, hnot⟩ := GitFileDiff.name_header (g := g)
  obtain ⟨f, hf, hsame⟩ := @sameName_foldl decimal parts
    (parseFileHeader emptyFile (g.headerLines.map (· ++ ['\n'])) true) 0
  refine ⟨finishFile true f, ?_, ?_⟩
  · rw [processFile, hparts, List.foldl_cons, hfirst, hf, Option.map_some]
  · have hprev : (finishFile true f).prevName = none := by
      have hchange : ¬ (f.changeType = .renamePure ∨ f.changeType = .renameChanged) := by
        rw [hsame.changeType]
        exact not_or.mpr hnot
      unfold finishFile
      cases f.prevName <;> simp [hchange]
    have hfinish : (finishFile true f).name = f.name := by
      unfold finishFile
      cases f.prevName <;> simp <;> split <;> rfl
    rw [hprev, hfinish, hsame.name, hname, GitFileDiff.name_eq_iff]
    simp

/-- mode だけを変えた `x b/y`。 -/
def modeChange : GitFileDiff where
  path := "x b/y".toList
  path_ne_nil := by decide
  unquoted := List.forall_iff_forall_mem.mp (by decide)
  metadata := ["old mode 100644".toList, "new mode 100755".toList]
  plain := by
    intro line hline
    simp only [List.mem_cons, List.not_mem_nil, or_false] at hline
    rcases hline with rfl | rfl <;>
      exact ⟨by unfold OneLine; decide, by decide, by decide, by decide, by decide, by decide, by decide⟩
  fileNames := none
  body := []
  hunks := .inl rfl

/-- 名前は最初の ` b/` で切れる。 -/
theorem inner_separator_cuts_name :
    modeChange.path = "x b/y".toList
      ∧ (processFile isAsciiDigit modeChange.text true).map (fun f => (f.name, f.prevName))
        = some ("y b/x b/y".toList, none) := by
  decide +kernel

end read

end Cassy.Diffs
