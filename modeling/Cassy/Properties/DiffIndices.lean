import Cassy.Properties.DiffExpand

/-!
# 差分の番号の指す行

`diff_files` の番号は、crate `similar` の行の番号をそのまま写したものである。一方、行の列は `split_inclusive('\n')` で
切る。`similar` は `\n`・`\r\n` のほか、単独の `\r` でも行を終える。

二つの切り方は、後に文字の続く単独の `\r` がどちらの本文にも無いときに一致する。無ければ、`similar` の返すどの組でも番号は
行の列に収まり、変わらない行は両側で等しい。あれば、本文が等しくない限り、番号が行の列を越える組がある。
-/

namespace Cassy.Diffs

open Infra

/-! ## 行の数 -/

theorem length_splitInclusive_cons (c : Char) (cs : Text) :
    (splitInclusive (c :: cs)).length
      = if c = '\n' then (splitInclusive cs).length + 1 else max 1 (splitInclusive cs).length := by
  rw [splitInclusive]
  split
  · rfl
  · split
    · next h => rw [h]; rfl
    · next h => rw [h]; simp

theorem length_fromLines_cons (c : Char) (cs : Text) :
    (fromLines (c :: cs)).length
      = if c = '\n' ∨ c = '\r' ∧ cs.head? ≠ some '\n' then (fromLines cs).length + 1
        else max 1 (fromLines cs).length := by
  rw [fromLines]
  split
  · rfl
  · split
    · next h => rw [h]; rfl
    · next h => rw [h]; simp

theorem length_splitInclusive_le : ∀ t : Text, (splitInclusive t).length ≤ (fromLines t).length
  | [] => Nat.le_refl _
  | c :: cs => by
    have ih := length_splitInclusive_le cs
    rw [length_splitInclusive_cons, length_fromLines_cons]
    by_cases hn : c = '\n'
    · rw [if_pos hn, if_pos (Or.inl hn)]
      omega
    · rw [if_neg hn]
      split <;> omega

/-- 文字の前に単独の `\r` があれば、`similar` の行の方が多い。 -/
theorem length_splitInclusive_lt : ∀ {t : Text}, hasInnerReturn t = true →
    (splitInclusive t).length < (fromLines t).length
  | c :: cs, h => by
    have hle := length_splitInclusive_le cs
    rw [length_splitInclusive_cons, length_fromLines_cons]
    rcases (Bool.or_eq_true _ _).mp h with hc | hcs
    · -- この文字が単独の `\r` である。後に文字が続くので、行が一つ増える。
      simp only [Bool.and_eq_true, beq_iff_eq, Bool.not_eq_true', List.isEmpty_eq_false_iff,
        bne_iff_ne] at hc
      obtain ⟨⟨rfl, hne⟩, hhead⟩ := hc
      obtain ⟨d, ds, rfl⟩ := List.exists_cons_of_ne_nil hne
      have hpos := length_splitInclusive_cons d ds
      rw [if_neg (by decide), if_pos (Or.inr ⟨rfl, hhead⟩)]
      split at hpos <;> omega
    · have ih := length_splitInclusive_lt hcs
      have hpos : 1 ≤ (splitInclusive cs).length := by
        cases cs with
        | nil => cases hcs
        | cons d ds =>
          rw [length_splitInclusive_cons]
          split <;> omega
      by_cases hn : c = '\n'
      · rw [if_pos hn, if_pos (Or.inl hn)]
        omega
      · rw [if_neg hn]
        split <;> omega

/-! ## 組の番号 -/

/-- 塊の範囲が行の列に収まり、変わらない行は両側で等しい。 -/
def HunkContent.IndicesOk (deletionLines additionLines : List Text) : HunkContent → Prop
  | .context c =>
    c.deletionLineIndex + c.lines ≤ deletionLines.length
      ∧ c.additionLineIndex + c.lines ≤ additionLines.length
      ∧ ∀ k < c.lines, deletionLines[c.deletionLineIndex + k]? = additionLines[c.additionLineIndex + k]?
  | .change c =>
    c.deletionLineIndex + c.deletions ≤ deletionLines.length
      ∧ c.additionLineIndex + c.additions ≤ additionLines.length

/-- hunk の範囲も、その塊の範囲も行の列に収まる。 -/
structure Hunk.IndicesOk (deletionLines additionLines : List Text) (hunk : Hunk) : Prop where
  deletion : hunk.deletionLineIndex + hunk.deletionCount ≤ deletionLines.length
  addition : hunk.additionLineIndex + hunk.additionCount ≤ additionLines.length
  content : ∀ c ∈ hunk.hunkContent, c.IndicesOk deletionLines additionLines

/-- どの hunk の番号も、実際の行を指す。 -/
def FileDiffMetadata.IndicesOk (f : FileDiffMetadata) : Prop :=
  ∀ hunk ∈ f.hunks, hunk.IndicesOk f.deletionLines f.additionLines

section groups

variable {i j i' j' m n context : Nat} {ops : List DiffOp} {groups : List (List DiffOp)}

/-- 続いている操作は、始まりと終わりの間にある。 -/
theorem Contiguous.bounds (h : Contiguous i j ops i' j') :
    i ≤ i' ∧ j ≤ j' ∧ ∀ op ∈ ops, op.oldEnd ≤ i' ∧ op.newEnd ≤ j' := by
  induction h with
  | nil i j => exact ⟨Nat.le_refl _, Nat.le_refl _, by simp⟩
  | @cons i j i' j' op rest hi hj _ ih =>
    obtain ⟨hold, hnew, hall⟩ := ih
    have hop : op.oldStart ≤ op.oldEnd ∧ op.newStart ≤ op.newEnd := by
      cases op <;> simp [DiffOp.oldStart, DiffOp.oldEnd, DiffOp.newStart, DiffOp.newEnd]
    refine ⟨by omega, by omega, ?_⟩
    intro op' hop'
    cases hop' with
    | head => exact ⟨hold, hnew⟩
    | tail _ hop' => exact hall op' hop'

/-- どの組も、行の列に収まる。 -/
theorem Clusters.bounds (h : Clusters context m n i j groups) :
    i ≤ m ∧ j ≤ n ∧ ∀ ops ∈ groups, ∃ a b a' b', Contiguous a b ops a' b' ∧ a' ≤ m ∧ b' ≤ n := by
  induction h with
  | rest gap hold hnew => exact ⟨by omega, by omega, by simp⟩
  | @group i j i' j' ops groups gap hne hc _ _ ih =>
    obtain ⟨hold, hnew, hall⟩ := ih
    obtain ⟨hi, hj, -⟩ := hc.bounds
    refine ⟨by omega, by omega, ?_⟩
    intro ops' hops'
    cases hops' with
    | head => exact ⟨_, _, _, _, hc, hold, hnew⟩
    | tail _ hops' => exact hall ops' hops'

/-- hunk は、ある組から作られる。 -/
theorem exists_group (oldNoEof newNoEof : Bool) : ∀ {groups : List (List DiffOp)} {s : GroupState}
    {hunk : Hunk}, hunk ∈ (groupLoop oldNoEof newNoEof groups s).hunks → hunk ∈ s.hunks ∨
      ∃ group ∈ groups, ∃ isLast s' first last, group.head? = some first ∧ group.getLast? = some last
        ∧ hunk = groupHunk oldNoEof newNoEof isLast s' group first last
  | [], _, _, h => .inl h
  | group :: groups, s, hunk, h => by
    rw [groupLoop] at h
    rcases exists_group oldNoEof newNoEof h with h | ⟨group', hg, hrest⟩
    · unfold groupStep at h
      split at h
      · next first last hfirst hlast =>
        rcases List.mem_append.mp h with h | h
        · exact .inl h
        · exact .inr ⟨group, .head _, _, _, first, last, hfirst, hlast, List.mem_singleton.mp h⟩
      · exact .inl h
    · exact .inr ⟨group', .tail _ hg, hrest⟩

/-- 行の列に収まる組からは、番号の正しい hunk ができる。 -/
theorem indicesOk_groupHunk {oldNoEof newNoEof isLast : Bool} {s : GroupState} {first last : DiffOp}
    {deletionLines additionLines : List Text} (hc : Contiguous i j ops i' j')
    (hi : i' ≤ deletionLines.length) (hj : j' ≤ additionLines.length)
    (heq : ∀ a b len, DiffOp.equal a b len ∈ ops →
      ∀ k < len, deletionLines[a + k]? = additionLines[b + k]?)
    (hfirst : ops.head? = some first) (hlast : ops.getLast? = some last) :
    (groupHunk oldNoEof newNoEof isLast s ops first last).IndicesOk deletionLines additionLines := by
  obtain ⟨hii, hjj, hall⟩ := hc.bounds
  obtain ⟨hold, hnew⟩ := hc.last hlast
  have hstart : first.oldStart = i ∧ first.newStart = j := by
    cases hc with
    | nil => cases hfirst
    | cons ha hb _ =>
      cases hfirst
      exact ⟨ha, hb⟩
  refine ⟨?_, ?_, ?_⟩
  · show first.oldStart + (last.oldEnd - first.oldStart) ≤ _
    omega
  · show first.newStart + (last.newEnd - first.newStart) ≤ _
    omega
  · intro c hcmem
    obtain ⟨op, hop, rfl⟩ := List.mem_map.mp (show c ∈ ops.map DiffOp.content from hcmem)
    obtain ⟨holdEnd, hnewEnd⟩ := hall op hop
    cases op with
    | equal a b len =>
      exact ⟨Nat.le_trans holdEnd hi, Nat.le_trans hnewEnd hj, heq a b len hop⟩
    | delete a len b => exact ⟨Nat.le_trans holdEnd hi, Nat.le_trans hnewEnd hj⟩
    | insert a b len => exact ⟨Nat.le_trans holdEnd hi, Nat.le_trans hnewEnd hj⟩
    | replace a len b len' => exact ⟨Nat.le_trans holdEnd hi, Nat.le_trans hnewEnd hj⟩

end groups

section files

variable {oldName oldContent newName newContent : Text}

/-- 二つの切り方が一致すれば、どの組でも番号は実際の行を指す。 -/
theorem indicesOk_diffFiles {groupedOps : GroupedOps} (hold : hasInnerReturn oldContent = false)
    (hnew : hasInnerReturn newContent = false)
    (h : FromLinesGroups oldContent newContent (groupedOps oldContent newContent defaultContext)) :
    (diffFiles groupedOps oldName oldContent newName newContent).IndicesOk := by
  obtain ⟨hclusters, hequal, -⟩ := h
  rw [fromLines_eq hold, fromLines_eq hnew] at hclusters hequal
  intro hunk hmem
  rcases exists_group _ _ hmem with hmem | ⟨group, hg, isLast, s, first, last, hfirst, hlast, rfl⟩
  · cases hmem
  · obtain ⟨-, -, hall⟩ := hclusters.bounds
    obtain ⟨a, b, a', b', hc, ha, hb⟩ := hall group hg
    exact indicesOk_groupHunk hc ha hb (hequal group hg) hfirst hlast

/-- 全部を置き換える操作。 -/
def replaceAllOp (m n : Nat) : DiffOp :=
  if n = 0 then .delete 0 m 0 else if m = 0 then .insert 0 0 n else .replace 0 m 0 n

theorem replaceAllOp_ends (m n : Nat) :
    (replaceAllOp m n).oldStart = 0 ∧ (replaceAllOp m n).newStart = 0
      ∧ (replaceAllOp m n).oldEnd = m ∧ (replaceAllOp m n).newEnd = n := by
  unfold replaceAllOp
  split
  · next h => exact ⟨rfl, rfl, Nat.zero_add m, h.symm⟩
  · split
    · next h => exact ⟨rfl, rfl, h.symm, Nat.zero_add n⟩
    · exact ⟨rfl, rfl, Nat.zero_add m, Nat.zero_add n⟩

/-- 全部を置き換える組。 -/
theorem fromLinesGroups_replaceAll (hne : oldContent ≠ newContent) :
    FromLinesGroups oldContent newContent
      [[replaceAllOp (fromLines oldContent).length (fromLines newContent).length]] := by
  obtain ⟨hi, hj, hi', hj'⟩ := replaceAllOp_ends (fromLines oldContent).length (fromLines newContent).length
  refine ⟨?_, ?_, by simp [hne]⟩
  · refine .group 0 (List.cons_ne_nil _ _) (.cons hi hj (.nil _ _)) (fun h => absurd h (Nat.lt_irrefl 0)) ?_
    exact .rest 0 hi'.symm hj'.symm
  · intro group hg i j len hmem
    rw [List.mem_singleton.mp hg, List.mem_singleton] at hmem
    unfold replaceAllOp at hmem
    split at hmem
    · cases hmem
    · split at hmem <;> cases hmem

/-- 一つの操作の番号が正しければ、その範囲は行の列に収まる。 -/
theorem ranges_of_indicesOk {op : DiffOp}
    (h : (diffFiles (fun _ _ _ => [[op]]) oldName oldContent newName newContent).IndicesOk) :
    op.oldStart + (op.oldEnd - op.oldStart) ≤ (splitInclusive oldContent).length
      ∧ op.newStart + (op.newEnd - op.newStart) ≤ (splitInclusive newContent).length := by
  obtain ⟨hdel, hadd, -⟩ := h _ (List.mem_singleton.mpr rfl)
  exact ⟨hdel, hadd⟩

/--
**差分の番号が実際の行を指すのは、本文が等しいか、文字の前に単独の `\r` がどちらにも無いときである。**

`similar` が何を返しても、というのは、その文書に書いてある組のどれを返しても、ということである。
-/
theorem diff_indices_iff (oldName oldContent newName newContent : Text) :
    (∀ groupedOps : GroupedOps,
        FromLinesGroups oldContent newContent (groupedOps oldContent newContent defaultContext) →
        (diffFiles groupedOps oldName oldContent newName newContent).IndicesOk)
      ↔ oldContent = newContent
        ∨ (hasInnerReturn oldContent = false ∧ hasInnerReturn newContent = false) := by
  constructor
  · intro hall
    by_cases hne : oldContent = newContent
    · exact .inl hne
    · obtain ⟨hi, hj, hi', hj'⟩ :=
        replaceAllOp_ends (fromLines oldContent).length (fromLines newContent).length
      obtain ⟨hdel, hadd⟩ := ranges_of_indicesOk (hall _ (fromLinesGroups_replaceAll hne))
      rw [hi, hi'] at hdel
      rw [hj, hj'] at hadd
      refine .inr ⟨?_, ?_⟩
      · by_contra hr
        have := length_splitInclusive_lt (Bool.eq_true_of_not_eq_false hr)
        omega
      · by_contra hr
        have := length_splitInclusive_lt (Bool.eq_true_of_not_eq_false hr)
        omega
  · rintro (heq | ⟨hold, hnew⟩) groupedOps h
    · have hnil := h.nil_iff.mpr heq
      intro hunk hmem
      have hhunks : (diffFiles groupedOps oldName oldContent newName newContent).hunks = [] := by
        unfold diffFiles
        rw [hnil]
        rfl
      rw [hhunks] at hmem
      cases hmem
    · exact indicesOk_diffFiles hold hnew h

/-- `a\rb` の行を一つ替えた本文では、替えた行の番号が行の列を越える。 -/
theorem lone_return_out_of_range :
    let groups : List (List DiffOp) := [[.equal 0 0 1, .replace 1 1 1 1]]
    FromLinesGroups "a\rb\n".toList "a\rc\n".toList groups
      ∧ ¬ (diffFiles (fun _ _ _ => groups) [] "a\rb\n".toList [] "a\rc\n".toList).IndicesOk := by
  refine ⟨⟨?_, ?_, ?_⟩, ?_⟩
  · exact .group 0 (by simp) (.cons rfl rfl (.cons rfl rfl (.nil _ _))) (fun h => absurd h (by decide))
      (.rest 0 (by decide) (by decide))
  · intro group hg i j len hmem k hk
    rw [List.mem_singleton.mp hg] at hmem
    simp only [List.mem_cons, DiffOp.equal.injEq, reduceCtorEq, List.not_mem_nil, or_false] at hmem
    obtain ⟨rfl, rfl, rfl⟩ := hmem
    rw [Nat.lt_one_iff.mp hk]
    decide
  · exact iff_of_false (by simp) (by decide)
  · intro hok
    obtain ⟨hdel, -, -⟩ := hok _ (List.mem_singleton.mpr rfl)
    revert hdel
    decide

end files

end Cassy.Diffs
