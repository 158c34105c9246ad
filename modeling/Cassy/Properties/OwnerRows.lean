import Mathlib
import Cassy.Cloud.OwnerRows

/-!
# 選ばれる行と並び順

同じ task の行から選ばれる行は、持ち主かどうかと時刻で決まり、並び順によらないはずである。しかし二つの行がその両方で
並ぶと、後に並んだ方が選ばれる。

並び順によらないのは、同じ task の一番よい行がどれも同じ値であるときに限る。捨てた行が失われないことと、持ち主の行が
より古くない持ち主の行のためにだけ捨てられることは、いつも成り立つ。
-/

namespace Cassy

open Infra

variable {env : WireEnv} {rows rows' : List Json} {id : String}

/-! ## 行の順位 -/

namespace WireEnv

/-- 時刻の順位。読めない時刻が一番古い。 -/
def timeRank (t : Option Time) : WithBot Time := t

/-- 行の順位。持ち主の行が上で、次に新しい行が上である。 -/
def rank (env : WireEnv) (raw : Json) : Bool ×ₗ WithBot Time :=
  toLex (env.taskWireIsOwner raw, timeRank (env.taskWireUpdatedAt raw))

theorem compare_bool_eq_gt {a b : Bool} : compare a b = .gt ↔ b < a := by
  cases a <;> cases b <;> decide

theorem compare_bool_eq_eq {a b : Bool} : compare a b = .eq ↔ a = b := by
  cases a <;> cases b <;> decide

theorem compare_option_eq_eq {a b : Option Time} : compare a b = .eq ↔ a = b := by
  cases a with
  | none =>
    cases b with
    | none => decide
    | some b => exact iff_of_false nofun nofun
  | some a =>
    cases b with
    | none => exact iff_of_false nofun nofun
    | some b =>
      show compare a b = .eq ↔ some a = some b
      rw [Option.some.injEq]
      exact compare_eq_iff_eq

theorem compare_option_eq_gt {a b : Option Time} :
    compare a b = .gt ↔ timeRank b < timeRank a := by
  cases a with
  | none =>
    cases b with
    | none => exact iff_of_false nofun (lt_irrefl (⊥ : WithBot Time))
    | some b => exact iff_of_false nofun not_lt_bot
  | some a =>
    cases b with
    | none => exact iff_of_true rfl (WithBot.bot_lt_coe a)
    | some b =>
      show compare a b = .gt ↔ (b : WithBot Time) < (a : WithBot Time)
      rw [WithBot.coe_lt_coe]
      exact compare_gt_iff_gt

theorem then_eq_gt {a b : Ordering} : a.then b = .gt ↔ a = .gt ∨ a = .eq ∧ b = .gt := by
  cases a <;> cases b <;> decide

/-- 行の比べ方を決める順位。位置は最後に見る。 -/
def place (env : WireEnv) (x : Json × Nat) : (Bool ×ₗ WithBot Time) ×ₗ Nat :=
  toLex (env.rank x.1, x.2)

/-- 比べ方は、順位と位置の辞書式順である。 -/
theorem compareRows_eq_gt {left right : Json × Nat} :
    env.compareRows left right = .gt ↔ env.place right < env.place left := by
  unfold compareRows place rank
  rw [then_eq_gt, then_eq_gt, compare_bool_eq_gt, compare_bool_eq_eq, compare_option_eq_gt,
    compare_option_eq_eq, compare_gt_iff_gt, Prod.Lex.toLex_lt_toLex, Prod.Lex.toLex_lt_toLex]
  have heq : ∀ {x y : Bool} {s t : Option Time},
      toLex (x, timeRank s) = toLex (y, timeRank t) ↔ x = y ∧ s = t := by
    intro x y s t
    rw [toLex_inj, Prod.mk.injEq]
    exact Iff.rfl
  rw [heq]
  constructor
  · rintro (h | ⟨howner, h | ⟨htime, h⟩⟩)
    · exact .inl (.inl h)
    · exact .inl (.inr ⟨howner.symm, h⟩)
    · exact .inr ⟨⟨howner.symm, htime.symm⟩, h⟩
  · rintro ((h | ⟨howner, h⟩) | ⟨⟨howner, htime⟩, h⟩)
    · exact .inl h
    · exact .inr ⟨howner.symm, .inl h⟩
    · exact .inr ⟨howner.symm, .inr ⟨htime.symm, h⟩⟩

/-! ## 一つの組 -/

/-- 並びの中で一番よく、同じ順位のものの中では最後にある行。 -/
def LastBest (env : WireEnv) (rows : List Json) (winner : Json) : Prop :=
  ∃ before after, rows = before ++ winner :: after
    ∧ (∀ row ∈ before, env.rank row ≤ env.rank winner)
    ∧ ∀ row ∈ after, env.rank row < env.rank winner

theorem LastBest.le {winner : Json} (h : env.LastBest rows winner) :
    ∀ row ∈ rows, env.rank row ≤ env.rank winner := by
  obtain ⟨before, after, rfl, hbefore, hafter⟩ := h
  intro row hrow
  rcases List.mem_append.mp hrow with hrow | hrow
  · exact hbefore row hrow
  · rcases List.mem_cons.mp hrow with rfl | hrow
    · exact le_refl _
    · exact le_of_lt (hafter row hrow)

theorem LastBest.mem {winner : Json} (h : env.LastBest rows winner) : winner ∈ rows := by
  obtain ⟨before, after, rfl, -, -⟩ := h
  exact List.mem_append_right _ List.mem_cons_self

/-- 末尾に一番よい行があれば、それが選ばれる。 -/
theorem LastBest.eq_last {winner last : Json} (h : env.LastBest (rows ++ [last]) winner)
    (hlast : ∀ row ∈ rows, env.rank row ≤ env.rank last) : winner = last := by
  obtain ⟨before, after, heq, -, hafter⟩ := h
  cases after using List.reverseRecOn with
  | nil => exact ((List.append_inj' heq rfl).2 |> List.cons.inj |>.1).symm
  | append_singleton after last' _ =>
    have hconcat : rows ++ [last] = (before ++ winner :: after) ++ [last'] := by
      rw [heq]
      simp
    obtain ⟨hrows, hlast'⟩ := List.append_inj' hconcat rfl
    obtain rfl := (List.cons.inj hlast').1
    have hlt := hafter last (List.mem_append_right _ (List.mem_singleton_self _))
    have hle := hlast winner (by rw [hrows]; exact List.mem_append_right _ List.mem_cons_self)
    exact absurd hlt (not_lt.mpr hle)

/-- 組からは一番よい行が選ばれ、残りは捨てられる。 -/
theorem collapseRows_spec (hne : rows ≠ []) :
    ∃ winner rest, env.collapseRows id rows = ([winner], rest.map fun row => (id, row))
      ∧ (winner :: rest).Perm rows ∧ env.LastBest rows winner := by
  unfold collapseRows
  by_cases hone : rows.length = 1
  · obtain ⟨row, rfl⟩ := List.length_eq_one_iff.mp hone
    exact ⟨row, [], rfl, List.Perm.refl _, [], [], rfl, by simp, by simp⟩
  · rw [if_neg hone]
    have hzip : rows.zipIdx ≠ [] := by simpa using hne
    obtain ⟨⟨winner, index⟩, hmax, hmem, hle⟩ :=
      maxBy_spec (fun a b => @compareRows_eq_gt env a b) hzip
    have hget : rows[index]? = some winner := by simpa using List.mem_zipIdx_iff_getElem?.mp hmem
    rw [hmax]
    refine ⟨winner, swapRemove rows index, rfl, perm_swapRemove hget, ?_⟩
    have hplace : ∀ j row, rows[j]? = some row → env.place (row, j) ≤ env.place (winner, index) := by
      intro j row hrow
      exact hle (row, j) (List.mem_zipIdx_iff_getElem?.mpr (by simpa using hrow))
    have hrank : ∀ j row, rows[j]? = some row →
        env.rank row < env.rank winner ∨ env.rank row = env.rank winner ∧ j ≤ index := by
      intro j row hrow
      have hle := hplace j row hrow
      unfold place at hle
      rwa [Prod.Lex.toLex_le_toLex] at hle
    have hindex : index < rows.length := (List.getElem?_eq_some_iff.mp hget).1
    refine ⟨rows.take index, rows.drop (index + 1), ?_, fun row hrow => ?_, fun row hrow => ?_⟩
    · have hsplit : rows.drop index = winner :: rows.drop (index + 1) := by
        rw [List.drop_eq_getElem_cons hindex, (List.getElem?_eq_some_iff.mp hget).2]
      rw [← hsplit, List.take_append_drop]
    · obtain ⟨j, hj⟩ := List.mem_iff_getElem?.mp (List.mem_of_mem_take hrow)
      rcases hrank j row hj with h | ⟨h, -⟩
      · exact le_of_lt h
      · exact le_of_eq h
    · obtain ⟨j, hj⟩ := List.mem_iff_getElem?.mp hrow
      rw [List.getElem?_drop] at hj
      rcases hrank (index + 1 + j) row hj with h | ⟨-, h⟩
      · exact h
      · omega

/-! ## 選ばれる行 -/

/-- ある task のために選ばれた行。 -/
def selectedFor (env : WireEnv) (rows : List Json) (id : String) : List Json :=
  (env.selectOwnerTaskRows rows).1.filter fun row => taskWireId row = some id

/-- 同じ task の行。 -/
def rowsFor (rows : List Json) (id : String) : List Json :=
  rows.filter fun row => taskWireId row = some id

/-- 組の一つ一つから選ばれた行。 -/
theorem filter_collapse {groups : List (String × List Json)} (hsorted : SortedGroups groups)
    (hkey : ∀ id' as, (id', as) ∈ groups → ∀ row ∈ as, taskWireId row = some id') :
    ((groups.flatMap fun group => (env.collapseRows group.1 group.2).1).filter
        fun row => taskWireId row = some id)
      = if groupOf id groups = [] then [] else (env.collapseRows id (groupOf id groups)).1 := by
  induction groups with
  | nil => rfl
  | cons group groups ih =>
    obtain ⟨hfirst, hrest⟩ := List.pairwise_cons.mp hsorted.1
    have hsorted' : SortedGroups groups :=
      ⟨hrest, fun x hx => hsorted.2 x (List.mem_cons_of_mem _ hx)⟩
    have ih := ih hsorted' fun id' as hmem => hkey id' as (List.mem_cons_of_mem _ hmem)
    have hne : group.2 ≠ [] := hsorted.2 group List.mem_cons_self
    obtain ⟨winner, rest, hcollapse, hperm, -⟩ := @collapseRows_spec env _ group.1 hne
    have hwinner : taskWireId winner = some group.1 :=
      hkey group.1 group.2 List.mem_cons_self winner (hperm.mem_iff.mp List.mem_cons_self)
    rw [List.flatMap_cons, List.filter_append, ih, hcollapse]
    by_cases hid : group.1 = id
    · have hnil : groupOf id groups = [] := groupOf_of_forall_lt fun x hx => by
        rw [← hid]
        exact hfirst x hx
      have hgroup : groupOf id (group :: groups) = group.2 := by
        unfold groupOf at hnil ⊢
        simp [hid, hnil]
      rw [hgroup, if_neg hne, if_pos hnil, ← hid, hcollapse]
      simp [hwinner]
    · have hgroup : groupOf id (group :: groups) = groupOf id groups := by
        unfold groupOf
        simp [hid]
      rw [hgroup]
      simp [hwinner, hid]

/-- 組の行は、その task の行である。 -/
theorem taskWireId_of_mem_group {groups : List Json × List (String × List Json)}
    (h : IsGrouping taskWireId rows groups) {id : String} {as : List Json}
    (hmem : (id, as) ∈ groups.2) : as = rowsFor rows id := by
  rw [h.sorted.group_eq hmem, h.group]
  rfl

/-- ある task のために選ばれるのは、その行の中で一番よいもの一つである。 -/
theorem selectedFor_spec (hne : rowsFor rows id ≠ []) :
    ∃ winner, env.selectedFor rows id = [winner] ∧ env.LastBest (rowsFor rows id) winner := by
  have hgrouping := groupKeyed_isGrouping taskWireId rows
  obtain ⟨winner, rest, hcollapse, -, hbest⟩ := @collapseRows_spec env _ id hne
  refine ⟨winner, ?_, hbest⟩
  have hkey : ∀ id' as, (id', as) ∈ (groupKeyed taskWireId rows).2 →
      ∀ row ∈ as, taskWireId row = some id' := by
    intro id' as hmem row hrow
    rw [taskWireId_of_mem_group hgrouping hmem] at hrow
    simpa using (List.mem_filter.mp hrow).2
  have hunkeyed : ((groupKeyed taskWireId rows).1.filter fun row => taskWireId row = some id) = [] := by
    rw [hgrouping.unkeyed, List.filter_eq_nil_iff]
    intro row hrow
    have hnone := (List.mem_filter.mp hrow).2
    rw [Option.isNone_iff_eq_none] at hnone
    simp [hnone]
  have hgroup : groupOf id (groupKeyed taskWireId rows).2 = rowsFor rows id := hgrouping.group id
  unfold selectedFor selectOwnerTaskRows
  dsimp only
  rw [List.filter_append, hunkeyed, List.nil_append, filter_collapse hgrouping.sorted hkey, hgroup,
    if_neg hne, hcollapse]

/-- 選んだ行と捨てた行を合わせれば、元の行になる。 -/
theorem selected_append_discarded_perm (env : WireEnv) (rows : List Json) :
    ((env.selectOwnerTaskRows rows).1 ++ (env.selectOwnerTaskRows rows).2.map Prod.snd).Perm rows := by
  have hgrouping := groupKeyed_isGrouping taskWireId rows
  have hgroups : ∀ groups : List (String × List Json), (∀ x ∈ groups, x.2 ≠ []) →
      ((groups.flatMap fun group => (env.collapseRows group.1 group.2).1)
        ++ (groups.flatMap fun group => (env.collapseRows group.1 group.2).2).map Prod.snd).Perm
        (groups.flatMap (·.2)) := by
    intro groups
    induction groups with
    | nil => exact fun _ => List.Perm.refl _
    | cons group groups ih =>
      intro hne
      obtain ⟨winner, rest, hcollapse, hperm, -⟩ :=
        @collapseRows_spec env _ group.1 (hne group List.mem_cons_self)
      have ih := ih fun x hx => hne x (List.mem_cons_of_mem _ hx)
      have hsnd : (rest.map fun row => (group.1, row)).map Prod.snd = rest := by simp
      simp only [List.flatMap_cons, hcollapse, List.map_append, hsnd]
      set selected := groups.flatMap fun group => (env.collapseRows group.1 group.2).1
      set discarded := (groups.flatMap fun group => (env.collapseRows group.1 group.2).2).map Prod.snd
      have hswap : (([winner] ++ selected) ++ (rest ++ discarded)).Perm
          (([winner] ++ rest) ++ (selected ++ discarded)) := by
        rw [List.append_assoc, List.append_assoc, ← List.append_assoc selected,
          ← List.append_assoc rest selected]
        exact (List.perm_append_comm.append_right discarded).append_left [winner]
      exact hswap.trans (hperm.append ih)
  unfold selectOwnerTaskRows
  dsimp only
  rw [List.append_assoc]
  exact ((hgroups _ hgrouping.sorted.2).append_left _).trans hgrouping.perm

/-- 捨てられた行のために選ばれた行は、同じ task の、より下でない行である。 -/
theorem discarded_outranked {row : Json} (h : (id, row) ∈ (env.selectOwnerTaskRows rows).2) :
    taskWireId row = some id
      ∧ ∃ winner ∈ (env.selectOwnerTaskRows rows).1, taskWireId winner = some id
        ∧ env.rank row ≤ env.rank winner := by
  have hgrouping := groupKeyed_isGrouping taskWireId rows
  obtain ⟨⟨id', as⟩, hgroup, hrow⟩ := List.mem_flatMap.mp h
  have hne : as ≠ [] := hgrouping.sorted.2 _ hgroup
  obtain ⟨winner, rest, hcollapse, hperm, hbest⟩ := @collapseRows_spec env _ id' hne
  dsimp only at hrow
  rw [hcollapse] at hrow
  obtain ⟨row', hrow', heq⟩ := List.mem_map.mp hrow
  obtain ⟨rfl, rfl⟩ := Prod.mk.injEq .. ▸ heq
  have has := taskWireId_of_mem_group hgrouping hgroup
  have hid : ∀ r ∈ as, taskWireId r = some id' := by
    intro r hr
    rw [has] at hr
    simpa using (List.mem_filter.mp hr).2
  have hmem : row' ∈ as := hperm.mem_iff.mp (List.mem_cons_of_mem _ hrow')
  refine ⟨hid row' hmem, winner, ?_, hid winner hbest.mem, hbest.le row' hmem⟩
  refine List.mem_append_right _ (List.mem_flatMap.mpr ⟨(id', as), hgroup, ?_⟩)
  dsimp only
  rw [hcollapse]
  exact List.mem_singleton_self winner

/-! ## 並び順 -/

/-- 並べ替えても選ばれる行が変わらず、行は失われず、持ち主の行はより古くない持ち主の行のためにだけ捨てられる。 -/
def OrderFree (env : WireEnv) (rows : List Json) : Prop :=
  ∀ rows' : List Json, rows'.Perm rows →
    (∀ id, env.selectedFor rows' id = env.selectedFor rows id)
      ∧ ((env.selectOwnerTaskRows rows').1
        ++ (env.selectOwnerTaskRows rows').2.map Prod.snd).Perm rows'
      ∧ ∀ id row, (id, row) ∈ (env.selectOwnerTaskRows rows').2 → env.taskWireIsOwner row = true →
        ∃ winner ∈ (env.selectOwnerTaskRows rows').1, taskWireId winner = some id
          ∧ env.taskWireIsOwner winner = true
          ∧ timeRank (env.taskWireUpdatedAt row) ≤ timeRank (env.taskWireUpdatedAt winner)

/-- 同じ task の一番よい行は、どれも同じ値である。 -/
def TiesAgree (env : WireEnv) (rows : List Json) : Prop :=
  ∀ x ∈ rows, ∀ y ∈ rows, ∀ id, taskWireId x = some id → taskWireId y = some id →
    env.rank x = env.rank y → (∀ z ∈ rows, taskWireId z = some id → env.rank z ≤ env.rank x) → x = y

/-- 持ち主の行を捨てさせるのは、より古くない持ち主の行である。 -/
theorem owner_of_rank_le {row winner : Json} (hle : env.rank row ≤ env.rank winner)
    (howner : env.taskWireIsOwner row = true) :
    env.taskWireIsOwner winner = true
      ∧ timeRank (env.taskWireUpdatedAt row) ≤ timeRank (env.taskWireUpdatedAt winner) := by
  unfold rank at hle
  rw [Prod.Lex.toLex_le_toLex] at hle
  dsimp only at hle
  rw [howner] at hle
  rcases hle with hlt | ⟨heq, hle⟩
  · exact absurd hlt (not_lt.mpr (Bool.le_true _))
  · exact ⟨heq.symm, hle⟩

/-- 一番よい行を末尾に置けば、それが選ばれる。 -/
theorem selectedFor_moveLast {x : Json} (hid : taskWireId x = some id)
    (hbest : ∀ z ∈ rows, taskWireId z = some id → env.rank z ≤ env.rank x) :
    env.selectedFor (rows.erase x ++ [x]) id = [x] := by
  have hrows : rowsFor (rows.erase x ++ [x]) id = rowsFor (rows.erase x) id ++ [x] := by
    unfold rowsFor
    simp [hid]
  have hne : rowsFor (rows.erase x ++ [x]) id ≠ [] := by
    rw [hrows]
    simp
  obtain ⟨winner, hselected, hwinner⟩ := @selectedFor_spec env _ _ hne
  rw [hrows] at hwinner
  rw [hselected, hwinner.eq_last fun z hz => ?_]
  obtain ⟨hz, hzid⟩ := List.mem_filter.mp hz
  exact hbest z (List.mem_of_mem_erase hz) (by simpa using hzid)

/-- 選ばれる行が並び順によらないのは、同じ task の一番よい行がどれも同じ値のときである。 -/
theorem select_owner_task_rows_iff (env : WireEnv) (rows : List Json) :
    env.OrderFree rows ↔ env.TiesAgree rows := by
  constructor
  · intro h x hx y hy id hidx hidy hrank hbest
    have hlast := (h _ ((List.perm_append_singleton x _).trans (List.perm_cons_erase hx).symm)).1 id
    have hlast' := (h _ ((List.perm_append_singleton y _).trans (List.perm_cons_erase hy).symm)).1 id
    rw [selectedFor_moveLast hidx hbest] at hlast
    rw [selectedFor_moveLast hidy fun z hz hzid => hrank ▸ hbest z hz hzid] at hlast'
    exact (List.cons.inj (hlast.trans hlast'.symm)).1
  · intro h rows' hperm
    refine ⟨fun id => ?_, selected_append_discarded_perm env rows', ?_⟩
    · have hgroups : (rowsFor rows' id).Perm (rowsFor rows id) := hperm.filter _
      by_cases hnil : rowsFor rows id = []
      · have hnil' : rowsFor rows' id = [] := by
          rw [hnil] at hgroups
          exact hgroups.eq_nil
        have hnone : ∀ rows, rowsFor rows id = [] → env.selectedFor rows id = [] := by
          intro rows hrows
          rw [selectedFor, List.filter_eq_nil_iff]
          intro row hrow
          have hmem := (selected_append_discarded_perm env rows).mem_iff.mp
            (List.mem_append_left _ hrow)
          exact List.filter_eq_nil_iff.mp hrows row hmem
        rw [hnone rows hnil, hnone rows' hnil']
      · have hnil' : rowsFor rows' id ≠ [] := by
          intro hnil'
          rw [hnil'] at hgroups
          exact hnil hgroups.nil_eq.symm
        obtain ⟨winner, hselected, hwinner⟩ := @selectedFor_spec env _ _ hnil
        obtain ⟨winner', hselected', hwinner'⟩ := @selectedFor_spec env _ _ hnil'
        rw [hselected, hselected']
        have hmem := List.mem_filter.mp hwinner.mem
        have hmem' := List.mem_filter.mp (hgroups.mem_iff.mp hwinner'.mem)
        have hle := hwinner'.le winner (hgroups.mem_iff.mpr hwinner.mem)
        have hge := hwinner.le winner' (hgroups.mem_iff.mp hwinner'.mem)
        have hbest : ∀ z ∈ rows, taskWireId z = some id → env.rank z ≤ env.rank winner := by
          intro z hz hzid
          exact hwinner.le z (List.mem_filter.mpr ⟨hz, by simpa using hzid⟩)
        rw [h winner hmem.1 winner' hmem'.1 id (by simpa using hmem.2) (by simpa using hmem'.2)
          (le_antisymm hle hge) hbest]
    · intro id row hrow howner
      obtain ⟨-, winner, hwinner, hid, hle⟩ := discarded_outranked hrow
      obtain ⟨howner', htime⟩ := owner_of_rank_le hle howner
      exact ⟨winner, hwinner, hid, howner', htime⟩

/-! ## 並んだ行の例 -/

/-- 時刻を読まない環境。 -/
def blindEnv : WireEnv where
  parseRfc3339 := fun _ => none

/-- 持ち主も時刻も同じで、題だけの違う二つの行。 -/
def titledRow (title : String) : Json :=
  .object [("id", .string "cas-1"), ("title", .string title), ("updated_at", .string "not a time")]

/-- 順位の並ぶ二つの行では、後に届いた方が選ばれる。 -/
theorem tied_rows_last_wins :
    blindEnv.selectedFor [titledRow "a", titledRow "b"] "cas-1" = [titledRow "b"]
      ∧ blindEnv.selectedFor [titledRow "b", titledRow "a"] "cas-1" = [titledRow "a"] := by
  decide

end WireEnv

end Cassy
