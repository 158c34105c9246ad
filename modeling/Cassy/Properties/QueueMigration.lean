import Mathlib.Data.List.MinMax
import Cassy.Cloud.QueueSchema

/-!
# 移行の後の表

`migrate_team_id` の後には、`NULL` を空文字列と読んだ素性ごとに、番号の最も大きい一行だけが残る。もう一度移行しても
何も変わらない。

写しを減らす前に `NULL` を直すので、一意の制約が既に掛かった表では、直した行が同じ素性の行とぶつかって移行が失敗する。
`Clashes` がそのような表である。
-/

namespace Cassy

variable {q : StoredQueue} {r r' : StoredRow}

namespace StoredQueue

/-- 同じ素性の行の中で番号が最も大きい。 -/
def newest (q : StoredQueue) (r : StoredRow) : Bool :=
  q.rows.all fun r' => r'.identity ≠ r.identity || r'.id ≤ r.id

theorem newest_iff : q.newest r ↔ ∀ r' ∈ q.rows, r'.identity = r.identity → r'.id ≤ r.id := by
  unfold newest
  rw [List.all_eq_true]
  refine forall₂_congr fun r' _ => ?_
  by_cases hident : r'.identity = r.identity
  · simp [hident]
  · simp [hident]

/-- 番号は行を決める。 -/
theorem eq_of_id (hr : r ∈ q.rows) (hr' : r' ∈ q.rows) (h : r.id = r'.id) : r = r' :=
  List.inj_on_of_nodup_map q.ids hr hr' h

/-- 素性ごとに、番号の最も大きい行がある。 -/
theorem exists_newest (hr : r ∈ q.rows) :
    ∃ r' ∈ q.rows, r'.identity = r.identity ∧ q.newest r' := by
  cases hmax : (q.rows.filter fun r' => r'.identity = r.identity).argmax StoredRow.id with
  | none =>
    have hnil := List.argmax_eq_none.mp hmax
    have hmem : r ∈ q.rows.filter fun r' => r'.identity = r.identity :=
      List.mem_filter.mpr ⟨hr, by simp⟩
    rw [hnil] at hmem
    exact absurd hmem List.not_mem_nil
  | some r' =>
    obtain ⟨hr', hident⟩ := List.mem_filter.mp (List.argmax_mem hmax)
    have hident : r'.identity = r.identity := of_decide_eq_true hident
    refine ⟨r', hr', hident, newest_iff.mpr fun r₁ hr₁ hident₁ => ?_⟩
    refine List.le_of_mem_argmax (List.mem_filter.mpr ⟨hr₁, ?_⟩) hmax
    exact decide_eq_true (hident₁.trans hident)

/-- 番号の最も大きい行は、素性ごとに一つである。 -/
theorem newest_unique (hr : r ∈ q.rows) (hr' : r' ∈ q.rows) (hnew : q.newest r)
    (hnew' : q.newest r') (h : r.identity = r'.identity) : r = r' :=
  eq_of_id hr hr' (Nat.le_antisymm (newest_iff.mp hnew' r hr h) (newest_iff.mp hnew r' hr' h.symm))

/-! ## 写しを減らす -/

/-- `NULL` の無い表では、`GROUP BY` の組は素性の等しい行の組である。 -/
theorem newestOfGroup_eq (hsome : ∀ r ∈ q.rows, r.teamId.isSome) (hr : r ∈ q.rows) :
    q.newestOfGroup r = q.newest r := by
  have hteam : ∀ r' ∈ q.rows, r'.identity = r.identity → r'.teamId = r.teamId := by
    intro r' hr' hident
    obtain ⟨teamId, hteam⟩ := Option.isSome_iff_exists.mp (hsome r hr)
    obtain ⟨teamId', hteam'⟩ := Option.isSome_iff_exists.mp (hsome r' hr')
    have heq : r'.teamId.getD "" = r.teamId.getD "" := congrArg StoredIdentity.teamId hident
    rw [hteam, hteam'] at heq ⊢
    exact congrArg some heq
  rw [Bool.eq_iff_iff, newest_iff]
  unfold newestOfGroup
  rw [List.all_eq_true]
  refine forall₂_congr fun r' hr' => ?_
  by_cases hident : r'.identity = r.identity
  · simp [hident, hteam r' hr' hident]
  · simp [hident]

/-- `NULL` の無い表から写しを減らせば、一意索引が作れる。 -/
theorem createIdentityIndex_dropDuplicates (hsome : ∀ r ∈ q.rows, r.teamId.isSome) :
    ∃ g, q.dropDuplicates.createIdentityIndex = .ok g ∧ g.rows = q.rows.filter q.newest
      ∧ g.shape = { q.shape with identityIndex := true } := by
  have hrows : q.dropDuplicates.rows = q.rows.filter q.newest :=
    List.filter_congr fun r hr => newestOfGroup_eq hsome hr
  unfold createIdentityIndex
  by_cases hindex : q.dropDuplicates.shape.identityIndex = true
  · rw [if_pos hindex]
    refine ⟨_, rfl, hrows, ?_⟩
    have hshape : q.shape.identityIndex = true := hindex
    show q.shape = _
    rw [← hshape]
  · have hunique : UniqueOn StoredRow.identityKey q.dropDuplicates.rows := by
      rw [hrows]
      intro r hr r' hr' _ hkey
      obtain ⟨hr, hnew⟩ := List.mem_filter.mp hr
      obtain ⟨hr', hnew'⟩ := List.mem_filter.mp hr'
      rw [StoredRow.identityKey_of_isSome (hsome r hr),
        StoredRow.identityKey_of_isSome (hsome r' hr'), Option.some.injEq] at hkey
      rw [newest_unique hr hr' hnew hnew' hkey]
    rw [if_neg hindex, dif_pos hunique]
    exact ⟨_, rfl, hrows, rfl⟩

/-! ## `NULL` を直す -/

/-- 一意の制約が掛かったまま、`NULL` の行が別の行と同じ素性を持つ表。 -/
def Clashes (q : StoredQueue) : Prop :=
  q.shape.hasTeamId ∧ q.shape.hasProjectId ∧ ∃ r ∈ q.rows, r.teamId = none ∧
    ∃ r' ∈ q.rows, r'.id ≠ r.id ∧
      ((q.shape.identityIndex ∧ r'.identity = r.identity)
        ∨ (q.shape.inlineUnique ∧ r'.normalized.inlineKey = r.normalized.inlineKey))

/-- 直した行の鍵が等しければ、直す前に鍵が等しいか、どちらかが `NULL` である。 -/
theorem uniqueOn_normalized {κ : Type} {key : StoredRow → Option κ}
    (hkey : ∀ r ∈ q.rows, r.teamId.isSome → (key r).isSome)
    (hold : UniqueOn key q.rows)
    (hnull : ∀ r ∈ q.rows, r.teamId = none → ∀ r' ∈ q.rows,
      key r'.normalized = key r.normalized → r'.id = r.id) :
    UniqueOn key (q.rows.map StoredRow.normalized) := by
  intro s hs s' hs' _ heq
  obtain ⟨r, hr, rfl⟩ := List.mem_map.mp hs
  obtain ⟨r', hr', rfl⟩ := List.mem_map.mp hs'
  show r.id = r'.id
  cases hteam : r.teamId with
  | none => exact (hnull r hr hteam r' hr' heq.symm).symm
  | some teamId =>
    cases hteam' : r'.teamId with
    | none => exact hnull r' hr' hteam' r hr heq
    | some teamId' =>
      have hsome : r.teamId.isSome := by rw [hteam]; rfl
      have hsome' : r'.teamId.isSome := by rw [hteam']; rfl
      rw [StoredRow.normalized_of_isSome hsome, StoredRow.normalized_of_isSome hsome'] at heq
      exact hold r hr r' hr' (hkey r hr hsome) heq

theorem admits_normalized_iff (hteam : q.shape.hasTeamId) (hproject : q.shape.hasProjectId) :
    q.shape.Admits (q.rows.map StoredRow.normalized) ↔ ¬ q.Clashes := by
  constructor
  · rintro ⟨hinline, hindex⟩ ⟨-, -, r, hr, -, r', hr', hne, hclash⟩
    have hmem := List.mem_map_of_mem (f := StoredRow.normalized) hr
    have hmem' := List.mem_map_of_mem (f := StoredRow.normalized) hr'
    rcases hclash with ⟨hhas, hident⟩ | ⟨hhas, hkey⟩
    · have hid : r'.normalized.id = r.normalized.id := by
        refine hindex hhas _ hmem' _ hmem rfl ?_
        rw [StoredRow.normalized_identityKey, StoredRow.normalized_identityKey, hident]
      exact hne hid
    · have hid : r'.normalized.id = r.normalized.id := hinline hhas _ hmem' _ hmem rfl hkey
      exact hne hid
  · intro hclash
    refine ⟨fun hhas => ?_, fun hhas => ?_⟩
    · refine uniqueOn_normalized (fun r _ hsome => ?_) (q.admitted.1 hhas) ?_
      · rw [StoredRow.inlineKey, Option.isSome_map]
        exact hsome
      · intro r hr hnull r' hr' hkey
        by_contra hne
        exact hclash ⟨hteam, hproject, r, hr, hnull, r', hr', hne, .inr ⟨hhas, hkey⟩⟩
    · refine uniqueOn_normalized (fun r _ hsome => ?_) (q.admitted.2 hhas) ?_
      · rw [StoredRow.identityKey_of_isSome hsome]
        rfl
      · intro r hr hnull r' hr' hkey
        by_contra hne
        rw [StoredRow.normalized_identityKey, StoredRow.normalized_identityKey,
          Option.some.injEq] at hkey
        exact hclash ⟨hteam, hproject, r, hr, hnull, r', hr', hne, .inl ⟨hhas, hkey⟩⟩

/-! ## 移行の全体 -/

theorem normalized_rows_isSome {rows : List StoredRow} :
    ∀ r ∈ rows.map StoredRow.normalized, r.teamId.isSome := by
  intro r hr
  obtain ⟨r₀, -, rfl⟩ := List.mem_map.mp hr
  rfl

theorem isSome_of_hasNullTeam_false (h : q.hasNullTeam = false) : ∀ r ∈ q.rows, r.teamId.isSome := by
  intro r hr
  have hr := List.any_eq_false.mp h r hr
  cases hteam : r.teamId with
  | none => simp [hteam] at hr
  | some teamId => rfl

theorem hasNullTeam_eq_false (h : ∀ r ∈ q.rows, r.teamId.isSome) : q.hasNullTeam = false := by
  refine List.any_eq_false.mpr fun r hr => ?_
  obtain ⟨teamId, hteam⟩ := Option.isSome_iff_exists.mp (h r hr)
  simp [hteam]

/-- 直した行の中で残るのは、直す前に番号の最も大きかった行である。 -/
theorem filter_newest_normalized {p : StoredQueue} (h : p.rows = q.rows.map StoredRow.normalized) :
    p.rows.filter p.newest = (q.rows.filter q.newest).map StoredRow.normalized := by
  rw [h, List.filter_map]
  refine congrArg (List.map StoredRow.normalized) (List.filter_congr fun r _ => ?_)
  show p.newest r.normalized = q.newest r
  unfold newest
  rw [h, List.all_map]
  rfl

theorem normalized_rows_eq (h : ∀ r ∈ q.rows, r.teamId.isSome) :
    q.rows.map StoredRow.normalized = q.rows := by
  conv_rhs => rw [← List.map_id q.rows]
  exact List.map_congr_left fun r hr => StoredRow.normalized_of_isSome (h r hr)

/-- 移行の済んだ表。 -/
structure Migrated (q g : StoredQueue) : Prop where
  shape : g.shape.hasTeamId ∧ g.shape.hasProjectId ∧ g.shape.identityIndex
  rows : g.rows = (q.rows.filter q.newest).map StoredRow.normalized

/-- 列を足した後の移行。 -/
theorem migrateTeamId_eq {p : StoredQueue} (hadd : q.addColumns = p) :
    q.migrateTeamId = (if p.hasNullTeam then p.normalizeTeamIds else .ok p).bind fun p' =>
      (if p.hasNullTeam || !p.shape.identityIndex then p'.dropDuplicates else p').createIdentityIndex := by
  subst hadd
  unfold migrateTeamId
  dsimp only
  split
  · rfl
  · rfl

theorem addColumns_of_columns (hteam : q.shape.hasTeamId) (hproject : q.shape.hasProjectId) :
    q.addColumns = q := by
  unfold addColumns
  simp [hteam, hproject]

/-- 一意索引があって `NULL` の無い表は、もう移行しても変わらない。 -/
theorem migrateTeamId_of_shape (hteam : q.shape.hasTeamId) (hproject : q.shape.hasProjectId)
    (hindex : q.shape.identityIndex) (hsome : ∀ r ∈ q.rows, r.teamId.isSome) :
    q.migrateTeamId = .ok q := by
  rw [migrateTeamId_eq (addColumns_of_columns hteam hproject), hasNullTeam_eq_false hsome, hindex]
  show q.createIdentityIndex = .ok q
  unfold createIdentityIndex
  rw [if_pos hindex]

theorem migrated_of_dropDuplicates {p : StoredQueue}
    (hrows : p.rows = q.rows.map StoredRow.normalized) (hteam : p.shape.hasTeamId)
    (hproject : p.shape.hasProjectId) :
    ∃ g, p.dropDuplicates.createIdentityIndex = .ok g ∧ Migrated q g := by
  have hsome : ∀ r ∈ p.rows, r.teamId.isSome := by
    rw [hrows]
    exact normalized_rows_isSome
  obtain ⟨g, hg, hgrows, hshape⟩ := createIdentityIndex_dropDuplicates hsome
  refine ⟨g, hg, ?_, ?_⟩
  · rw [hshape]
    exact ⟨hteam, hproject, rfl⟩
  · rw [hgrows, filter_newest_normalized hrows]

/-- 列の足りない表では、作り直しが制約を外すので、移行は必ず済む。 -/
theorem migrateTeamId_addColumns (h : ¬ (q.shape.hasTeamId ∧ q.shape.hasProjectId)) :
    ∃ g, q.migrateTeamId = .ok g ∧ Migrated q g := by
  have hmissing : (q.shape.hasTeamId && q.shape.hasProjectId) = false := by
    cases hteam : q.shape.hasTeamId with
    | false => rfl
    | true =>
      cases hproject : q.shape.hasProjectId with
      | false => rfl
      | true => exact absurd ⟨hteam, hproject⟩ h
  have hrows : q.addColumns.rows = q.rows.map StoredRow.normalized := by
    unfold addColumns
    rw [hmissing]
    show (StoredQueue.rows _).map StoredRow.normalized = _
    split
    · split <;> rfl
    · split <;> rfl
  have hshape : q.addColumns.shape = ⟨true, true, false, false⟩ := by
    unfold addColumns
    rw [hmissing]
    rfl
  have hnull : q.addColumns.hasNullTeam = false := by
    refine hasNullTeam_eq_false ?_
    rw [hrows]
    exact normalized_rows_isSome
  obtain ⟨g, hg, hmigrated⟩ := migrated_of_dropDuplicates hrows (by rw [hshape]) (by rw [hshape])
  refine ⟨g, ?_, hmigrated⟩
  rw [migrateTeamId_eq rfl, hnull, hshape]
  exact hg

theorem migrateTeamId_migrated (h : ¬ q.Clashes) :
    ∃ g, q.migrateTeamId = .ok g ∧ Migrated q g := by
  by_cases hcolumns : q.shape.hasTeamId ∧ q.shape.hasProjectId
  · obtain ⟨hteam, hproject⟩ := hcolumns
    have hadd := addColumns_of_columns hteam hproject
    cases hnull : q.hasNullTeam with
    | true =>
      -- `NULL` を直してから写しを減らす
      have hadmits := (admits_normalized_iff hteam hproject).mpr h
      obtain ⟨p, hp, hprows, hpshape⟩ : ∃ p, q.normalizeTeamIds = .ok p
          ∧ p.rows = q.rows.map StoredRow.normalized ∧ p.shape = q.shape := by
        unfold normalizeTeamIds
        rw [dif_pos ⟨hteam, hadmits⟩]
        exact ⟨_, rfl, rfl, rfl⟩
      obtain ⟨g, hg, hmigrated⟩ := migrated_of_dropDuplicates hprows (by rw [hpshape]; exact hteam)
        (by rw [hpshape]; exact hproject)
      refine ⟨g, ?_, hmigrated⟩
      rw [migrateTeamId_eq hadd, hnull, if_pos rfl, hp]
      exact hg
    | false =>
      have hsome := isSome_of_hasNullTeam_false hnull
      have hself := (normalized_rows_eq hsome).symm
      by_cases hindex : q.shape.identityIndex = true
      · -- 一意索引の下では、どの行もその素性のただ一つの行である
        refine ⟨q, migrateTeamId_of_shape hteam hproject hindex hsome, ⟨hteam, hproject, hindex⟩, ?_⟩
        have hall : q.rows.filter q.newest = q.rows := by
          refine List.filter_eq_self.mpr fun r hr => newest_iff.mpr fun r' hr' hident => ?_
          refine Nat.le_of_eq (q.admitted.2 hindex r' hr' r hr ?_ ?_)
          · rw [StoredRow.identityKey_of_isSome (hsome r' hr')]
            rfl
          · rw [StoredRow.identityKey_of_isSome (hsome r' hr'),
              StoredRow.identityKey_of_isSome (hsome r hr), hident]
        rw [hall]
        exact hself
      · obtain ⟨g, hg, hmigrated⟩ := migrated_of_dropDuplicates hself hteam hproject
        refine ⟨g, ?_, hmigrated⟩
        rw [migrateTeamId_eq hadd, hnull, Bool.eq_false_iff.mpr hindex]
        exact hg
  · exact migrateTeamId_addColumns hcolumns

/-- `Clashes` の表では、`NULL` を直す文が一意の制約を破る。 -/
theorem migrateTeamId_of_clashes (h : q.Clashes) : q.migrateTeamId = .error .uniqueConstraint := by
  obtain ⟨hteam, hproject, r, hr, hnone, -⟩ := id h
  have hnull : q.hasNullTeam = true := List.any_eq_true.mpr ⟨r, hr, by rw [hnone]; rfl⟩
  rw [migrateTeamId_eq (addColumns_of_columns hteam hproject), hnull, if_pos rfl]
  unfold normalizeTeamIds
  rw [dif_neg fun hboth => (admits_normalized_iff hteam hproject).mp hboth.2 h]
  rfl

/--
移行の後の表。

一意の制約が `NULL` の行の前に立ちはだからない限り、移行は成功し、素性ごとに番号の最も大きい一行だけを、`NULL` を
空文字列に直して残す。もう一度移行しても何も変わらない。
-/
theorem migrateTeamId_canonical (q : StoredQueue) (h : ¬ q.Clashes) :
    ∃ g, q.migrateTeamId = .ok g
      ∧ g.rows = (q.rows.filter q.newest).map StoredRow.normalized
      ∧ (∀ r ∈ q.rows, ∃ r' ∈ g.rows, r'.identity = r.identity ∧
          ∀ r'' ∈ g.rows, r''.identity = r.identity → r'' = r')
      ∧ g.migrateTeamId = .ok g := by
  obtain ⟨g, hg, ⟨⟨hteam, hproject, hindex⟩, hrows⟩⟩ := migrateTeamId_migrated h
  refine ⟨g, hg, hrows, ?_, ?_⟩
  · intro r hr
    obtain ⟨r', hr', hident, hnew⟩ := exists_newest hr
    rw [hrows]
    refine ⟨r'.normalized, List.mem_map_of_mem (List.mem_filter.mpr ⟨hr', hnew⟩), hident, ?_⟩
    intro s hs hsident
    obtain ⟨r'', hr'', rfl⟩ := List.mem_map.mp hs
    obtain ⟨hr'', hnew''⟩ := List.mem_filter.mp hr''
    have heq : r''.identity = r'.identity := Eq.trans hsident hident.symm
    rw [newest_unique hr'' hr' hnew'' hnew heq]
  · refine migrateTeamId_of_shape hteam hproject hindex ?_
    rw [hrows]
    exact normalized_rows_isSome

/-! ## 二つの表 -/

/-- 番号 `id` の task の行。 -/
def taskRow (id : Nat) (operation : String) (teamId projectId : Option String) : StoredRow where
  id := id
  entityType := "task"
  entityId := "cas-1"
  operation := operation
  teamId := teamId
  projectId := projectId
  createdAt := "2026-08-20T00:00:00Z"

/-- `project_id` の列が無く、`NULL` の行と空文字列の行が並ぶ表。 -/
def legacyTwins : StoredQueue where
  shape := { hasTeamId := true, hasProjectId := false, inlineUnique := true, identityIndex := false }
  rows := [taskRow 1 "upsert" none none, taskRow 2 "delete" (some "") none]
  ids := by decide
  admitted := by decide
  teamColumn := nofun
  projectColumn := fun _ => by decide

/-- 写しは番号の大きい方に減る。 -/
theorem migrateTeamId_canonical_legacyTwins :
    ∃ g, legacyTwins.migrateTeamId = .ok g ∧ g.rows = [taskRow 2 "delete" (some "") none]
      ∧ g.migrateTeamId = .ok g := by
  obtain ⟨g, hg, hrows, -, hagain⟩ :=
    migrateTeamId_canonical legacyTwins fun h => absurd h.2.1 (by decide)
  exact ⟨g, hg, hrows.trans (by decide), hagain⟩

/-- task を別の project に移したときの表。古い鍵を消す行と、新しい鍵に書く行が並ぶ。 -/
def movePair : StoredQueue where
  shape := { hasTeamId := true, hasProjectId := true, inlineUnique := false, identityIndex := true }
  rows :=
    [taskRow 1 "delete" (some "team") (some "old"), taskRow 2 "upsert" (some "team") (some "new")]
  ids := by decide
  admitted := by decide
  teamColumn := nofun
  projectColumn := nofun

/-- `(entity_type, entity_id, team_id)` の等しい二行は、`project_id` が違えば両方残る。 -/
theorem movePair_keeps_both :
    ∃ g, movePair.migrateTeamId = .ok g ∧ ∃ r ∈ g.rows, ∃ r' ∈ g.rows, r.id ≠ r'.id
      ∧ r.entityType = r'.entityType ∧ r.entityId = r'.entityId
      ∧ r.teamId.getD "" = r'.teamId.getD "" :=
  ⟨movePair, migrateTeamId_of_shape rfl rfl rfl (by decide), by decide⟩

end StoredQueue

end Cassy
