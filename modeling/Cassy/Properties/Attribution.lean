import Cassy.Properties.Tombstones

/-!
# 依存の持ち主の判定

届いた依存の行がこの project のものかを、二つの関数が別々に決める。取り込み（`task_dependency_matches_project`）は別名を
揃えて比べ、応答の中の墓標を集める方（`remote_dependency_state`）は綴りの一致だけを見る。

二つが同じ行を選ぶのは、この project の行がどれも今の綴りで書かれているときである。そのときは、応答に辺とその墓標が
並んでいても、並び順によらず辺は消える。
-/

namespace Cassy

open Infra

variable {aliasClass : List Text} {project : String} {now : Time}

/-! ## 二つの判定 -/

/-- `remote_dependency_state` が行を project のものとして数えること。 -/
def PulledDependency.Classified (raw : PulledDependency) (project : String) (now : Time) : Prop :=
  remoteDependencyState [raw] project now ≠ {}

/-- 応答の読める行について、二つの判定が一致すること。 -/
def AttributionAgrees (aliasClass : List Text) (project : String) (now : Time)
    (rows : List PulledDependency) : Prop :=
  ∀ raw ∈ rows, raw.record.isSome →
    (raw.Classified project now ↔ raw.matchesProject aliasClass project = true)

/-- この project の行が、どれも今の綴りで書かれていること。綴りの空な project に行は無い。 -/
def SpelledAlike (aliasClass : List Text) (project : String) (rows : List PulledDependency) : Prop :=
  ∀ raw ∈ rows, raw.record.isSome → ∀ p, raw.attribution = some p →
    (p ≠ project → projectIdsMatch aliasClass p project = false)
      ∧ (p = project → (canonicalProjectId project.toList).isSome)

theorem classified_iff {raw : PulledDependency} (h : raw.record.isSome) :
    raw.Classified project now ↔ raw.attribution = some project := by
  obtain ⟨r, hr⟩ := Option.isSome_iff_exists.mp h
  unfold PulledDependency.Classified remoteDependencyState
  rw [List.foldl_cons, List.foldl_nil]
  unfold RemoteDependencyState.note
  by_cases hattr : raw.attribution = some project
  · rw [if_pos hattr, hr]
    refine iff_of_true ?_ hattr
    dsimp only
    split
    · simp [mapInsert]
    · split
      · next hmem => simp [mapGet] at hmem
      · simp [mapInsert]
  · rw [if_neg hattr]
    exact iff_of_false (fun h => h rfl) hattr

/-- 同じ綴りが一致するのは、揃えた綴りがあるときである。 -/
theorem projectIdsMatch_self :
    projectIdsMatch aliasClass project project = true
      ↔ (canonicalProjectId project.toList).isSome := by
  unfold projectIdsMatch projectIdsMatchWithAliases
  cases canonicalProjectId project.toList with
  | none => simp
  | some canonical => simp

theorem attributionAgrees_iff {rows : List PulledDependency} :
    AttributionAgrees aliasClass project now rows ↔ SpelledAlike aliasClass project rows := by
  unfold AttributionAgrees SpelledAlike
  refine forall₂_congr fun raw hraw => forall_congr' fun hread => ?_
  rw [classified_iff hread]
  unfold PulledDependency.matchesProject
  cases raw.attribution with
  | none => simp
  | some p =>
    simp only [Option.some.injEq, Option.any_some, forall_eq']
    by_cases hp : p = project
    · subst hp
      rw [projectIdsMatch_self]
      simp
    · simp [hp]

/-! ## 墓標の集まり -/

theorem note_deleted_isSome {raw : PulledDependency} {state : RemoteDependencyState} {id : Text}
    (h : (mapGet id state.deleted).isSome) :
    (mapGet id (state.note project now raw).deleted).isSome := by
  unfold RemoteDependencyState.note
  split
  · split
    · exact h
    · dsimp only
      split
      · rw [mapGet_mapInsert]
        split
        · rfl
        · exact h
      · split
        · exact h
        · exact h
  · exact h

theorem foldl_note_deleted_isSome {id : Text} : ∀ {rows : List PulledDependency}
    {state : RemoteDependencyState}, (mapGet id state.deleted).isSome →
      (mapGet id (rows.foldl (RemoteDependencyState.note project now) state).deleted).isSome
  | [], _, h => h
  | _ :: rows, _, h => @foldl_note_deleted_isSome id rows _ (note_deleted_isSome h)

/-- 今の綴りで届いた墓標は、応答の墓標に入る。 -/
theorem deleted_of_mem {rows : List PulledDependency} {raw : PulledDependency}
    {r : TaskDependencyRecord} (hraw : raw ∈ rows) (hattr : raw.attribution = some project)
    (hrec : raw.record = some r) (hdel : r.isDelete = true) :
    (mapGet (dependencyEntityId r.dependency)
      (remoteDependencyState rows project now).deleted).isSome := by
  obtain ⟨before, after, rfl⟩ := List.append_of_mem hraw
  unfold remoteDependencyState
  rw [List.foldl_append, List.foldl_cons]
  refine foldl_note_deleted_isSome ?_
  unfold RemoteDependencyState.note
  rw [if_pos hattr, hrec]
  dsimp only
  rw [if_pos hdel, mapGet_mapInsert, if_pos rfl]
  rfl

/-! ## 応答の取り込み -/

/-- 同じ辺を指す。 -/
def Dependency.SameEdge (d d' : Dependency) : Prop :=
  d.fromId = d'.fromId ∧ d.toId = d'.toId ∧ d.depType = d'.depType

/-- 辺が手元に無い。 -/
def EdgeState.Lacks (s : EdgeState) (d : Dependency) : Prop :=
  ∀ d' ∈ s.db.dependencies.rows, ¬ d'.SameEdge d

section Steps

variable {s : EdgeState} {d : Dependency} {p : Nat}

theorem dependencyEntityId_congr {d d' : Dependency} (h : d.SameEdge d') :
    dependencyEntityId d = dependencyEntityId d' := by
  obtain ⟨hfrom, hto, htype⟩ := h
  unfold dependencyEntityId
  rw [hfrom, hto, htype]

theorem lacks_removeDependencyOfType (h : s.Lacks d) (fromId toId : String) (depType : DependencyType) :
    ∀ d' ∈ (s.db.removeDependencyOfType fromId toId depType).2.dependencies.rows, ¬ d'.SameEdge d := by
  intro d' hd'
  exact h d' (Table.mem_delete.mp hd').1

/-- 墓標の取り込みは辺を消す。 -/
theorem lacks_applyDependencyTombstone {r : TaskDependencyRecord} {t : Time}
    (hr : r.dependency.SameEdge d) : (s.applyDependencyTombstone r t).Lacks d := by
  intro d' hd' hsame
  have hkept := (Table.mem_delete.mp hd').2
  have hmatch : d'.fromId = r.fromId ∧ d'.toId = r.toId ∧ d'.depType = r.depType :=
    ⟨hsame.1.trans hr.1.symm, hsame.2.1.trans hr.2.1.symm, hsame.2.2.trans hr.2.2.symm⟩
  simp [hmatch] at hkept

/-- 墓標の集まりにある辺は、届いた行が書き戻さない。 -/
theorem EdgeState.Lacks.applyRow (h : s.Lacks d) {deleted : List (Text × Time)}
    (hdel : (mapGet (dependencyEntityId d) deleted).isSome) (raw : PulledDependency) (t : Time) :
    (s.applyRow aliasClass project deleted raw t).Lacks d := by
  unfold EdgeState.applyRow
  split
  · split
    · exact h
    next r hrec =>
      split
      · exact lacks_removeDependencyOfType h r.fromId r.toId r.depType
      · split
        · exact h
        next hnot =>
          rcases applyDependencyUpsert_cases s r.dependency with heq | ⟨-, heq⟩
          · rw [heq]
            exact h
          · rw [heq]
            intro d' hd' hsame
            rcases Table.mem_insertOrReplace.mp hd' with ⟨hd', -⟩ | rfl
            · exact h d' hd' hsame
            · rw [dependencyEntityId_congr hsame] at hnot
              exact hnot hdel
  · exact h

theorem EdgeState.Lacks.healEdge (h : s.Lacks d) (plan : HealPlan) (entityId : Text)
    (dep : Dependency) : (s.healEdge plan entityId dep).Lacks d := by
  unfold EdgeState.healEdge
  split
  · exact h
  · split
    · exact h
    · split
      · exact lacks_removeDependencyOfType h dep.fromId dep.toId dep.depType
      · exact h

/-- 取り込みの途中なら、応答の墓標に辺がある。 -/
def DependencyPc.Suppresses (d : Dependency) : DependencyPc → Prop
  | .applying _ deleted _ _ => (mapGet (dependencyEntityId d) deleted).isSome
  | _ => True

theorem EdgeState.Lacks.next (h : s.Lacks d) (hpc : (s.pc p).Suppresses d) (t : Time) :
    (s.next aliasClass project p t).Lacks d
      ∧ ((s.next aliasClass project p t).pc p).Suppresses d := by
  unfold EdgeState.next
  cases hcase : s.pc p with
  | idle => exact ⟨h, by rw [hcase]; trivial⟩
  | fetching localAfter pending => exact ⟨h, by rw [hcase]; trivial⟩
  | applying rows deleted after pending =>
    rw [hcase] at hpc
    cases rows with
    | nil =>
      cases after with
      | incremental => exact ⟨h, by simp [EdgeState.setPc, DependencyPc.Suppresses]⟩
      | heal snapshot => exact ⟨h, by simp [EdgeState.setPc, DependencyPc.Suppresses]⟩
    | cons raw rows =>
      refine ⟨h.applyRow hpc raw t, ?_⟩
      simpa [EdgeState.setPc, DependencyPc.Suppresses] using hpc
  | healing edges plan =>
    cases edges with
    | nil => exact ⟨h, by simp [EdgeState.setPc, DependencyPc.Suppresses]⟩
    | cons edge edges =>
      obtain ⟨entityId, dep⟩ := edge
      exact ⟨h.healEdge plan entityId dep, by simp [EdgeState.setPc, DependencyPc.Suppresses]⟩

/-- 辺が無くなれば、pull の続きは書き戻さない。 -/
theorem lacks_run_next : ∀ {times : List Time} {s : EdgeState}, s.Lacks d → (s.pc p).Suppresses d →
    (run (edgeStep aliasClass project) s (times.map (.next p))).Lacks d
  | [], _, h, _ => h
  | t :: times, _, h, hpc => by
    obtain ⟨h', hpc'⟩ := @EdgeState.Lacks.next aliasClass project _ _ _ h hpc t
    exact @lacks_run_next times _ h' hpc'

/-- 残りの行に墓標があれば、行を取り込み終えたとき辺は無い。 -/
theorem lacks_run_applying {deleted : List (Text × Time)} {after : AfterApply}
    {pending : List PendingDependency} (hdel : (mapGet (dependencyEntityId d) deleted).isSome) :
    ∀ {rows : List PulledDependency} {s : EdgeState} {times : List Time},
      s.pc p = .applying rows deleted after pending →
      (s.Lacks d ∨ ∃ raw ∈ rows, ∃ r, raw.matchesProject aliasClass project = true
        ∧ raw.record = some r ∧ r.isDelete = true ∧ r.dependency.SameEdge d) →
      rows.length ≤ times.length →
      (run (edgeStep aliasClass project) s (times.map (.next p))).Lacks d
  | [], s, times, hpc, h, _ => by
    rcases h with h | ⟨raw, hraw, -⟩
    · exact lacks_run_next h (by rw [hpc]; exact hdel)
    · exact absurd hraw List.not_mem_nil
  | raw :: rows, s, [], _, _, hlen => by simp at hlen
  | raw :: rows, s, t :: times, hpc, h, hlen => by
    have hnext : s.next aliasClass project p t
        = (s.applyRow aliasClass project deleted raw t).setPc p
          (.applying rows deleted after pending) := by
      unfold EdgeState.next
      rw [hpc]
    have hlen' : rows.length ≤ times.length := Nat.le_of_succ_le_succ hlen
    show (run (edgeStep aliasClass project) (s.next aliasClass project p t) (times.map (.next p))).Lacks d
    rw [hnext]
    have hpc' : ((s.applyRow aliasClass project deleted raw t).setPc p
        (.applying rows deleted after pending)).pc p = .applying rows deleted after pending := by
      simp [EdgeState.setPc]
    refine lacks_run_applying hdel hpc' ?_ hlen'
    rcases h with h | ⟨raw', hraw, r, hmatch, hrec, hisDel, hsame⟩
    · exact .inl (h.applyRow hdel raw t)
    · rcases List.mem_cons.mp hraw with rfl | hraw
      · left
        have hrow : s.applyRow aliasClass project deleted raw' t = s.applyDependencyTombstone r t := by
          unfold EdgeState.applyRow
          rw [if_pos hmatch, hrec]
          dsimp only
          rw [if_pos hisDel]
        rw [hrow]
        exact lacks_applyDependencyTombstone (t := t) hsame
      · exact .inr ⟨raw', hraw, r, hmatch, hrec, hisDel, hsame⟩

end Steps

/-- 応答に辺とその墓標が並んでいれば、取り込んだ後に辺は無い。 -/
def TombstonesSettle (aliasClass : List Text) (project : String) (now : Time)
    (rows : List PulledDependency) : Prop :=
  ∀ (s : EdgeState) (p : Nat) (isIncremental : Bool) (pending : List PendingDependency)
    (times : List Time), s.pc p = .idle → rows.length ≤ times.length →
    ∀ edge ∈ rows, ∀ tomb ∈ rows, ∀ e t, edge.matchesProject aliasClass project = true →
      tomb.matchesProject aliasClass project = true → edge.record = some e → tomb.record = some t →
      e.isDelete = false → t.isDelete = true → e.dependency.SameEdge t.dependency →
      (run (edgeStep aliasClass project) s
        (.begin p rows isIncremental pending now :: times.map (.next p))).Lacks e.dependency

theorem tombstonesSettle_of_spelledAlike {rows : List PulledDependency}
    (h : SpelledAlike aliasClass project rows) : TombstonesSettle aliasClass project now rows := by
  intro s p isIncremental pending times hidle hlen edge _ tomb htomb e t _ hmatch _ hrec _ hdel hsame
  have hattr : tomb.attribution = some project := by
    have hread : tomb.record.isSome := by rw [hrec]; rfl
    have hagrees := (@attributionAgrees_iff _ _ now _).mpr h tomb htomb hread
    exact (classified_iff hread).mp (hagrees.mpr hmatch)
  have hsame' : t.dependency.SameEdge e.dependency :=
    ⟨hsame.1.symm, hsame.2.1.symm, hsame.2.2.symm⟩
  have hdeleted := @deleted_of_mem _ now _ _ _ htomb hattr hrec hdel
  rw [dependencyEntityId_congr hsame'] at hdeleted
  have hbegin : ∃ after, ((s.begin project p rows isIncremental pending now).pc p)
      = .applying rows (remoteDependencyState rows project now).deleted after pending := by
    unfold EdgeState.begin
    rw [hidle]
    exact ⟨_, by simp [EdgeState.setPc]; rfl⟩
  obtain ⟨after, hpc⟩ := hbegin
  exact lacks_run_applying hdeleted hpc (.inr ⟨tomb, htomb, t, hmatch, hrec, hdel, hsame'⟩) hlen

/-- 二つの判定が一致し、どの並び順でも墓標が効くのは、この project の行がどれも今の綴りのときである。 -/
theorem dependency_attribution_iff (aliasClass : List Text) (project : String) (now : Time)
    (rows : List PulledDependency) :
    (AttributionAgrees aliasClass project now rows
      ∧ ∀ rows' : List PulledDependency, rows'.Perm rows →
        TombstonesSettle aliasClass project now rows')
      ↔ SpelledAlike aliasClass project rows := by
  constructor
  · rintro ⟨hagrees, -⟩
    exact attributionAgrees_iff.mp hagrees
  · intro h
    refine ⟨attributionAgrees_iff.mpr h, fun rows' hperm => ?_⟩
    exact tombstonesSettle_of_spelledAlike fun raw hraw => h raw (hperm.mem_iff.mp hraw)

/-! ## 別名で書かれた墓標 -/

/-- 二つの task のある手元。 -/
def twoTaskState : EdgeState where
  db := { tasks := ⟨[{ id := "a" }, { id := "b" }], by decide⟩ }

/-- `a → b` の行。持ち主は `origin` と書く。 -/
def edgeRow (origin : String) (deleted : Bool) : PulledDependency where
  originProject := some origin
  record := some {
    fromId := "a", toId := "b", depType := .blocks, createdAt := 1, deleted
    deletedAt := some 5 }

/-- 墓標が先に届いたときと、後に届いたとき。 -/
def tombstoneFirst (origin : String) : List PulledDependency :=
  [edgeRow origin true, edgeRow "cas-src" false]

def tombstoneLast (origin : String) : List PulledDependency :=
  [edgeRow "cas-src" false, edgeRow origin true]

/-- 応答を取り込み終えた手元。 -/
def appliedEnvelope (rows : List PulledDependency) : EdgeState :=
  run (edgeStep [] "cas-src") twoTaskState
    (.begin 0 rows true [] 20 :: [(20 : Time), 20].map (.next 0))

/-- 別名で書かれた墓標は数えられず、先に届くと辺が残る。 -/
theorem alias_tombstone_missed :
    (edgeRow "Richards-LLC/cas-src" true).matchesProject ["richards-llc/cas-src".toList, "cas-src".toList]
        "cas-src" = true
      ∧ (edgeRow "Cas-Src" true).matchesProject [] "cas-src" = true
      ∧ remoteDependencyState [edgeRow "Cas-Src" true] "cas-src" 20 = {}
      ∧ (appliedEnvelope (tombstoneFirst "Cas-Src")).db.dependencies.rows.length = 1
      ∧ (appliedEnvelope (tombstoneLast "Cas-Src")).db.dependencies.rows = []
      ∧ (appliedEnvelope (tombstoneFirst "cas-src")).db.dependencies.rows = [] := by
  decide +kernel

end Cassy
