import Cassy.Cloud.PullDependencies

/-!
# 墓標の前後

pull が手元の辺を消すのは、その辺が墓標より後に作られていないときだけか。

修復は作られた時刻を墓標と比べる。取り込みは比べずに消す。修復も、読んでから消すまでの間に作り直された辺は
見ていない。届いた古い辺は、手元の新しい辺を時刻ごと置き換える。この三つが起きない実行では、手元の操作が触れない辺は、
それより前に作られたことを示す墓標が届くまで残る。
-/

namespace Cassy

open Infra

/-! ## 辺の名前 -/

/-- 区切りの `:` を含まない名前。 -/
def PlainId (id : String) : Prop := ':' ∉ id.toList

/-- 両端の名前が区切りを含まない辺。 -/
def Dependency.Plain (d : Dependency) : Prop := PlainId d.fromId ∧ PlainId d.toId

namespace ReceivedTombstone

/-- 墓標の指す辺の名前。 -/
def entityId (t : ReceivedTombstone) : Text :=
  dependencyEntityId { fromId := t.fromId, toId := t.toId, depType := t.depType }

/-- 墓標が `d` を指す。 -/
def Names (t : ReceivedTombstone) (d : Dependency) : Prop :=
  t.fromId = d.fromId ∧ t.toId = d.toId ∧ t.depType = d.depType

end ReceivedTombstone

theorem DependencyType.toString_inj {a b : DependencyType} (h : a.toString = b.toString) : a = b := by
  cases a <;> cases b <;> first | rfl | exact absurd h (by decide)

/-- 区切りを含まない辺の名前は、辺を決める。 -/
theorem names_of_entityId_eq {t : ReceivedTombstone} {d : Dependency} (hd : d.Plain)
    (ht : PlainId t.fromId ∧ PlainId t.toId) (h : t.entityId = dependencyEntityId d) : t.Names d := by
  simp only [ReceivedTombstone.entityId, dependencyEntityId] at h
  obtain ⟨hfrom, hrest⟩ := append_separator_inj ht.1 hd.1 h
  obtain ⟨hto, htype⟩ := append_separator_inj ht.2 hd.2 hrest
  exact ⟨String.toList_inj.mp hfrom, String.toList_inj.mp hto,
    DependencyType.toString_inj (String.toList_inj.mp htype)⟩

/-! ## 届いた墓標 -/

/-- その名前と時刻の墓標が届いている。 -/
def Known (received : List ReceivedTombstone) (x : Text × Time) : Prop :=
  ∃ t ∈ received, t.entityId = x.1 ∧ t.deletedAt = x.2

theorem Known.mono {received received' : List ReceivedTombstone} {x : Text × Time}
    (hsub : received ⊆ received') (h : Known received x) : Known received' x := by
  obtain ⟨t, ht, hid, hat⟩ := h
  exact ⟨t, hsub ht, hid, hat⟩

/-- 行の中の墓標から作った表は、届いた墓標だけを持つ。 -/
theorem known_remoteDependencyState {rows : List PulledDependency} {project : String} {now : Time} :
    ∀ x ∈ (remoteDependencyState rows project now).deleted,
      Known (receivedTombstones rows now) x := by
  have hfold : ∀ (all rows : List PulledDependency) (state : RemoteDependencyState), rows ⊆ all →
      (∀ x ∈ state.deleted, Known (receivedTombstones all now) x) →
      ∀ x ∈ (rows.foldl (RemoteDependencyState.note project now) state).deleted,
        Known (receivedTombstones all now) x := by
    intro all rows
    induction rows with
    | nil => exact fun state _ h => h
    | cons raw rows ih =>
      intro state hsub h
      refine ih _ (fun x hx => hsub (List.mem_cons_of_mem _ hx)) ?_
      intro x hx
      unfold RemoteDependencyState.note at hx
      split at hx
      · cases hrec : raw.record with
        | none =>
          rw [hrec] at hx
          exact h x hx
        | some r =>
          rw [hrec] at hx
          simp only at hx
          split at hx
          · next hdel =>
            rcases mem_mapInsert hx with rfl | hx
            · refine ⟨r.tombstone now, ?_, rfl, rfl⟩
              rw [receivedTombstones, List.mem_filterMap]
              exact ⟨raw, hsub List.mem_cons_self, by simp [hrec, hdel]⟩
            · exact h x hx
          · split at hx
            · exact h x hx
            · exact h x hx
      · exact h x hx
  exact hfold rows rows {} (List.Subset.refl _) (by simp)

theorem plain_of_mem_receivedTombstones {rows : List PulledDependency} {now : Time}
    (h : ∀ raw ∈ rows, ∀ r, raw.record = some r → r.dependency.Plain) :
    ∀ t ∈ receivedTombstones rows now, PlainId t.fromId ∧ PlainId t.toId := by
  intro t ht
  rw [receivedTombstones, List.mem_filterMap] at ht
  obtain ⟨raw, hraw, ht⟩ := ht
  rw [Option.bind_eq_some_iff] at ht
  obtain ⟨r, hr, ht⟩ := ht
  split at ht
  · rw [← Option.some.inj ht]
    exact h raw hraw r hr
  · simp at ht

namespace TombstoneLedger

/-- 帳簿の行は、元の行か、足した行の時刻を持つ。 -/
theorem mem_recordTombstone {ledger : TombstoneLedger} {row r : DependencyTombstone}
    (h : r ∈ (ledger.recordTombstone row).rows) :
    (∃ r' ∈ ledger.rows, r'.id = r.id ∧ r'.deletedAt = r.deletedAt)
      ∨ (row.id = r.id ∧ row.deletedAt = r.deletedAt) := by
  unfold recordTombstone at h
  split at h
  · next ledger' hins =>
    rcases (Table.mem_insert? hins).mp h with h | rfl
    · exact .inl ⟨r, h, rfl, rfl⟩
    · exact .inr ⟨rfl, rfl⟩
  · obtain ⟨r', hr', heq⟩ := Table.mem_update.mp h
    split at heq
    · next hid =>
      rw [decide_eq_true_eq] at hid
      rw [← heq]
      rcases max_choice r'.deletedAt row.deletedAt with hmax | hmax
      · exact .inl ⟨r', hr', rfl, hmax.symm⟩
      · exact .inr ⟨hid.symm, hmax.symm⟩
    · exact .inl ⟨r', hr', by rw [heq], by rw [heq]⟩

theorem mem_entries {ledger : TombstoneLedger} {x : Text × Time} (h : x ∈ ledger.entries) :
    ∃ r ∈ ledger.rows, r.id = x.1 ∧ r.deletedAt = x.2 := by
  obtain ⟨r, hr, rfl⟩ := List.mem_map.mp (mem_mapCollect h)
  exact ⟨r, hr, rfl, rfl⟩

end TombstoneLedger

theorem mem_localDependencyMap {db : Db} {x : Text × Dependency} (h : x ∈ db.localDependencyMap) :
    x.2 ∈ db.dependencies.rows ∧ x.1 = dependencyEntityId x.2 := by
  obtain ⟨d, hd, rfl⟩ := List.mem_map.mp (mem_mapCollect h)
  exact ⟨hd, rfl⟩

/-! ## 不変条件 -/

/-- 行の中の辺は、どれも区切りを含まない名前を持つ。 -/
def PlainRows (rows : List PulledDependency) : Prop :=
  ∀ raw ∈ rows, ∀ r, raw.record = some r → r.dependency.Plain

/-- 途中の pull が握っているものは、届いた墓標から来ている。 -/
def DependencyPc.Sound (received : List ReceivedTombstone) : DependencyPc → Prop
  | .idle => True
  | .applying rows _ after _ =>
    PlainRows rows ∧ ∀ state, after = .heal state → ∀ x ∈ state.deleted, Known received x
  | .fetching _ _ => True
  | .healing edges plan =>
    (∀ x ∈ edges, x.1 = dependencyEntityId x.2 ∧ x.2.Plain)
      ∧ (∀ x ∈ plan.snapshot.deleted, Known received x) ∧ ∀ x ∈ plan.tombstones, Known received x

theorem DependencyPc.Sound.mono {received received' : List ReceivedTombstone} {pc : DependencyPc}
    (hsub : received ⊆ received') (h : pc.Sound received) : pc.Sound received' := by
  cases pc with
  | idle => trivial
  | applying rows deleted after pending =>
    exact ⟨h.1, fun state heq x hx => (h.2 state heq x hx).mono hsub⟩
  | fetching localAfter pending => trivial
  | healing edges plan =>
    exact ⟨h.1, fun x hx => (h.2.1 x hx).mono hsub, fun x hx => (h.2.2 x hx).mono hsub⟩

/-- 実行を通じて保たれるもの。 -/
structure EdgeInv (s : EdgeState) : Prop where
  edges : ∀ d ∈ s.db.dependencies.rows, d.Plain
  received : ∀ t ∈ s.received, PlainId t.fromId ∧ PlainId t.toId
  ledger : ∀ r ∈ s.ledger.rows, Known s.received (r.id, r.deletedAt)
  pcs : ∀ p, (s.pc p).Sound s.received

namespace EdgeInv

variable {s : EdgeState}

/-- 進み具合だけを書き換える。 -/
theorem setPc (h : EdgeInv s) {p : Nat} {pc : DependencyPc} (hpc : pc.Sound s.received) :
    EdgeInv (s.setPc p pc) where
  edges := h.edges
  received := h.received
  ledger := h.ledger
  pcs q := by
    simp only [EdgeState.setPc]
    split
    · exact hpc
    · exact h.pcs q

/-- 辺の表を書き換える。 -/
theorem setDb (h : EdgeInv s) {db : Db} (hdb : ∀ d ∈ db.dependencies.rows, d.Plain) :
    EdgeInv { s with db } := ⟨hdb, h.received, h.ledger, h.pcs⟩

/-- 帳簿を書き換える。 -/
theorem setLedger (h : EdgeInv s) {ledger : TombstoneLedger}
    (hledger : ∀ r ∈ ledger.rows, Known s.received (r.id, r.deletedAt)) :
    EdgeInv { s with ledger } := ⟨h.edges, h.received, hledger, h.pcs⟩

/-- 墓標が届く。 -/
theorem receive (h : EdgeInv s) {ts : List ReceivedTombstone}
    (hts : ∀ t ∈ ts, PlainId t.fromId ∧ PlainId t.toId) :
    EdgeInv { s with received := s.received ++ ts } where
  edges := h.edges
  received t ht := by
    rcases List.mem_append.mp ht with ht | ht
    · exact h.received t ht
    · exact hts t ht
  ledger r hr := (h.ledger r hr).mono (List.subset_append_left _ _)
  pcs p := (h.pcs p).mono (List.subset_append_left _ _)

/-- 届いている墓標を帳簿に書く。 -/
theorem recordTombstone (h : EdgeInv s) {row : DependencyTombstone}
    (hrow : Known s.received (row.id, row.deletedAt)) :
    EdgeInv { s with ledger := s.ledger.recordTombstone row } := by
  refine h.setLedger fun r hr => ?_
  obtain ⟨r', hr', hid, hat⟩ | ⟨hid, hat⟩ := TombstoneLedger.mem_recordTombstone hr
  · rw [← hid, ← hat]
    exact h.ledger r' hr'
  · rw [← hid, ← hat]
    exact hrow

theorem deleteLedger (h : EdgeInv s) (p : DependencyTombstone → Bool) :
    EdgeInv { s with ledger := s.ledger.delete p } :=
  h.setLedger fun r hr => h.ledger r (Table.mem_delete.mp hr).1

theorem removeDependencyOfType (h : EdgeInv s) (fromId toId : String) (depType : DependencyType) :
    EdgeInv { s with db := (s.db.removeDependencyOfType fromId toId depType).2 } :=
  h.setDb fun d hd => h.edges d (Table.mem_delete.mp hd).1

theorem insertDependency (h : EdgeInv s) {dep : Dependency} (hdep : dep.Plain) :
    EdgeInv { s with db := s.db.insertDependency dep } := by
  refine h.setDb fun d hd => ?_
  rcases Table.mem_insertOrReplace.mp hd with ⟨hd, -⟩ | rfl
  · exact h.edges d hd
  · exact hdep

end EdgeInv

/-! ## 残る辺 -/

namespace EdgeState

/-- `d` と同じ両端と種類の、`d` より古くない辺がある。 -/
def Holds (s : EdgeState) (d : Dependency) : Prop :=
  ∃ d' ∈ s.db.dependencies.rows, d'.fromId = d.fromId ∧ d'.toId = d.toId ∧ d'.depType = d.depType
    ∧ d.createdAt ≤ d'.createdAt

/-- `d` より前には消されていない、`d` の墓標が届いている。 -/
def Buried (s : EdgeState) (d : Dependency) : Prop :=
  ∃ t ∈ s.received, t.Names d ∧ d.createdAt ≤ t.deletedAt

/-- `d` は残っているか、`d` の後の墓標が届いている。 -/
def EdgeKept (s : EdgeState) (d : Dependency) : Prop := s.Holds d ∨ s.Buried d

variable {s : EdgeState} {d d' : Dependency}

theorem Holds.of_mem (h : d ∈ s.db.dependencies.rows) : s.Holds d := ⟨d, h, rfl, rfl, rfl, le_rfl⟩

/-- 同じ両端と種類の、より古くない辺について言えれば足りる。 -/
theorem EdgeKept.of_le (hfrom : d'.fromId = d.fromId) (hto : d'.toId = d.toId)
    (htype : d'.depType = d.depType) (hle : d.createdAt ≤ d'.createdAt) (h : s.EdgeKept d') :
    s.EdgeKept d := by
  rcases h with ⟨e, he, hefrom, heto, hetype, hecreated⟩ | ⟨t, ht, ⟨htfrom, htto, httype⟩, hdeleted⟩
  · exact .inl ⟨e, he, hefrom.trans hfrom, heto.trans hto, hetype.trans htype, hle.trans hecreated⟩
  · exact .inr ⟨t, ht, ⟨htfrom.trans hfrom, htto.trans hto, httype.trans htype⟩, hle.trans hdeleted⟩

end EdgeState

/-! ## pull の一歩 -/

/-- pull の一歩の後、どの辺も残るか、後の墓標が届いている。 -/
def NewerEdgesKept (s s' : EdgeState) : Prop := ∀ d ∈ s.db.dependencies.rows, s'.EdgeKept d

theorem NewerEdgesKept.of_db {s s' : EdgeState} (h : s'.db = s.db) : NewerEdgesKept s s' := by
  intro d hd
  left
  refine .of_mem ?_
  rw [h]
  exact hd

/-- `r` の墓標が消す辺は、どれも `r` より後に作られていない。 -/
def EdgeState.TombstoneInOrder (s : EdgeState) (r : TaskDependencyRecord) (now : Time) : Prop :=
  ∀ d ∈ s.db.dependencies.rows, d.fromId = r.fromId → d.toId = r.toId → d.depType = r.depType →
    d.createdAt ≤ r.deletedAtOr now

/-- 書かれる辺 `r` は、後に作られた辺や別の種類の辺を置き換えない。 -/
def EdgeState.UpsertInOrder (s : EdgeState) (r : TaskDependencyRecord) : Prop :=
  ∀ d ∈ s.db.dependencies.rows, d.fromId = r.fromId → d.toId = r.toId →
    d.depType = r.depType ∧ d.createdAt ≤ r.createdAt

/-- `dep` を読んだ後に作り直された辺は、墓標より後に作られていない。 -/
def EdgeState.HealInOrder (s : EdgeState) (plan : HealPlan) (entityId : Text) (dep : Dependency) :
    Prop :=
  EdgeState.healSkips plan entityId = false → ∀ t, EdgeState.tombstonedAt plan entityId = some t →
    dep.createdAt ≤ t → ∀ d ∈ s.db.dependencies.rows,
      d.fromId = dep.fromId → d.toId = dep.toId → d.depType = dep.depType → d ≠ dep →
      d.createdAt ≤ t

/-- 一つの辺を消した後に無くなっているのは、その辺だけである。 -/
theorem mem_removeDependencyOfType_or {db : Db} (fromId toId : String) (depType : DependencyType)
    {d : Dependency} (hd : d ∈ db.dependencies.rows) :
    d ∈ (db.removeDependencyOfType fromId toId depType).2.dependencies.rows
      ∨ (d.fromId = fromId ∧ d.toId = toId ∧ d.depType = depType) := by
  by_cases hmatch : d.fromId = fromId ∧ d.toId = toId ∧ d.depType = depType
  · exact .inr hmatch
  · left
    rw [Db.removeDependencyOfType]
    exact Table.mem_delete.mpr ⟨hd, by simpa using hmatch⟩

section Steps

variable {s : EdgeState} {aliasClass : List Text} {project : String}

/-- 墓標の取り込みが順序を守るのは、消す辺がどれも墓標より後に作られていないときである。 -/
theorem applyDependencyTombstone_kept {r : TaskDependencyRecord} {now : Time}
    (h : s.TombstoneInOrder r now) : NewerEdgesKept s (s.applyDependencyTombstone r now) := by
  intro d hd
  rcases mem_removeDependencyOfType_or r.fromId r.toId r.depType hd with
    hkeep | ⟨hfrom, hto, htype⟩
  · exact .inl (.of_mem hkeep)
  · refine .inr ⟨r.tombstone now, ?_, ⟨hfrom.symm, hto.symm, htype.symm⟩, h d hd hfrom hto htype⟩
    simp [EdgeState.applyDependencyTombstone]

theorem EdgeInv.applyDependencyTombstone (h : EdgeInv s) {r : TaskDependencyRecord}
    (hr : r.dependency.Plain) (now : Time) : EdgeInv (s.applyDependencyTombstone r now) := by
  have hplain : ∀ t ∈ [r.tombstone now], PlainId t.fromId ∧ PlainId t.toId := by
    intro t ht
    rw [List.mem_singleton] at ht
    rw [ht]
    exact hr
  have hdb := (h.receive hplain).removeDependencyOfType r.fromId r.toId r.depType
  exact hdb.recordTombstone ⟨_, List.mem_append_right _ (List.mem_singleton_self _), rfl, rfl⟩

theorem applyDependencyUpsert_cases (s : EdgeState) (dep : Dependency) :
    s.applyDependencyUpsert dep = s
      ∨ (∃ db, s.db.addDependency dep = .ok ((), db))
        ∧ s.applyDependencyUpsert dep = { s with db := s.db.insertDependency dep } := by
  unfold EdgeState.applyDependencyUpsert
  split
  · cases hadd : s.db.addDependency dep with
    | error e => exact .inl rfl
    | ok x =>
      refine .inr ⟨⟨x.2, rfl⟩, ?_⟩
      unfold Db.addDependency at hadd
      obtain ⟨-, -, hadd⟩ := bind_eq_ok.mp hadd
      obtain ⟨-, -, hadd⟩ := bind_eq_ok.mp hadd
      obtain ⟨-, -, hadd⟩ := bind_eq_ok.mp hadd
      cases hadd
      rfl
  · exact .inl rfl

theorem insertDependency_kept {r : TaskDependencyRecord} (h : s.UpsertInOrder r) :
    NewerEdgesKept s { s with db := s.db.insertDependency r.dependency } := by
  intro d hd
  by_cases hkey : d.key = r.dependency.key
  · obtain ⟨hfrom, hto⟩ := Prod.mk.inj hkey
    obtain ⟨htype, hle⟩ := h d hd hfrom hto
    exact .inl ⟨r.dependency, Table.mem_insertOrReplace.mpr (.inr rfl), hfrom.symm, hto.symm,
      htype.symm, hle⟩
  · exact .inl (.of_mem (Table.mem_insertOrReplace.mpr (.inl ⟨hd, hkey⟩)))

/-- 行を一つ取り込む。 -/
theorem applyRow_cases (aliasClass : List Text) (project : String) (s : EdgeState)
    (deleted : List (Text × Time)) (raw : PulledDependency) (now : Time) :
    s.applyRow aliasClass project deleted raw now = s
      ∨ (∃ r, raw.record = some r ∧ r.isDelete = false
        ∧ raw.matchesProject aliasClass project = true
        ∧ mapGet (dependencyEntityId r.dependency) deleted = none
        ∧ (∃ db, s.db.addDependency r.dependency = .ok ((), db))
        ∧ s.applyRow aliasClass project deleted raw now
          = { s with db := s.db.insertDependency r.dependency })
      ∨ ∃ r, raw.record = some r ∧ r.isDelete = true
        ∧ raw.matchesProject aliasClass project = true
        ∧ s.applyRow aliasClass project deleted raw now = s.applyDependencyTombstone r now := by
  unfold EdgeState.applyRow
  split
  · next hmatch =>
    cases hrec : raw.record with
    | none => exact .inl rfl
    | some r =>
      simp only
      split
      · next hdel => exact .inr (.inr ⟨r, rfl, hdel, hmatch, rfl⟩)
      · next hdel =>
        split
        · exact .inl rfl
        · next hget =>
          rcases applyDependencyUpsert_cases s r.dependency with h | ⟨hadd, h⟩
          · exact .inl h
          · exact .inr (.inl ⟨r, rfl, Bool.eq_false_of_not_eq_true hdel, hmatch,
              Option.not_isSome_iff_eq_none.mp hget, hadd, h⟩)
  · exact .inl rfl

/-- 抑える時刻は、全件か帳簿のどちらかにある。 -/
theorem mem_of_tombstonedAt {plan : HealPlan} {entityId : Text} {t : Time}
    (h : EdgeState.tombstonedAt plan entityId = some t) :
    (entityId, t) ∈ plan.snapshot.deleted ∨ (entityId, t) ∈ plan.tombstones := by
  unfold EdgeState.tombstonedAt at h
  split at h
  · next a b ha hb =>
    rw [← Option.some.inj h]
    rcases max_choice a b with hmax | hmax
    · rw [hmax]
      exact .inl (mem_of_mapGet ha)
    · rw [hmax]
      exact .inr (mem_of_mapGet hb)
  · next a ha hb =>
    rw [← Option.some.inj h]
    exact .inl (mem_of_mapGet ha)
  · exact .inr (mem_of_mapGet h)

/-- 修復の一辺。 -/
theorem healEdge_cases (s : EdgeState) (plan : HealPlan) (entityId : Text) (dep : Dependency) :
    s.healEdge plan entityId dep = s
      ∨ s.healEdge plan entityId dep = { s with ledger := s.ledger.clear entityId }
      ∨ ∃ t, EdgeState.healSkips plan entityId = false
        ∧ EdgeState.tombstonedAt plan entityId = some t ∧ dep.createdAt ≤ t
        ∧ s.healEdge plan entityId dep = { s with
          db := (s.db.removeDependencyOfType dep.fromId dep.toId dep.depType).2
          ledger := s.ledger.recordTombstone {
            id := entityId, fromId := dep.fromId, toId := dep.toId, depType := dep.depType
            deletedAt := t } } := by
  unfold EdgeState.healEdge
  split
  · exact .inl rfl
  · next hskip =>
    split
    · exact .inl rfl
    · next t ht =>
      split
      · next hle => exact .inr (.inr ⟨t, by simpa using hskip, ht, hle, rfl⟩)
      · exact .inr (.inl rfl)

end Steps

/-! ## 一歩の条件 -/

/-- 取り込む行は、手元の後の辺を失わせない。 -/
structure EdgeState.RowInOrder (aliasClass : List Text) (project : String) (s : EdgeState)
    (deleted : List (Text × Time)) (raw : PulledDependency) (now : Time) : Prop where
  tombstone : ∀ r, raw.record = some r → r.isDelete = true →
    raw.matchesProject aliasClass project = true → s.TombstoneInOrder r now
  upsert : ∀ r, raw.record = some r → r.isDelete = false →
    raw.matchesProject aliasClass project = true →
    mapGet (dependencyEntityId r.dependency) deleted = none →
    (∃ db, s.db.addDependency r.dependency = .ok ((), db)) → s.UpsertInOrder r

/--
実行のどの一歩も満たすべき条件。

取り込む墓標は、それより後に作られた辺を見つけない。書かれる届いた辺は、後に作られた辺や別の種類の辺を置き換えない。
修復が消す辺は、読んだ後に墓標より後の時刻で作り直されていない。辺の名前は区切りを含まない。
-/
def EdgeAct.InOrder (aliasClass : List Text) (project : String) (s : EdgeState) : EdgeAct → Prop
  | insert dep => dep.Plain
  | begin _ rows _ _ _ => PlainRows rows
  | snapshot _ rows _ => PlainRows rows
  | next p now =>
    match s.pc p with
    | .applying (raw :: _) deleted _ _ => s.RowInOrder aliasClass project deleted raw now
    | .healing ((entityId, dep) :: _) plan => s.HealInOrder plan entityId dep
    | _ => True
  | _ => True

section Step

variable {s : EdgeState} {aliasClass : List Text} {project : String}

/-- 行を一つ取り込む一歩。 -/
theorem applyRow_sound (h : EdgeInv s) (deleted : List (Text × Time)) {raw : PulledDependency}
    {now : Time} (hplain : ∀ r, raw.record = some r → r.dependency.Plain)
    (hok : s.RowInOrder aliasClass project deleted raw now) :
    EdgeInv (s.applyRow aliasClass project deleted raw now)
      ∧ s.received ⊆ (s.applyRow aliasClass project deleted raw now).received
      ∧ NewerEdgesKept s (s.applyRow aliasClass project deleted raw now) := by
  obtain heq | ⟨r, hr, hdel, hmatch, hget, hadd, heq⟩ | ⟨r, hr, hdel, hmatch, heq⟩ :=
    applyRow_cases aliasClass project s deleted raw now
  · rw [heq]
    exact ⟨h, List.Subset.refl _, .of_db rfl⟩
  · rw [heq]
    exact ⟨h.insertDependency (hplain r hr), List.Subset.refl _,
      insertDependency_kept (hok.upsert r hr hdel hmatch hget hadd)⟩
  · rw [heq]
    exact ⟨h.applyDependencyTombstone (hplain r hr) now, List.subset_append_left _ _,
      applyDependencyTombstone_kept (hok.tombstone r hr hdel hmatch)⟩

/-- 辺を一つ修復する一歩。消す辺には、それより後の墓標が届いている。 -/
theorem healEdge_sound (h : EdgeInv s) {plan : HealPlan} {entityId : Text} {dep : Dependency}
    (hid : entityId = dependencyEntityId dep) (hplain : dep.Plain)
    (hsnapshot : ∀ x ∈ plan.snapshot.deleted, Known s.received x)
    (htombstones : ∀ x ∈ plan.tombstones, Known s.received x)
    (hok : s.HealInOrder plan entityId dep) :
    EdgeInv (s.healEdge plan entityId dep)
      ∧ s.received ⊆ (s.healEdge plan entityId dep).received
      ∧ NewerEdgesKept s (s.healEdge plan entityId dep) := by
  obtain heq | heq | ⟨t, hskip, ht, hle, heq⟩ := healEdge_cases s plan entityId dep
  · rw [heq]
    exact ⟨h, List.Subset.refl _, .of_db rfl⟩
  · rw [heq]
    exact ⟨h.deleteLedger _, List.Subset.refl _, .of_db rfl⟩
  · rw [heq]
    have hknown : Known s.received (entityId, t) := by
      rcases mem_of_tombstonedAt ht with hmem | hmem
      · exact hsnapshot _ hmem
      · exact htombstones _ hmem
    refine ⟨(h.removeDependencyOfType _ _ _).recordTombstone hknown, List.Subset.refl _, ?_⟩
    obtain ⟨ts, hts, htid, htat⟩ := hknown
    have hnames : ts.Names dep := names_of_entityId_eq hplain (h.received ts hts) (htid.trans hid)
    intro d hd
    rcases mem_removeDependencyOfType_or dep.fromId dep.toId dep.depType hd with
      hkeep | ⟨hfrom, hto, htype⟩
    · exact .inl (.of_mem hkeep)
    · refine .inr ⟨ts, hts, ⟨hnames.1.trans hfrom.symm, hnames.2.1.trans hto.symm,
        hnames.2.2.trans htype.symm⟩, ?_⟩
      rw [htat]
      by_cases hsame : d = dep
      · rw [hsame]
        exact hle
      · exact hok hskip t ht hle d hd hfrom hto htype hsame

/-- pull が進む一歩は、新しい辺を残し、不変条件を保つ。 -/
theorem next_sound (h : EdgeInv s) {p : Nat} {now : Time}
    (hok : (EdgeAct.next p now).InOrder aliasClass project s) :
    EdgeInv (s.next aliasClass project p now) ∧ s.received ⊆ (s.next aliasClass project p now).received
      ∧ NewerEdgesKept s (s.next aliasClass project p now) := by
  have hpc := h.pcs p
  unfold EdgeState.next
  cases hp : s.pc p with
  | idle => exact ⟨h, List.Subset.refl _, .of_db rfl⟩
  | fetching localAfter pending => exact ⟨h, List.Subset.refl _, .of_db rfl⟩
  | applying rows deleted after pending =>
    rw [hp] at hpc
    cases rows with
    | nil =>
      cases after with
      | incremental => exact ⟨h.setPc trivial, List.Subset.refl _, .of_db rfl⟩
      | heal state =>
        refine ⟨h.setPc ⟨fun x hx => ?_, hpc.2 state rfl, fun x hx => ?_⟩, List.Subset.refl _,
          .of_db rfl⟩
        · obtain ⟨hmem, hid⟩ := mem_localDependencyMap hx
          exact ⟨hid, h.edges _ hmem⟩
        · obtain ⟨r, hr, hid, hat⟩ := TombstoneLedger.mem_entries hx
          have hknown := h.ledger r hr
          rwa [hid, hat] at hknown
    | cons raw rows =>
      simp only [EdgeAct.InOrder, hp] at hok
      obtain ⟨hinv, hsub, hkept⟩ := applyRow_sound h deleted
        (hpc.1 raw List.mem_cons_self) hok
      have hrest : (DependencyPc.applying rows deleted after pending).Sound s.received :=
        ⟨fun raw' hraw => hpc.1 raw' (List.mem_cons_of_mem _ hraw), hpc.2⟩
      exact ⟨hinv.setPc (hrest.mono hsub), hsub, hkept⟩
  | healing edges plan =>
    rw [hp] at hpc
    cases edges with
    | nil => exact ⟨(h.deleteLedger _).setPc trivial, List.Subset.refl _, .of_db rfl⟩
    | cons x edges =>
      obtain ⟨entityId, dep⟩ := x
      simp only [EdgeAct.InOrder, hp] at hok
      obtain ⟨hid, hplain⟩ := hpc.1 (entityId, dep) List.mem_cons_self
      obtain ⟨hinv, hsub, hkept⟩ := healEdge_sound h hid hplain hpc.2.1 hpc.2.2 hok
      have hrest : (DependencyPc.healing edges plan).Sound s.received :=
        ⟨fun x hx => hpc.1 x (List.mem_cons_of_mem _ hx), hpc.2⟩
      exact ⟨hinv.setPc (hrest.mono hsub), hsub, hkept⟩

/-- 応答を受け取る一歩。 -/
theorem begin_sound (project : String) (h : EdgeInv s) {p : Nat} {rows : List PulledDependency} (hrows : PlainRows rows)
    (isIncremental : Bool) (pending : List PendingDependency) (now : Time) :
    EdgeInv (s.begin project p rows isIncremental pending now)
      ∧ (s.begin project p rows isIncremental pending now).db = s.db := by
  unfold EdgeState.begin
  split
  · refine ⟨(h.receive (plain_of_mem_receivedTombstones hrows)).setPc ⟨hrows, ?_⟩, rfl⟩
    intro state heq x hx
    split at heq
    · simp at heq
    · rw [AfterApply.heal.injEq] at heq
      exact (known_remoteDependencyState x (heq ▸ hx)).mono (List.subset_append_right _ _)
  · exact ⟨h, rfl⟩

/-- 全件を受け取る一歩。 -/
theorem snapshot_sound (aliasClass : List Text) (project : String) (h : EdgeInv s) {p : Nat} {rows : List PulledDependency}
    (hrows : PlainRows rows) (now : Time) :
    EdgeInv (s.snapshot aliasClass project p rows now)
      ∧ (s.snapshot aliasClass project p rows now).db = s.db := by
  unfold EdgeState.snapshot
  split
  · refine ⟨(h.receive (plain_of_mem_receivedTombstones hrows)).setPc ⟨fun raw hraw => ?_, ?_⟩, rfl⟩
    · exact hrows raw (List.mem_filter.mp (List.mem_filter.mp hraw).1).1
    · intro state heq x hx
      rw [AfterApply.heal.injEq] at heq
      exact (known_remoteDependencyState x (heq ▸ hx)).mono (List.subset_append_right _ _)
  · exact ⟨h, rfl⟩

theorem EdgeInv.deleteTask (h : EdgeInv s) (id : String) :
    EdgeInv { s with db := (commit s.db (s.db.deleteTask id)).2 } := by
  refine h.setDb fun d hd => ?_
  rcases commit_snd_cases s.db (s.db.deleteTask id) with heq | ⟨a, db, hbody, heq⟩
  · rw [heq] at hd
    exact h.edges d hd
  · simp only [Db.deleteTask, bind_eq_ok, pure_eq_ok, Prod.mk.injEq] at hbody
    obtain ⟨-, -, -, hdb⟩ := hbody
    rw [heq, ← hdb] at hd
    exact h.edges d (Table.mem_delete.mp hd).1

/-- どの一歩も不変条件を保ち、pull の一歩は新しい辺を残す。 -/
theorem edgeStep_sound (h : EdgeInv s) {act : EdgeAct} (hok : act.InOrder aliasClass project s) :
    EdgeInv (edgeStep aliasClass project s act).2
      ∧ (act.isLocal = false → NewerEdgesKept s (edgeStep aliasClass project s act).2) := by
  cases act with
  | insert dep => exact ⟨h.insertDependency hok, nofun⟩
  | remove fromId toId => exact ⟨h.setDb fun d hd => h.edges d (Table.mem_delete.mp hd).1, nofun⟩
  | removeOfType fromId toId depType => exact ⟨h.removeDependencyOfType fromId toId depType, nofun⟩
  | delete id => exact ⟨h.deleteTask id, nofun⟩
  | begin p rows isIncremental pending now =>
    obtain ⟨hinv, hdb⟩ := begin_sound project h hok isIncremental pending now
    exact ⟨hinv, fun _ => .of_db hdb⟩
  | snapshot p rows now =>
    obtain ⟨hinv, hdb⟩ := snapshot_sound aliasClass project h hok now
    exact ⟨hinv, fun _ => .of_db hdb⟩
  | next p now =>
    obtain ⟨hinv, -, hkept⟩ := next_sound h hok
    exact ⟨hinv, fun _ => hkept⟩
  | stop p => exact ⟨h.setPc trivial, fun _ => .of_db rfl⟩

end Step

/-! ## 実行 -/

/-- 始めの状態。帳簿は空で、pull は一つも走っていない。 -/
structure EdgeState.Initial (s : EdgeState) : Prop where
  edges : ∀ d ∈ s.db.dependencies.rows, d.Plain
  ledger : s.ledger.rows = []
  pcs : ∀ p, s.pc p = .idle
  received : s.received = []

theorem EdgeState.Initial.inv {s : EdgeState} (h : s.Initial) : EdgeInv s where
  edges := h.edges
  received := by simp [h.received]
  ledger := by simp [h.ledger]
  pcs p := by
    rw [h.pcs p]
    trivial

/-- `d` の両端に触れる手元の操作。 -/
def EdgeAct.Touches (d : Dependency) : EdgeAct → Prop
  | insert dep => dep.fromId = d.fromId ∧ dep.toId = d.toId
  | remove fromId toId => fromId = d.fromId ∧ toId = d.toId
  | removeOfType fromId toId depType => fromId = d.fromId ∧ toId = d.toId ∧ depType = d.depType
  | delete id => id = d.fromId ∨ id = d.toId
  | _ => False

section Quiet

variable {s : EdgeState} {aliasClass : List Text} {project : String} {act : EdgeAct} {d : Dependency}

/-- 届いた墓標は無くならない。 -/
theorem received_edgeStep (h : EdgeInv s) (hok : act.InOrder aliasClass project s) :
    s.received ⊆ (edgeStep aliasClass project s act).2.received := by
  cases act with
  | insert dep => exact List.Subset.refl _
  | remove fromId toId => exact List.Subset.refl _
  | removeOfType fromId toId depType => exact List.Subset.refl _
  | delete id => exact List.Subset.refl _
  | begin p rows isIncremental pending now =>
    show _ ⊆ (s.begin project p rows isIncremental pending now).received
    unfold EdgeState.begin
    split
    · exact List.subset_append_left _ _
    · exact List.Subset.refl _
  | snapshot p rows now =>
    show _ ⊆ (s.snapshot aliasClass project p rows now).received
    unfold EdgeState.snapshot
    split
    · exact List.subset_append_left _ _
    · exact List.Subset.refl _
  | next p now => exact (next_sound h hok).2.1
  | stop p => exact List.Subset.refl _

/-- 両端に触れない手元の操作は、辺を残す。 -/
theorem mem_of_not_touches (hlocal : act.isLocal = true) (hquiet : ¬ act.Touches d)
    (hd : d ∈ s.db.dependencies.rows) :
    d ∈ (edgeStep aliasClass project s act).2.db.dependencies.rows := by
  cases act with
  | insert dep =>
    refine Table.mem_insertOrReplace.mpr (.inl ⟨hd, fun hkey => hquiet ?_⟩)
    obtain ⟨hfrom, hto⟩ := Prod.mk.inj hkey
    exact ⟨hfrom.symm, hto.symm⟩
  | remove fromId toId =>
    refine Table.mem_delete.mpr ⟨hd, decide_eq_false fun ⟨hfrom, hto⟩ => hquiet ⟨hfrom.symm, hto.symm⟩⟩
  | removeOfType fromId toId depType =>
    rcases mem_removeDependencyOfType_or fromId toId depType hd with hkeep | ⟨hfrom, hto, htype⟩
    · exact hkeep
    · exact absurd ⟨hfrom.symm, hto.symm, htype.symm⟩ hquiet
  | delete id =>
    show d ∈ (commit s.db (s.db.deleteTask id)).2.dependencies.rows
    rcases commit_snd_cases s.db (s.db.deleteTask id) with heq | ⟨a, db, hbody, heq⟩
    · rw [heq]
      exact hd
    · simp only [Db.deleteTask, bind_eq_ok, pure_eq_ok, Prod.mk.injEq] at hbody
      obtain ⟨-, -, -, hdb⟩ := hbody
      rw [heq, ← hdb]
      refine Table.mem_delete.mpr ⟨hd, decide_eq_false fun h => hquiet ?_⟩
      exact h.imp Eq.symm Eq.symm
  | begin | snapshot | next | stop => cases hlocal

theorem EdgeAct.not_touches_of_pull (h : act.isLocal = false) : ¬ act.Touches d := by
  cases act with
  | insert | remove | removeOfType | delete => cases h
  | begin | snapshot | next | stop => exact id

theorem EdgeAct.touches_congr {d' : Dependency} (hfrom : d'.fromId = d.fromId) (hto : d'.toId = d.toId)
    (htype : d'.depType = d.depType) (h : ¬ act.Touches d) : ¬ act.Touches d' := by
  cases act <;> simpa only [EdgeAct.Touches, hfrom, hto, htype] using h

/-- 両端に触れない一歩は、残すべき辺を残す。 -/
theorem edgeKept_step (h : EdgeInv s) (hok : act.InOrder aliasClass project s)
    (hquiet : ¬ act.Touches d) (hd : s.EdgeKept d) :
    (edgeStep aliasClass project s act).2.EdgeKept d := by
  rcases hd with ⟨d', hd', hfrom, hto, htype, hle⟩ | ⟨t, ht, hnames, hdeleted⟩
  · refine EdgeState.EdgeKept.of_le hfrom hto htype hle ?_
    cases hlocal : act.isLocal with
    | true =>
      have hquiet' := EdgeAct.touches_congr hfrom hto htype hquiet
      exact .inl (.of_mem (mem_of_not_touches hlocal hquiet' hd'))
    | false => exact (edgeStep_sound h hok).2 hlocal d' hd'
  · exact .inr ⟨t, received_edgeStep h hok ht, hnames, hdeleted⟩

/-- 両端に触れない実行は、残すべき辺を残す。 -/
theorem edgeKept_run {after : List EdgeAct} (h : EdgeInv s)
    (hok : Guarded (edgeStep aliasClass project) (fun s a => a.InOrder aliasClass project s) s after)
    (hquiet : ∀ act ∈ after, ¬ act.Touches d) (hd : s.EdgeKept d) :
    (run (edgeStep aliasClass project) s after).EdgeKept d := by
  induction after generalizing s with
  | nil => exact hd
  | cons act after ih =>
    obtain ⟨hact, hafter⟩ := hok
    refine ih (edgeStep_sound h hact).1 hafter (fun a ha => hquiet a (List.mem_cons_of_mem _ ha)) ?_
    exact edgeKept_step h hact (hquiet act List.mem_cons_self) hd

end Quiet

/--
**墓標の順序が守られる実行では、手元の辺は、それより後の墓標が届くまで残る。**

どの pull の順でも、手元の操作や別の pull がどこに割り込んでも成り立つ。辺を作った後に、手元の操作がその両端に触れない
かぎり、その後の墓標が一つも届いていなければ、同じ両端と種類の、それより古くない辺がある。
-/
theorem pull_keeps_newer_edges (aliasClass : List Text) (project : String) {s : EdgeState}
    (hinit : s.Initial) (before after : List EdgeAct) {d : Dependency}
    (hok : Guarded (edgeStep aliasClass project) (fun s a => a.InOrder aliasClass project s) s
      (before ++ after))
    (hd : d ∈ (run (edgeStep aliasClass project) s before).db.dependencies.rows)
    (hquiet : ∀ act ∈ after, ¬ act.Touches d) :
    (run (edgeStep aliasClass project) s (before ++ after)).EdgeKept d := by
  obtain ⟨hbefore, hafter⟩ := guarded_append.mp hok
  have hinv : EdgeInv (run (edgeStep aliasClass project) s before) :=
    run_invariant (I := EdgeInv) (fun s a h ha => (edgeStep_sound h ha).1) hinit.inv hbefore
  rw [run_append]
  exact edgeKept_run hinv hafter hquiet (.inl (.of_mem hd))

/-- `a → b` の辺。 -/
def edgeAt (createdAt : Time) : Dependency where
  fromId := "a"
  toId := "b"
  depType := .blocks
  createdAt := createdAt

/-- 依存が一つだけある表。 -/
def oneEdgeState (createdAt : Time) : EdgeState where
  db := { dependencies := ⟨[edgeAt createdAt], List.nodup_singleton _⟩ }

/-- `a → b` の墓標。 -/
def edgeTombstone (deletedAt : Time) : PulledDependency where
  scopeProject := some "cas-src"
  record := some {
    fromId := "a", toId := "b", depType := .blocks, createdAt := 1, deleted := true
    deletedAt := some deletedAt }

theorem plain_edgeAt (createdAt : Time) : (edgeAt createdAt).Plain := by
  show ':' ∉ "a".toList ∧ ':' ∉ "b".toList
  decide

theorem plainRows_edgeTombstone (deletedAt : Time) : PlainRows [edgeTombstone deletedAt] := by
  intro raw hraw r hr
  rw [List.mem_singleton.mp hraw] at hr
  cases hr
  exact plain_edgeAt 1

theorem initial_oneEdgeState (createdAt : Time) : (oneEdgeState createdAt).Initial := by
  refine ⟨fun d hd => ?_, rfl, fun _ => rfl, rfl⟩
  rw [List.mem_singleton.mp hd]
  exact plain_edgeAt createdAt

/-- 墓標の届いた後に作り直された辺は、全件の修復を経ても残る。 -/
theorem pull_keeps_newer_edges_recreated :
    let before := [.begin 0 [edgeTombstone 5] true [] 6, .next 0 6, .insert (edgeAt 10)]
    let after := [.stop 0, .begin 1 [] false [] 20, .next 1 20, .next 1 20, .next 1 20]
    (run (edgeStep [] "cas-src") (oneEdgeState 3) (before ++ after)).EdgeKept (edgeAt 10)
      ∧ ¬ (run (edgeStep [] "cas-src") (oneEdgeState 3) (before ++ after)).Buried (edgeAt 10) := by
  intro before after
  have hrow : (run (edgeStep [] "cas-src") (oneEdgeState 3) (before.take 1)).RowInOrder [] "cas-src"
      [("a:b:blocks".toList, 5)] (edgeTombstone 5) 6 := by
    refine ⟨?_, ?_⟩
    · intro r hr _ _ d hd _ _ _
      cases hr
      rw [List.mem_singleton.mp hd]
      decide
    · intro r hr hdel
      cases hr
      cases hdel
  have hheal : (run (edgeStep [] "cas-src") (oneEdgeState 3) (before ++ after.take 3)).HealInOrder
      ⟨{}, [("a:b:blocks".toList, 5)], []⟩ "a:b:blocks".toList (edgeAt 10) := by
    intro _ t ht hle
    cases ht
    exact absurd hle (by decide)
  refine ⟨pull_keeps_newer_edges [] "cas-src" (initial_oneEdgeState 3) before after ?_ ?_ ?_, ?_⟩
  · exact ⟨plainRows_edgeTombstone 5, hrow, plain_edgeAt 10, trivial, nofun, trivial, hheal, trivial, trivial⟩
  · exact List.mem_singleton_self _
  · exact fun act hact => EdgeAct.not_touches_of_pull ((by decide : ∀ act ∈ after, act.isLocal = false) act hact)
  · unfold EdgeState.Buried ReceivedTombstone.Names
    decide +kernel

/-- 取り込みは、墓標より後に作り直された辺も消す。 -/
theorem pull_removes_recreated_edge :
    edgeAt 10 ∈ (oneEdgeState 10).db.dependencies.rows
      ∧ ¬ (run (edgeStep [] "cas-src") (oneEdgeState 10)
        [.begin 0 [edgeTombstone 5] true [] 20, .next 0 20]).EdgeKept (edgeAt 10) := by
  refine ⟨List.mem_singleton_self _, ?_⟩
  unfold EdgeState.EdgeKept EdgeState.Holds EdgeState.Buried ReceivedTombstone.Names
  decide +kernel

end Cassy
