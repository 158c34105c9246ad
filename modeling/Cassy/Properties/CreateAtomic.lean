import Cassy.Properties.BlocksGraph
import Cassy.Properties.TaskRevision

/-!
# `create_atomic` が残す依存

`create_atomic` は task の行と、頼まれた依存の行を一つの transaction で書く。`blocks` の閉路は
検査しない。新しい task に入る辺はまだ無い、という理由からである。

ところが存在確認は task を挿した後に流れるので、頼まれた blocker に新しい task 自身があっても
通ってしまう。閉路ができるのはこのときに限る（`createAtomic_acyclic_iff`）。

依存の主キーは両端だけなので、親を blocker にも挙げると、先に書いた `blocks` の行は後から
`parent-child` に書き換わる。残る行の全体は `createAtomic_rows` が言う。
-/

namespace Cassy

open Infra

namespace RevisionDb

variable {s m s' : RevisionDb} {origin : Option String} {task : Task} {blockedBy : List String}
  {epicId createdBy receiptId : Option String} {now : Time}

/-! ## 通る条件 -/

/-- 入力と書く前の状態だけで決まる、`create_atomic` が通る条件。 -/
structure Creatable (s : RevisionDb) (task : Task) (blockedBy : List String)
    (epicId receiptId : Option String) : Prop where
  fresh : s.row? task.id = none
  epic : ∀ id ∈ epicId.bind trimmedId?, ∃ t, s.row? id = some t ∧ t.taskType.toString = "epic"
  blockers : ∀ id ∈ blockedBy.filterMap trimmedId?, id ≠ task.id → (s.row? id).isSome
  receipt : ∀ id ∈ receiptId, s.receipts.find? id = none

/-- 両端の確認が通れば、依存の挿入は最後まで進む。 -/
theorem addDependencies_eq_ok_iff : ∀ {deps : List Dependency} {s m : RevisionDb},
    s.addDependencies deps = .ok m
      ↔ (∀ d ∈ deps, (s.row? d.fromId).isSome ∧ (s.row? d.toId).isSome)
        ∧ m = { s with proof := { s.proof with base := { s.proof.base with
            dependencies := deps.foldl Table.insertOrReplace s.proof.base.dependencies } } }
  | [], s, m => by
    simp only [addDependencies, Except.ok.injEq, List.not_mem_nil, false_imp_iff, implies_true,
      true_and, List.foldl_nil]
    exact eq_comm
  | dep :: deps, s, m => by
    have hstep : (∃ m', s.addDependencyUnchecked dep = .ok m' ∧ m'.addDependencies deps = .ok m)
        ↔ ((s.row? dep.fromId).isSome ∧ (s.row? dep.toId).isSome)
          ∧ RevisionDb.addDependencies { s with proof := { s.proof with
              base := s.proof.base.insertDependency dep } } deps = .ok m := by
      simp only [addDependencyUnchecked, Db.validateTaskExists, bind_eq_ok, ensure_eq_ok,
        pure_eq_ok]
      constructor
      · rintro ⟨_, ⟨-, hfrom, -, hto, rfl⟩, hrest⟩
        exact ⟨⟨hfrom, hto⟩, hrest⟩
      · rintro ⟨⟨hfrom, hto⟩, hrest⟩
        exact ⟨_, ⟨⟨⟩, hfrom, ⟨⟩, hto, rfl⟩, hrest⟩
    rw [addDependencies, bind_eq_ok, hstep, addDependencies_eq_ok_iff, List.forall_mem_cons]
    exact and_assoc.symm

theorem checkEpic_ok_iff {id : String} :
    s.checkEpic id = .ok ⟨⟩ ↔ ∃ t, s.row? id = some t ∧ t.taskType.toString = "epic" := by
  simp only [checkEpic, bind_eq_ok, okOr_eq_ok, ensure_eq_ok]

theorem forM_checkEpic_ok_iff {id : Option String} :
    id.forM s.checkEpic = .ok ⟨⟩
      ↔ ∀ i ∈ id, ∃ t, s.row? i = some t ∧ t.taskType.toString = "epic" := by
  cases id with
  | none => exact ⟨fun _ _ hi => absurd hi (Option.not_mem_none _), fun _ => rfl⟩
  | some id =>
    simp only [Option.mem_def, Option.some.injEq, forall_eq']
    exact checkEpic_ok_iff

/-- task の行を挿すのは、id が空いているときに通る。 -/
theorem addWithConn_fresh (h : s.row? task.id = none) : ∃ m, s.addWithConn task = .ok m := by
  let row : Task := { task with notes := neutralizeNewMarkers task.notes none }
  obtain ⟨tasks, htasks⟩ := Table.insert?_isSome (t := s.proof.base.tasks) (r := row) h
  refine ⟨afterInsert { s with proof := { s.proof with base := { s.proof.base with tasks } } }
    task.id, ?_⟩
  rw [addWithConn, ProofDb.addTask]
  show (okOr (s.proof.base.tasks.insert? row) _ >>= _) >>= _ = _
  rw [htasks]
  rfl

/-- 挿した行は引け、依存の表には触れない。 -/
theorem addWithConn_ok (h : s.addWithConn task = .ok m) :
    s.row? task.id = none ∧ (m.row? task.id).isSome
      ∧ m.proof.base.dependencies = s.proof.base.dependencies := by
  simp only [addWithConn, ProofDb.addTask, bind_eq_ok, okOr_eq_ok, pure_eq_ok] at h
  obtain ⟨_, ⟨tasks, hins, rfl⟩, rfl⟩ := h
  refine ⟨(Table.insert?_eq_some hins).1, ?_, ?_⟩
  · have hf := Table.find?_insert? hins task.id
    rw [if_pos rfl] at hf
    rw [afterInsert, row?, bump_proof, hf]
    rfl
  · rw [afterInsert, bump_proof]

theorem recordIfSome_isOk_iff {id : String} (hrow : s.present id = true) :
    (∃ m, s.recordIfSome receiptId id now = .ok m)
      ↔ ∀ i ∈ receiptId, s.receipts.find? i = none := by
  cases receiptId with
  | none => exact ⟨fun _ _ hi => absurd hi (Option.not_mem_none _), fun _ => ⟨s, rfl⟩⟩
  | some receiptId =>
    simp only [Option.mem_def, Option.some.injEq, forall_eq']
    obtain ⟨r, hr, hp⟩ := Option.any_eq_true _ _ |>.mp hrow
    have hbound : (s.revisions.find? id).filter MutationRevision.present = some r := by
      rw [hr, Option.filter_some, if_pos hp]
    simp only [recordIfSome, recordMutationReceipt, hbound, bind_eq_ok, okOr_eq_ok, pure_eq_ok,
      Option.some.injEq]
    constructor
    · rintro ⟨_, _, rfl, receipts, hins, -⟩
      exact (Table.insert?_eq_some hins).1
    · intro hfree
      let row : MutationReceipt :=
        { receiptId, entityId := id, revision := r.revision, createdAt := now }
      obtain ⟨receipts, hins⟩ := Table.insert?_isSome (t := s.receipts) (r := row) hfree
      exact ⟨_, r, rfl, receipts, hins, rfl⟩

/-- 出所の project を補っても、書く相手の id は同じである。 -/
theorem touched_of_created (h : s.addWithConn (taskWithDefaultOrigin origin task) = .ok m) :
    Touched s m task.id :=
  show Touched s m (taskWithDefaultOrigin origin task).id from addWithConn_touched h

theorem mem_createdDependencies {id : String} {epic : Option String} {d : Dependency} :
    d ∈ createdDependencies id blockedBy epic createdBy now
      ↔ d.fromId = id ∧ d.createdAt = now ∧ d.createdBy = createdBy
        ∧ (d.depType = .blocks ∧ d.toId ∈ blockedBy.filterMap trimmedId?
          ∨ d.depType = .parentChild ∧ d.toId ∈ epic) := by
  simp only [createdDependencies, List.mem_append, List.mem_map, Option.mem_toList]
  constructor
  · rintro (⟨toId, hto, rfl⟩ | ⟨toId, hto, rfl⟩)
    · exact ⟨rfl, rfl, rfl, .inl ⟨rfl, hto⟩⟩
    · exact ⟨rfl, rfl, rfl, .inr ⟨rfl, hto⟩⟩
  · obtain ⟨fromId, toId, depType, createdAt, createdBy'⟩ := d
    rintro ⟨rfl, rfl, rfl, ⟨rfl, hto⟩ | ⟨rfl, hto⟩⟩
    · exact .inl ⟨toId, hto, rfl⟩
    · exact .inr ⟨toId, hto, rfl⟩

/-- 通った `create_atomic` は、依存の表では頼まれた行を順に置き換えるだけである。 -/
theorem createAtomic_ok {a : Option Time}
    (h : s.createAtomic origin task blockedBy epicId createdBy receiptId now = .ok (a, s')) :
    Creatable s task blockedBy epicId receiptId
      ∧ s'.proof.base.dependencies
        = (createdDependencies task.id blockedBy (epicId.bind trimmedId?) createdBy now).foldl
          Table.insertOrReplace s.proof.base.dependencies := by
  simp only [createAtomic, bind_eq_ok, pure_eq_ok, Prod.mk.injEq] at h
  obtain ⟨_, hepic, m, hm, m', hdeps, s'', hr, -, rfl⟩ := h
  have htouched : Touched s m task.id := touched_of_created hm
  obtain ⟨hfresh, hself, hkept⟩ := addWithConn_ok hm
  have hepic := forM_checkEpic_ok_iff.mp hepic
  obtain ⟨hends, hm'⟩ := addDependencies_eq_ok_iff.mp hdeps
  obtain ⟨hproof, -, -⟩ := recordIfSome_ok hr
  have hpresent : m'.present task.id = true := by
    rw [(htouched.addDependencies hdeps).present_self, (addDependencies_frame hdeps).1]
    exact hself
  refine ⟨⟨hfresh, hepic, fun id hid hne => ?_, ?_⟩, ?_⟩
  · have hmem : (⟨task.id, id, .blocks, now, createdBy⟩ : Dependency)
        ∈ createdDependencies task.id blockedBy (epicId.bind trimmedId?) createdBy now :=
      mem_createdDependencies.mpr ⟨rfl, rfl, rfl, .inl ⟨rfl, hid⟩⟩
    rw [← htouched.others id hne]
    exact (hends _ hmem).2
  · have hfree := (recordIfSome_isOk_iff hpresent).mp ⟨_, hr⟩
    rwa [(htouched.addDependencies hdeps).receipts] at hfree
  · rw [hproof, hm', ← hkept]

/-- **`create_atomic` が通るのは `Creatable` のときであり、そのときに限る。** -/
theorem createAtomic_isOk_iff :
    (∃ r, s.createAtomic origin task blockedBy epicId createdBy receiptId now = .ok r)
      ↔ Creatable s task blockedBy epicId receiptId := by
  constructor
  · rintro ⟨⟨a, s'⟩, h⟩
    exact (createAtomic_ok h).1
  · intro hc
    have hfresh : s.row? (taskWithDefaultOrigin origin task).id = none := hc.fresh
    obtain ⟨m, hm⟩ := addWithConn_fresh hfresh
    have htouched : Touched s m task.id := touched_of_created hm
    have hself : (m.row? task.id).isSome := (addWithConn_ok hm).2.1
    have hends : ∀ d ∈ createdDependencies task.id blockedBy (epicId.bind trimmedId?) createdBy
        now, (m.row? d.fromId).isSome ∧ (m.row? d.toId).isSome := by
      intro d hd
      obtain ⟨hfrom, -, -, hto⟩ := mem_createdDependencies.mp hd
      refine ⟨by rw [hfrom]; exact hself, ?_⟩
      by_cases hne : d.toId = task.id
      · rw [hne]
        exact hself
      · rw [htouched.others _ hne]
        rcases hto with ⟨-, hto⟩ | ⟨-, hto⟩
        · exact hc.blockers _ hto hne
        · obtain ⟨t, ht, -⟩ := hc.epic _ hto
          rw [ht]
          rfl
    obtain ⟨m', hdeps⟩ : ∃ m', m.addDependencies (createdDependencies task.id blockedBy
        (epicId.bind trimmedId?) createdBy now) = .ok m' :=
      ⟨_, addDependencies_eq_ok_iff.mpr ⟨hends, rfl⟩⟩
    have hpresent : m'.present task.id = true := by
      rw [(htouched.addDependencies hdeps).present_self, (addDependencies_frame hdeps).1]
      exact hself
    have hfree : ∀ i ∈ receiptId, m'.receipts.find? i = none := by
      rw [(htouched.addDependencies hdeps).receipts]
      exact hc.receipt
    obtain ⟨s', hr⟩ : ∃ s', m'.recordIfSome receiptId task.id now = .ok s' :=
      (recordIfSome_isOk_iff hpresent).mpr hfree
    refine ⟨(none, s'), ?_⟩
    simp only [createAtomic, bind_eq_ok, pure_eq_ok]
    exact ⟨⟨⟩, forM_checkEpic_ok_iff.mpr hc.epic, m, hm, m', hdeps, s', hr, rfl⟩

/-! ## 書いた後の依存 -/

/-- 条件に合うものが一通りしか無い列を引く。 -/
private theorem find?_of_unique {α : Type} [DecidableEq α] {p : α → Bool} {l : List α} {x : α}
    (hx : p x = true) (h : ∀ y ∈ l, p y = true → y = x) :
    l.find? p = if x ∈ l then some x else none := by
  split
  · next hmem =>
    obtain ⟨y, hy⟩ := Option.isSome_iff_exists.mp (List.find?_isSome.mpr ⟨x, hmem, hx⟩)
    rw [hy, h y (List.mem_of_find?_eq_some hy) (List.find?_some hy)]
  · next hmem =>
    rw [List.find?_eq_none]
    intro y hy hp
    exact hmem (h y hy hp ▸ hy)

/-- 頼まれた依存のうち、最後に書かれる一行。親が `blocks` に勝つ。 -/
theorem find?_createdDependencies {id toId : String} {epic : Option String} :
    (createdDependencies id blockedBy epic createdBy now).reverse.find?
        (fun d => d.key = (id, toId))
      = if epic = some toId then some ⟨id, toId, .parentChild, now, createdBy⟩
        else if toId ∈ blockedBy.filterMap trimmedId? then
          some ⟨id, toId, .blocks, now, createdBy⟩
        else none := by
  have hone : ∀ (depType : DependencyType) (l : List String),
      (l.map fun toId => (⟨id, toId, depType, now, createdBy⟩ : Dependency)).reverse.find?
          (fun d => d.key = (id, toId))
        = if toId ∈ l then some ⟨id, toId, depType, now, createdBy⟩ else none := by
    intro depType l
    have hmem : (⟨id, toId, depType, now, createdBy⟩ : Dependency)
        ∈ (l.map fun toId => (⟨id, toId, depType, now, createdBy⟩ : Dependency)).reverse
          ↔ toId ∈ l := by
      simp
    rw [find?_of_unique (x := ⟨id, toId, depType, now, createdBy⟩) (by simp [Dependency.key])]
    · simp only [hmem]
    · intro d hd hk
      obtain ⟨to', -, rfl⟩ := List.mem_map.mp (List.mem_reverse.mp hd)
      simp only [Dependency.key, Prod.mk.injEq, true_and, decide_eq_true_eq] at hk
      rw [hk]
  simp only [createdDependencies]
  rw [List.reverse_append, List.find?_append, hone, hone]
  simp only [Option.mem_toList]
  by_cases h : epic = some toId <;> simp [h]

/-- 書いた後に残る行は、前からの行か、頼まれた行である。 -/
theorem mem_createAtomic {a : Option Time} {d : Dependency}
    (h : s.createAtomic origin task blockedBy epicId createdBy receiptId now = .ok (a, s'))
    (hd : d ∈ s'.proof.base.dependencies.rows) :
    d ∈ s.proof.base.dependencies.rows
      ∨ d ∈ createdDependencies task.id blockedBy (epicId.bind trimmedId?) createdBy now := by
  have hf := Table.find?_of_mem hd
  rw [(createAtomic_ok h).2, Table.find?_foldl_insertOrReplace, Option.or_eq_some_iff] at hf
  rcases hf with hf | ⟨-, hf⟩
  · exact .inr (List.mem_reverse.mp (List.mem_of_find?_eq_some hf))
  · exact .inl (Table.mem_of_find? hf)

/-- 新しい task から出る行を引く。 -/
theorem find?_createAtomic {a : Option Time} {toId : String}
    (h : s.createAtomic origin task blockedBy epicId createdBy receiptId now = .ok (a, s')) :
    s'.proof.base.dependencies.find? (task.id, toId)
      = (if epicId.bind trimmedId? = some toId then
          some ⟨task.id, toId, .parentChild, now, createdBy⟩
        else if toId ∈ blockedBy.filterMap trimmedId? then
          some ⟨task.id, toId, .blocks, now, createdBy⟩
        else none).or (s.proof.base.dependencies.find? (task.id, toId)) := by
  rw [(createAtomic_ok h).2, Table.find?_foldl_insertOrReplace, find?_createdDependencies]

end RevisionDb

/-! ## 閉路 -/

section Acyclicity

open RevisionDb

variable {parseTimestamp : Text → Bool} {origin : Option String} {s : RevisionDb} {task : Task}
  {blockedBy : List String} {epicId createdBy receiptId : Option String} {now : Time}

/-- 依存の両端は、いまある task である。 -/
def EndpointsExist (s : RevisionDb) : Prop :=
  ∀ d ∈ s.proof.base.dependencies.rows, (s.row? d.fromId).isSome ∧ (s.row? d.toId).isSome

/-- 落ちて何も変えないか、通って `blocks` の閉路が無いままか。 -/
def StaysAcyclic (s : RevisionDb) : Except StoreError (Option Time) × RevisionDb → Prop
  | (.ok _, s') => Acyclic s'.proof.base.blocksEdges
  | (.error _, s') => s' = s

/-- 新しい task を自分の blocker に挙げなければ、閉路はできない。 -/
theorem createAtomic_acyclic {a : Option Time} {s' : RevisionDb}
    (hac : Acyclic s.proof.base.blocksEdges) (hends : EndpointsExist s)
    (hself : task.id ∉ blockedBy.filterMap trimmedId?)
    (h : s.createAtomic origin task blockedBy epicId createdBy receiptId now = .ok (a, s')) :
    Acyclic s'.proof.base.blocksEdges := by
  have hfresh : s.row? task.id = none := (createAtomic_ok h).1.fresh
  refine hac.addSource (a := task.id) ?_ ?_
  · -- 前からの行は新しい task に入らず、頼まれた行も自分自身には入らない
    intro e he hto
    obtain ⟨d, hd, ht, rfl⟩ := mem_blocksEdges.mp he
    rcases mem_createAtomic h hd with hold | hnew
    · have hsome := (hends d hold).2
      rw [show d.toId = task.id from hto, hfresh] at hsome
      exact absurd hsome (by simp)
    · obtain ⟨-, -, -, ⟨-, hmem⟩ | ⟨hparent, -⟩⟩ := mem_createdDependencies.mp hnew
      · exact hself (hto ▸ hmem)
      · rw [ht] at hparent
        exact absurd hparent (by decide)
  · intro e he
    obtain ⟨d, hd, ht, rfl⟩ := mem_blocksEdges.mp he
    rcases mem_createAtomic h hd with hold | hnew
    · exact .inl (mem_blocksEdges.mpr ⟨d, hold, ht, rfl⟩)
    · exact .inr (mem_createdDependencies.mp hnew).1

/-- 新しい task を自分の blocker に挙げて通れば、自己辺が残る。 -/
theorem createAtomic_self_loop {a : Option Time} {s' : RevisionDb}
    (hself : task.id ∈ blockedBy.filterMap trimmedId?)
    (h : s.createAtomic origin task blockedBy epicId createdBy receiptId now = .ok (a, s')) :
    ¬ Acyclic s'.proof.base.blocksEdges := by
  obtain ⟨hc, -⟩ := createAtomic_ok h
  have hepic : epicId.bind trimmedId? ≠ some task.id := by
    intro he
    obtain ⟨t, ht, -⟩ := hc.epic _ he
    rw [hc.fresh] at ht
    exact absurd ht (by simp)
  have hrow : s'.proof.base.dependencies.find? (task.id, task.id)
      = some ⟨task.id, task.id, .blocks, now, createdBy⟩ := by
    rw [find?_createAtomic h, if_neg hepic, if_pos hself, Option.some_or]
  refine not_acyclic_of_back (x := task.id) (y := task.id) ?_ .refl
  exact mem_blocksEdges.mpr ⟨_, Table.mem_of_find? hrow, rfl, rfl⟩

/--
**`create_atomic` と `blocks` の非巡回性。**

閉路の無い、両端の揃った依存の表に task を足すとき、落ちて何も変えないか閉路の無いまま
通るのは、頼まれた blocker にその task 自身が無いか、入力がほかの理由で落ちるときであり、
そのときに限る。
-/
theorem createAtomic_acyclic_iff (parseTimestamp : Text → Bool) (origin : Option String)
    (s : RevisionDb) (task : Task) (blockedBy : List String)
    (epicId createdBy receiptId : Option String) (now : Time)
    (hac : Acyclic s.proof.base.blocksEdges) (hends : EndpointsExist s) :
    StaysAcyclic s (taskStep parseTimestamp origin s
        (.createAtomic task blockedBy epicId createdBy receiptId now))
      ↔ (task.id ∈ blockedBy.filterMap trimmedId? →
        ¬ Creatable s task blockedBy epicId receiptId) := by
  show StaysAcyclic s
    (commit s (s.createAtomic origin task blockedBy epicId createdBy receiptId now)) ↔ _
  cases h : s.createAtomic origin task blockedBy epicId createdBy receiptId now with
  | error e =>
    refine ⟨fun _ _ hc => ?_, fun _ => rfl⟩
    obtain ⟨r, hr⟩ : ∃ r, s.createAtomic origin task blockedBy epicId createdBy receiptId now
        = .ok r := createAtomic_isOk_iff.mpr hc
    rw [h] at hr
    exact absurd hr (by simp)
  | ok r =>
    obtain ⟨a, s'⟩ := r
    have hc : Creatable s task blockedBy epicId receiptId := (createAtomic_ok h).1
    show Acyclic s'.proof.base.blocksEdges ↔ _
    constructor
    · intro hac' hself
      exact absurd hac' (createAtomic_self_loop hself h)
    · intro hnot
      exact createAtomic_acyclic hac hends (fun hself => hnot hself hc) h

/-- 依存の無い store に、既にある task を blocker にして足す。 -/
def oneTask : RevisionDb where
  proof := { base := { tasks := Table.empty.insertOrIgnore { id := "a" } } }

theorem oneTask_acyclic : Acyclic oneTask.proof.base.blocksEdges := by
  intro _ h
  obtain ⟨_, he, -⟩ := Relation.TransGen.head'_iff.mp h
  exact absurd he List.not_mem_nil

theorem createAtomic_acyclic_iff_peer :
    StaysAcyclic oneTask (taskStep (fun _ => true) none oneTask
      (.createAtomic { id := "b" } [" a "] none none none 0)) :=
  (createAtomic_acyclic_iff (fun _ => true) none oneTask { id := "b" } [" a "] none none none 0
    oneTask_acyclic nofun).mpr fun hself => absurd hself (by decide)

/-- 新しい task を自分の blocker に挙げる。 -/
theorem createAtomic_blocks_itself :
    Acyclic oneTask.proof.base.blocksEdges ∧ EndpointsExist oneTask
      ∧ oneTask.row? "b" = none
      ∧ ¬ StaysAcyclic oneTask (taskStep (fun _ => true) none oneTask
        (.createAtomic { id := "b" } ["b"] none none none 0)) := by
  refine ⟨oneTask_acyclic, nofun, rfl, ?_⟩
  have hc : Creatable oneTask { id := "b" } ["b"] none none :=
    ⟨rfl, nofun, by decide, nofun⟩
  obtain ⟨⟨a, s'⟩, h⟩ : ∃ r, oneTask.createAtomic none { id := "b" } ["b"] none none none 0
      = .ok r := createAtomic_isOk_iff.mpr hc
  show ¬ StaysAcyclic oneTask
    (commit oneTask (oneTask.createAtomic none { id := "b" } ["b"] none none none 0))
  rw [h]
  exact createAtomic_self_loop (by decide) h

end Acyclicity

/-! ## 頼まれたものの全体 -/

section Rows

open RevisionDb

variable {origin : Option String} {s s' : RevisionDb} {task : Task} {blockedBy : List String}
  {epicId createdBy receiptId : Option String} {now : Time}

/-- その task から出る依存の行。 -/
def dependenciesFrom (s : RevisionDb) (id : String) : List Dependency :=
  s.proof.base.dependencies.rows.filter fun d => d.fromId = id

/--
`create_atomic` の後に、新しい task から出ているはずの行。

頼まれた id ごとに一行で、親でもある id は `parent-child` になる。同じ id の task が前にあって
行が残っていれば、頼まれなかった相手への行はそのままである。
-/
def createdRows (s : RevisionDb) (taskId : String) (blockers : List String)
    (epic createdBy : Option String) (now : Time) : List Dependency :=
  (blockers.dedup.filter fun toId => epic ≠ some toId).map
      (fun toId => ⟨taskId, toId, .blocks, now, createdBy⟩)
    ++ epic.toList.map (fun toId => ⟨taskId, toId, .parentChild, now, createdBy⟩)
    ++ (dependenciesFrom s taskId).filter fun d => d.toId ∉ blockers ∧ epic ≠ some d.toId

theorem mem_dependenciesFrom {id : String} {d : Dependency} :
    d ∈ dependenciesFrom s id
      ↔ d.fromId = id ∧ s.proof.base.dependencies.find? (id, d.toId) = some d := by
  rw [dependenciesFrom, List.mem_filter, decide_eq_true_eq, Table.find?_eq_some_iff]
  constructor
  · rintro ⟨hd, hfrom⟩
    exact ⟨hfrom, hd, Prod.ext hfrom rfl⟩
  · rintro ⟨hfrom, hd, -⟩
    exact ⟨hd, hfrom⟩

theorem nodup_dependenciesFrom (s : RevisionDb) (id : String) : (dependenciesFrom s id).Nodup :=
  (List.Nodup.of_map _ s.proof.base.dependencies.nodup).filter _

theorem mem_createdRows {id : String} {blockers : List String} {epic : Option String}
    {d : Dependency} :
    d ∈ createdRows s id blockers epic createdBy now
      ↔ d.fromId = id ∧ ((if epic = some d.toId then
          some (⟨id, d.toId, .parentChild, now, createdBy⟩ : Dependency)
        else if d.toId ∈ blockers then some ⟨id, d.toId, .blocks, now, createdBy⟩
        else none).or (s.proof.base.dependencies.find? (id, d.toId))) = some d := by
  have hlist : d ∈ createdRows s id blockers epic createdBy now
      ↔ (epic ≠ some d.toId ∧ d.toId ∈ blockers ∧ ⟨id, d.toId, .blocks, now, createdBy⟩ = d)
        ∨ (epic = some d.toId ∧ ⟨id, d.toId, .parentChild, now, createdBy⟩ = d)
        ∨ ((d.fromId = id ∧ s.proof.base.dependencies.find? (id, d.toId) = some d)
          ∧ d.toId ∉ blockers ∧ epic ≠ some d.toId) := by
    simp only [createdRows, List.mem_append, List.mem_map, List.mem_filter, List.mem_dedup,
      Option.mem_toList, mem_dependenciesFrom, decide_eq_true_eq, or_assoc]
    refine or_congr ?_ (or_congr ?_ Iff.rfl)
    · constructor
      · rintro ⟨toId, ⟨hb, he⟩, rfl⟩
        exact ⟨he, hb, rfl⟩
      · rintro ⟨he, hb, hd⟩
        exact ⟨d.toId, ⟨hb, he⟩, hd⟩
    · constructor
      · rintro ⟨toId, he, rfl⟩
        exact ⟨he, rfl⟩
      · rintro ⟨he, hd⟩
        exact ⟨d.toId, he, hd⟩
  have hfrom : ∀ {depType : DependencyType},
      (⟨id, d.toId, depType, now, createdBy⟩ : Dependency) = d → d.fromId = id :=
    fun h => h ▸ rfl
  rw [hlist]
  by_cases he : epic = some d.toId
  · simp only [he, ne_eq, not_true_eq_false, false_and, and_false, true_and, or_false, false_or,
      if_true, Option.some_or, Option.some.injEq]
    exact ⟨fun h => ⟨hfrom h, h⟩, And.right⟩
  · by_cases hb : d.toId ∈ blockers
    · simp only [he, hb, ne_eq, not_false_eq_true, not_true_eq_false, false_and, and_false,
        true_and, or_false, if_false, if_true, Option.some_or, Option.some.injEq]
      exact ⟨fun h => ⟨hfrom h, h⟩, And.right⟩
    · simp only [he, hb, ne_eq, not_false_eq_true, false_and, and_false, and_true, false_or,
        if_false, Option.none_or]

theorem nodup_createdRows (s : RevisionDb) (id : String) (blockers : List String)
    (epic createdBy : Option String) (now : Time) :
    (createdRows s id blockers epic createdBy now).Nodup := by
  have hinj : ∀ depType : DependencyType, Function.Injective
      fun toId => (⟨id, toId, depType, now, createdBy⟩ : Dependency) :=
    fun _ _ _ h => (Dependency.mk.inj h).2.1
  have hepic : epic.toList.Nodup := by cases epic <;> simp
  have hhead : ((blockers.dedup.filter fun toId => epic ≠ some toId).map
        (fun toId => (⟨id, toId, .blocks, now, createdBy⟩ : Dependency))
      ++ epic.toList.map fun toId =>
        (⟨id, toId, .parentChild, now, createdBy⟩ : Dependency)).Nodup := by
    refine List.nodup_append.mpr
      ⟨((List.nodup_dedup _).filter _).map (hinj _), hepic.map (hinj _), ?_⟩
    intro x hx y hy hxy
    obtain ⟨_, -, rfl⟩ := List.mem_map.mp hx
    obtain ⟨_, -, rfl⟩ := List.mem_map.mp hy
    exact absurd (Dependency.mk.inj hxy).2.2.1 (by decide)
  refine List.nodup_append.mpr ⟨hhead, (nodup_dependenciesFrom s id).filter _, ?_⟩
  intro x hx y hy hxy
  have hy := (List.mem_filter.mp hy).2
  simp only [decide_eq_true_eq] at hy
  rw [← hxy] at hy
  rcases List.mem_append.mp hx with hx | hx
  · obtain ⟨toId, hto, rfl⟩ := List.mem_map.mp hx
    exact hy.1 (List.mem_dedup.mp (List.mem_of_mem_filter hto))
  · obtain ⟨toId, hto, rfl⟩ := List.mem_map.mp hx
    exact hy.2 (by simpa using hto)

/--
**`create_atomic` が残す依存の行の全体。**

通ったときに新しい task から出ている行は、頼まれた相手ごとに一行と、頼まれていない相手への
前からの行である。親でもある blocker は `parent-child` の一行になる。落ちたときは何も変わらない。
-/
theorem createAtomic_rows (parseTimestamp : Text → Bool) (origin : Option String)
    (s : RevisionDb) (task : Task) (blockedBy : List String)
    (epicId createdBy receiptId : Option String) (now : Time) :
    let after := taskStep parseTimestamp origin s
      (.createAtomic task blockedBy epicId createdBy receiptId now)
    (∀ a, after.1 = .ok a → (dependenciesFrom after.2 task.id).Perm
        (createdRows s task.id (blockedBy.filterMap trimmedId?) (epicId.bind trimmedId?)
          createdBy now))
      ∧ ∀ e, after.1 = .error e → after.2 = s := by
  intro after
  refine ⟨fun a hok => ?_, fun e herr => commit_snd_of_error herr⟩
  have h : s.createAtomic origin task blockedBy epicId createdBy receiptId now
      = .ok (a, after.2) := commit_fst_ok hok
  rw [List.perm_ext_iff_of_nodup (nodup_dependenciesFrom _ _) (nodup_createdRows ..)]
  intro d
  rw [mem_dependenciesFrom, mem_createdRows, find?_createAtomic h]

/-- 親にできる task が一つある store。 -/
def oneEpic : RevisionDb where
  proof := { base := { tasks := Table.empty.insertOrIgnore { id := "e", taskType := .epic } } }

/-- 親を blocker にも挙げると通るが、`blocks` の行は残らない。 -/
theorem epic_replaces_blocker :
    (∃ a, (taskStep (fun _ => true) none oneEpic
        (.createAtomic { id := "t" } ["e"] (some "e") none none 0)).1 = .ok a)
      ∧ ¬ ((dependenciesFrom (taskStep (fun _ => true) none oneEpic
          (.createAtomic { id := "t" } ["e"] (some "e") none none 0)).2 "t").map
            fun d => (d.toId, d.depType)).Perm [("e", .blocks), ("e", .parentChild)] := by
  have hrow : ((dependenciesFrom (commit oneEpic (oneEpic.createAtomic none { id := "t" } ["e"]
      (some "e") none none 0)).2 "t").map fun d => (d.toId, d.depType))
      = [("e", .parentChild)] := by decide
  have hafter : taskStep (fun _ => true) none oneEpic
        (.createAtomic { id := "t" } ["e"] (some "e") none none 0)
      = commit oneEpic (oneEpic.createAtomic none { id := "t" } ["e"] (some "e") none none 0) := rfl
  rw [hafter, hrow]
  exact ⟨⟨none, rfl⟩, by decide⟩

end Rows

end Cassy
