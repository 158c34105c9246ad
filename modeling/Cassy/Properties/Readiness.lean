import Cassy.Task.Readiness

/-!
# 一覧どうしの一致

着手できる task の一覧、待たされている task の一覧、task ごとの blocker、start gate の四つの問い合わせが、同じ事柄を言っていることを示す
（`readiness_views_agree`）。

SQL の見る状態は列の文字列であり、`Task` の状態ではない。`FromStr` は綴りの違う名前も読むので、この repository の書かない綴り
（`canceled` など）の行では両者が食い違う。読めない時刻は読むたびの時計になるので、そういう行は二度と同じ値に読まれない
（`readiness_views_differ`）。
-/

namespace Cassy

open Infra

variable {R : TaskReaders} {row : TaskRow} {task : Task} {now now' : RowClock}

/-! ## 二つの読み方 -/

/-- **列を一つずらして数え直した読み方は、元の読み方と同じである。** -/
theorem blockerFromRow_cons (fromId : String) (row : SqlRow) :
    blockerFromRow R now (.text fromId :: row) = Prod.mk fromId <$> taskFromRow R now row := by
  have hflag : ∀ i, flagAt (.text fromId :: row) (i + 1) = flagAt row i := fun _ => rfl
  have hdate : ∀ i t, datetimeOrNow R (.text fromId :: row) (i + 1) t = datetimeOrNow R row i t :=
    fun _ _ => rfl
  simp only [blockerFromRow, taskFromRow, getText_cons, getTextOption_cons, getI32_cons, hflag,
    hdate, map_bind, map_pure]
  rfl

/-! ## 読める行 -/

/-- 時計で補わずに読める行。 -/
structure TaskRow.Readable (R : TaskReaders) (row : TaskRow) : Prop where
  decodes : ∃ now task, taskFromRow R now row.columns = .ok task
  createdAt : ∃ s t, row.createdAt = .text s ∧ R.parseDatetime s = some t
  updatedAt : ∃ s t, row.updatedAt = .text s ∧ R.parseDatetime s = some t

/-- いつ読んでも `task` になる行。 -/
def TaskRow.Decoded (R : TaskReaders) (row : TaskRow) (task : Task) : Prop :=
  ∀ now, taskFromRow R now row.columns = .ok task

theorem datetimeOrNow_of {row : SqlRow} {i : Nat} {s : String} {t now : Time}
    (hs : row[i]? = some (.text s)) (ht : R.parseDatetime s = some t) :
    datetimeOrNow R row i now = .ok t := by
  rw [datetimeOrNow, getText_of hs, ok_bind, ht]
  rfl

theorem TaskRow.Readable.decoded (h : row.Readable R) : ∃ task, row.Decoded R task := by
  obtain ⟨now, task, hok⟩ := h.decodes
  obtain ⟨s, t, hs, ht⟩ := h.createdAt
  obtain ⟨s', t', hs', ht'⟩ := h.updatedAt
  have hc : ∀ now, datetimeOrNow R row.columns 11 now = .ok t := fun _ =>
    datetimeOrNow_of (congrArg some hs) ht
  have hu : ∀ now, datetimeOrNow R row.columns 12 now = .ok t' := fun _ =>
    datetimeOrNow_of (congrArg some hs') ht'
  refine ⟨task, fun now' => ?_⟩
  rw [← hok]
  simp only [taskFromRow, hc, hu]

/-- 読んだ値の id は行の id であり、状態は状態の列から読まれる。 -/
theorem taskFromRow_fields (h : taskFromRow R now row.columns = .ok task) :
    task.id = row.id
      ∧ ∃ s, row.status = .text s ∧ task.status = (TaskStatus.fromStr s).getD .open := by
  simp only [taskFromRow, bind_eq_ok, pure_eq_ok] at h
  obtain ⟨id, hid, _, -, _, -, _, -, _, -, _, -, status, hstatus, h⟩ := h
  have hid : SqlValue.text row.id = .text id := Option.some.inj (getText_eq_ok.mp hid)
  have hstatus : row.status = .text status := Option.some.inj (getText_eq_ok.mp hstatus)
  obtain ⟨_, -, _, -, _, -, _, -, _, -, _, -, _, -, _, -, _, -, _, -, _, -, _, -, _, -, _, -, _, -,
    _, -, _, -, _, -, _, -, _, -, _, -, _, -, _, -, _, -, _, -, rfl⟩ := h
  exact ⟨(SqlValue.text.inj hid).symm, status, hstatus, rfl⟩

/-- この repository の書いた状態の列では、SQL の見る終わりと `Task` の終わりが一致する。 -/
theorem TaskRow.Decoded.status_of (h : row.Decoded R task) {status : TaskStatus}
    (hs : row.status = .text status.toString) :
    task.status = status
      ∧ (row.unfinished = true ↔ task.status ≠ .closed ∧ task.status ≠ .cancelled) := by
  obtain ⟨-, s, hcol, hstatus⟩ := taskFromRow_fields (h (0, 0))
  have hs' : status.toString = s := SqlValue.text.inj (hs.symm.trans hcol)
  rw [← hs', TaskStatus.fromStr_toString, Option.getD_some] at hstatus
  refine ⟨hstatus, ?_⟩
  rw [hstatus, TaskRow.unfinished, hs]
  cases status <;> decide +kernel

/-! ## 問い合わせの条件 -/

theorem mem_orderByPriority {rows : List TaskRow} : row ∈ orderByPriority rows ↔ row ∈ rows :=
  List.mem_mergeSort

namespace ReadinessDb

variable {db : ReadinessDb} {id : String} {f : TaskRow → Task}

/-- 解決も抑止もされていない、外の project への依存がある。 -/
def WaitsOutside (db : ReadinessDb) (taskId : String) : Prop :=
  ∃ e ∈ db.external.rows, e.originTaskId = taskId ∧ e.resolutionState ≠ "resolved"
    ∧ e.suppressedAt = none

theorem waitsOutside_iff : db.waitsOutside id = true ↔ db.WaitsOutside id := by
  simp only [waitsOutside, WaitsOutside, List.any_eq_true, Bool.and_eq_true, decide_eq_true_eq,
    and_assoc]

theorem readTasks_of {clock : Nat → RowClock} {rows : List TaskRow}
    (h : ∀ row ∈ rows, row.Decoded R (f row)) : readTasks R clock rows = .ok (rows.map f) := by
  have hread : ∀ x ∈ rows.zipIdx, taskFromRow R (clock x.2) x.1.columns = .ok (f x.1) :=
    fun x hx => h x.1 (List.fst_mem_of_mem_zipIdx hx) _
  rw [readTasks, mapM_eq_ok hread]
  show Except.ok (rows.zipIdx.map (f ∘ Prod.fst)) = _
  rw [← List.map_map, List.zipIdx_map_fst]

/-! ## blocker -/

/-- `id` を待たせている行と、その依存。 -/
def holders (db : ReadinessDb) (id : String) : List (DependencyRow × TaskRow) :=
  (joinOn (fun d t => d.toId = t.id) db.dependencies.rows db.tasks.rows).filter fun (d, t) =>
    d.fromId = id && d.depType = "blocks" && t.unfinished

theorem holders_eq_nil_iff : db.holders id = [] ↔ db.waitsFor "blocks" id = false := by
  rw [holders, List.filter_eq_nil_iff, waitsFor, List.any_eq_false]

/-- 結合の外側を入れ替えても、得られる blocker は並びを除いて同じである。 -/
theorem getBlockers_of {clock : Nat → RowClock} (h : ∀ row ∈ db.tasks.rows, row.Decoded R (f row)) :
    ∃ bs, db.getBlockers R id clock = .ok bs ∧ ((db.holders id).map fun x => f x.2).Perm bs := by
  have hrows : ∀ row ∈ ((joinOn (fun t d => d.toId = t.id) db.tasks.rows
      db.dependencies.rows).filter fun x =>
        x.2.fromId = id && x.2.depType = "blocks" && x.1.unfinished).map Prod.fst,
      row.Decoded R (f row) := by
    intro row hrow
    obtain ⟨x, hx, rfl⟩ := List.mem_map.mp hrow
    exact h _ (mem_joinOn.mp (List.mem_of_mem_filter hx)).1
  refine ⟨_, readTasks_of hrows, ?_⟩
  have hswap : (joinOn (fun t d => decide (d.toId = t.id)) db.tasks.rows db.dependencies.rows).Perm
      ((joinOn (fun d t => decide (d.toId = t.id)) db.dependencies.rows db.tasks.rows).map
        Prod.swap) :=
    joinOn_swap_perm (List.Nodup.of_map _ db.dependencies.nodup)
      (List.Nodup.of_map _ db.tasks.nodup)
  rw [List.map_map]
  refine List.Perm.trans ?_ ((hswap.filter _).map _).symm
  rw [List.filter_map, List.map_map]
  rfl

theorem attachBlockers_eq : ∀ {tasks : List Task} {m : List (String × Task)},
    (tasks.map Task.id).Nodup →
    attachBlockers tasks m
      = tasks.map fun task => (task, (m.filter fun x => x.1 = task.id).map Prod.snd)
  | [], _, _ => rfl
  | task :: tasks, m, h => by
    rw [List.map_cons, List.nodup_cons] at h
    rw [attachBlockers, attachBlockers_eq h.2, List.map_cons]
    congr 1
    refine List.map_congr_left fun other hother => ?_
    have hne : other.id ≠ task.id := fun he =>
      h.1 (he ▸ List.mem_map.mpr ⟨other, hother, rfl⟩)
    rw [List.filter_filter]
    congr 2
    refine List.filter_congr fun x _ => ?_
    by_cases hx : x.1 = other.id
    · simp [hx, hne]
    · simp [hx]

/-! ## 待たされている task -/

/-- `list_blocked` の値。待たされている行を順に読み、それぞれの blocker を付ける。 -/
theorem listBlocked_of {clock blockerClock : Nat → RowClock}
    (h : ∀ row ∈ db.tasks.rows, row.Decoded R (f row)) :
    db.listBlocked R clock blockerClock
      = .ok ((orderByPriority (db.tasks.rows.filter db.blocked).dedup).map fun row =>
        (f row, (db.holders row.id).map fun x => f x.2)) := by
  have hmem : ∀ row ∈ orderByPriority (db.tasks.rows.filter db.blocked).dedup,
      row ∈ db.tasks.rows := fun row hrow =>
    List.mem_of_mem_filter (List.mem_dedup.mp (mem_orderByPriority.mp hrow))
  have hid : ∀ row ∈ db.tasks.rows, (f row).id = row.id := fun row hrow =>
    (taskFromRow_fields (h row hrow (0, 0))).1
  generalize hrows : orderByPriority (db.tasks.rows.filter db.blocked).dedup = rows at hmem
  have hread : readTasks R clock rows = .ok (rows.map f) :=
    readTasks_of fun row hrow => h row (hmem row hrow)
  have hids : (rows.map f).map Task.id = rows.map TaskRow.id := by
    rw [List.map_map]
    exact List.map_congr_left fun row hrow => hid row (hmem row hrow)
  have hnodup : ((rows.map f).map Task.id).Nodup := by
    rw [hids, ← hrows]
    refine (((List.mergeSort_perm _ _).map TaskRow.id).nodup_iff).mpr ?_
    rw [(List.Nodup.filter _ (List.Nodup.of_map _ db.tasks.nodup)).dedup]
    exact (List.Sublist.map _ List.filter_sublist).nodup db.tasks.nodup
  rw [listBlocked, hrows, hread, ok_bind]
  split
  · next hnil =>
    rw [List.map_eq_nil_iff.mp hnil]
    rfl
  · -- 二つ目の問い合わせの行を読み、task ごとに取り出す
    have hblockers : ∀ x ∈ (db.blockerRows ((rows.map f).map Task.id)).zipIdx,
        blockerFromRow R (blockerClock x.2) (.text x.1.1.fromId :: x.1.2.columns)
          = .ok (x.1.1.fromId, f x.1.2) := by
      intro x hx
      have hx : x.1 ∈ db.blockerRows _ := List.fst_mem_of_mem_zipIdx hx
      rw [blockerFromRow_cons, h _ (mem_joinOn.mp (List.mem_of_mem_filter hx)).2.1]
      rfl
    dsimp only
    rw [mapM_eq_ok hblockers, ok_bind, attachBlockers_eq hnodup, List.map_map]
    refine congrArg Except.ok (List.map_congr_left fun row hrow => Prod.ext rfl ?_)
    have hin : row.id ∈ (rows.map f).map Task.id := hids ▸ List.mem_map.mpr ⟨row, hrow, rfl⟩
    have hpairs : (db.blockerRows ((rows.map f).map Task.id)).zipIdx.map
          (fun x => (x.1.1.fromId, f x.1.2))
        = (db.blockerRows ((rows.map f).map Task.id)).map fun y => (y.1.fromId, f y.2) := by
      show List.map ((fun y : DependencyRow × TaskRow => (y.1.fromId, f y.2)) ∘ Prod.fst) _ = _
      rw [← List.map_map, List.zipIdx_map_fst]
    show List.map Prod.snd (List.filter _ (List.map _ (db.blockerRows _).zipIdx)) = _
    rw [hpairs, List.filter_map, List.map_map, blockerRows, List.filter_filter, holders]
    refine congrArg _ (List.filter_congr fun x _ => ?_)
    show (decide (x.1.fromId = (f row).id) && _) = _
    rw [hid row (hmem row hrow)]
    by_cases hx : x.1.fromId = row.id
    · simp only [hx, hin, decide_true, Bool.true_and]
    · simp only [hx, decide_false, Bool.false_and]

/-! ## 一致 -/

/--
`list_ready` の値 `ready`、start gate の集合 `gated`、`list_blocked` の値 `blocked` が、同じ事柄を言っている。

終わったかどうかは状態の列の文字列で決まる。この repository の書いた列では `Task` の状態と同じである（`stored`）。
-/
structure ViewsAgree (db : ReadinessDb) (R : TaskReaders) (ready : List Task) (gated : List String)
    (blocked : List (Task × List Task)) : Prop where
  ready_free : ∀ t ∈ ready, t.id ∉ gated ∧ ¬db.WaitsOutside t.id
  blocked_iff : ∀ row ∈ db.tasks.rows, ∀ task clock, row.Decoded R task →
    ((∃ bs, (task, bs) ∈ blocked)
      ↔ row.unfinished = true
        ∧ (db.getBlockers R row.id clock ≠ .ok [] ∨ db.WaitsOutside row.id))
  no_other : ∀ x ∈ blocked, ∃ row ∈ db.tasks.rows, row.Decoded R x.1
  blockers : ∀ x ∈ blocked, ∀ clock, ∃ bs, db.getBlockers R x.1.id clock = .ok bs ∧ x.2.Perm bs
  stored : ∀ row ∈ db.tasks.rows, ∀ task status, row.Decoded R task →
    row.status = .text (TaskStatus.toString status) →
      task.status = status
        ∧ (row.unfinished = true ↔ task.status ≠ .closed ∧ task.status ≠ .cancelled)

/-- start gate の集合にあるのは、`requires-start` の相手がまだ終わっていない task である。 -/
theorem waitsFor_of_mem_gates {clock : Nat → RowClock} {depClock : Nat → Time} {tasks : List Task}
    {deps : List Dependency} {gated : List String}
    (h : db.listWithParentDepsAndStartGates R clock depClock = .ok (tasks, deps, gated))
    (hid : id ∈ gated) : db.waitsFor "requires-start" id = true := by
  simp only [listWithParentDepsAndStartGates, bind_eq_ok, pure_eq_ok, Prod.mk.injEq] at h
  obtain ⟨_, -, -, -, rfl⟩ := h
  obtain ⟨x, hx, rfl⟩ := List.mem_map.mp (List.mem_dedup.mp hid)
  obtain ⟨hx, hp⟩ := List.mem_filter.mp hx
  rw [waitsFor, List.any_eq_true]
  refine ⟨x, hx, ?_⟩
  simpa using hp

theorem getBlockers_ne_nil_iff {clock : Nat → RowClock}
    (h : ∀ row ∈ db.tasks.rows, row.Decoded R (f row)) :
    db.getBlockers R id clock ≠ .ok [] ↔ db.waitsFor "blocks" id = true := by
  obtain ⟨bs, hbs, hperm⟩ := @getBlockers_of _ _ id _ clock h
  have hnil : bs = [] ↔ db.holders id = [] := by
    rw [← List.map_eq_nil_iff (f := fun x : DependencyRow × TaskRow => f x.2)]
    constructor
    · rintro rfl
      exact hperm.eq_nil
    · intro hl
      exact (hl ▸ hperm).nil_eq.symm
  rw [hbs, ne_eq, Except.ok.injEq, hnil, holders_eq_nil_iff, Bool.not_eq_false]

end ReadinessDb

open ReadinessDb

/--
**着手できる task の一覧どうしの一致。**

どの行も時計で補わずに読めるなら、四つの問い合わせはどれも落ちず、互いに食い違わない。`list_blocked` の付ける blocker は、
`get_blockers` の返す `Task` と並びを除いて等しい。
-/
theorem readiness_views_agree (R : TaskReaders) (db : ReadinessDb) (held : Bool)
    (clocks : Nat → Nat → RowClock) (depClock : Nat → Time)
    (h : ∀ row ∈ db.tasks.rows, row.Readable R) :
    ∃ ready tasks deps gated blocked,
      db.listReady R held (clocks 0) = .ok ready
      ∧ db.listWithParentDepsAndStartGates R (clocks 1) depClock = .ok (tasks, deps, gated)
      ∧ db.listBlocked R (clocks 2) (clocks 3) = .ok blocked
      ∧ ViewsAgree db R ready gated blocked := by
  -- 行ごとの値を一つ選ぶ
  obtain ⟨f, hf⟩ : ∃ f : TaskRow → Task, ∀ row ∈ db.tasks.rows, row.Decoded R (f row) := by
    choose f hf using fun row : {row // row ∈ db.tasks.rows} => (h row.1 row.2).decoded
    refine ⟨fun row => if hr : row ∈ db.tasks.rows then f ⟨row, hr⟩ else { id := "" }, ?_⟩
    intro row hr
    dsimp only
    rw [dif_pos hr]
    exact hf ⟨row, hr⟩
  have hid : ∀ row ∈ db.tasks.rows, (f row).id = row.id := fun row hrow =>
    (taskFromRow_fields (hf row hrow (0, 0))).1
  have hready : readTasks R (clocks 0) (orderByPriority (db.tasks.rows.filter db.ready))
      = .ok ((orderByPriority (db.tasks.rows.filter db.ready)).map f) :=
    readTasks_of fun row hrow => hf row (List.mem_of_mem_filter (mem_orderByPriority.mp hrow))
  have htasks : readTasks R (clocks 1) (orderByPriority db.tasks.rows)
      = .ok ((orderByPriority db.tasks.rows).map f) :=
    readTasks_of fun row hrow => hf row (mem_orderByPriority.mp hrow)
  have hgates : ∃ tasks deps gated,
      db.listWithParentDepsAndStartGates R (clocks 1) depClock = .ok (tasks, deps, gated) := by
    rw [listWithParentDepsAndStartGates, htasks]
    exact ⟨_, _, _, rfl⟩
  obtain ⟨tasks, deps, gated, hgates⟩ := hgates
  refine ⟨if held then [] else (orderByPriority (db.tasks.rows.filter db.ready)).map f,
    tasks, deps, gated, _, ?_, hgates, listBlocked_of hf, ?_⟩
  · rw [listReady]
    cases held with
    | true => rfl
    | false => exact hready
  · constructor
    case ready_free =>
      intro t ht
      cases held with
      | true => exact absurd ht List.not_mem_nil
      | false =>
        obtain ⟨row, hrow, rfl⟩ := List.mem_map.mp ht
        obtain ⟨hmem, hcond⟩ := List.mem_filter.mp (mem_orderByPriority.mp hrow)
        simp only [ReadinessDb.ready, Bool.and_eq_true, Bool.not_eq_true'] at hcond
        rw [hid row hmem]
        constructor
        · intro hgated
          rw [waitsFor_of_mem_gates hgates hgated] at hcond
          exact absurd hcond.1.2 (by decide)
        · intro hout
          rw [waitsOutside_iff.mpr hout] at hcond
          exact absurd hcond.2 (by decide)
    case blocked_iff =>
      intro row hrow task clock htask
      have heq : task = f row := by
        have htwice := (htask (0, 0)).symm.trans (hf row hrow (0, 0))
        exact Except.ok.inj htwice
      subst heq
      have hblocked : row ∈ orderByPriority (db.tasks.rows.filter db.blocked).dedup
          ↔ row.unfinished = true
            ∧ (db.waitsFor "blocks" row.id = true ∨ db.waitsOutside row.id = true) := by
        rw [mem_orderByPriority, List.mem_dedup, List.mem_filter, ReadinessDb.blocked,
          Bool.and_eq_true, Bool.or_eq_true]
        exact ⟨And.right, And.intro hrow⟩
      rw [getBlockers_ne_nil_iff hf, ← waitsOutside_iff, ← hblocked]
      constructor
      · rintro ⟨bs, hx⟩
        obtain ⟨row', hrow', he⟩ := List.mem_map.mp hx
        have hmem' : row' ∈ db.tasks.rows :=
          List.mem_of_mem_filter (List.mem_dedup.mp (mem_orderByPriority.mp hrow'))
        have hkey : row'.id = row.id := by
          rw [← hid row' hmem', ← hid row hrow, (Prod.mk.inj he).1]
        rwa [← Table.eq_of_key hmem' hrow hkey]
      · intro hx
        exact ⟨_, List.mem_map.mpr ⟨row, hx, rfl⟩⟩
    case no_other =>
      intro x hx
      obtain ⟨row, hrow, rfl⟩ := List.mem_map.mp hx
      have hmem : row ∈ db.tasks.rows :=
        List.mem_of_mem_filter (List.mem_dedup.mp (mem_orderByPriority.mp hrow))
      exact ⟨row, hmem, hf row hmem⟩
    case blockers =>
      intro x hx clock
      obtain ⟨row, hrow, rfl⟩ := List.mem_map.mp hx
      have hmem : row ∈ db.tasks.rows :=
        List.mem_of_mem_filter (List.mem_dedup.mp (mem_orderByPriority.mp hrow))
      show ∃ bs, db.getBlockers R (f row).id clock = .ok bs ∧ _
      rw [hid row hmem]
      exact getBlockers_of hf
    case stored =>
      intro row _ task status htask hstatus
      exact htask.status_of hstatus

/-! ## 具体的な表 -/

/-- 2024 年の始まりだけを知っている読み方。ほかの列は空の値にしか使わない。 -/
def newYearReaders : TaskReaders where
  parseRfc3339 s := if s = "2024-01-01T00:00:00+00:00" then some (seconds 1704067200) else none
  parseNaive _ := none
  readLabels _ := none
  readDeliverables _ := none
  readTerminalOutcome _ := none
  json := serdeJson

/-- 2024 年の始まりに作られた task の行。 -/
def newYearTask (id status : String) : TaskRow where
  id := id
  status := .text status
  createdAt := .text "2024-01-01T00:00:00+00:00"
  updatedAt := .text "2024-01-01T00:00:00+00:00"

/-- その行の値。 -/
def newYearValue (id : String) (status : TaskStatus) (createdAt : Time) : Task where
  id := id
  status := status
  createdAt := createdAt
  updatedAt := seconds 1704067200

theorem newYearTask_readable (id status : String) :
    (newYearTask id status).Readable newYearReaders where
  decodes := ⟨(0, 0), _, rfl⟩
  createdAt := ⟨_, _, rfl, rfl⟩
  updatedAt := ⟨_, _, rfl, rfl⟩

/-- `a` が、まだ終わっていない `b` を待っている。 -/
def waitingDb (a b : TaskRow) : ReadinessDb where
  tasks := (Table.empty.insertOrIgnore a).insertOrIgnore b
  dependencies := Table.empty.insertOrIgnore
    { fromId := a.id, toId := b.id, depType := "blocks" }

/-- `a` と `b` が、どちらも書かれたままの綴りの行である。 -/
def openPair : ReadinessDb := waitingDb (newYearTask "a" "open") (newYearTask "b" "open")

theorem readiness_views_agree_openPair :
    ∃ ready tasks deps gated blocked,
      openPair.listReady newYearReaders false (fun _ => (0, 0)) = .ok ready
      ∧ openPair.listWithParentDepsAndStartGates newYearReaders (fun _ => (0, 0)) (fun _ => 0)
        = .ok (tasks, deps, gated)
      ∧ openPair.listBlocked newYearReaders (fun _ => (0, 0)) (fun _ => (0, 0)) = .ok blocked
      ∧ ViewsAgree openPair newYearReaders ready gated blocked := by
  refine readiness_views_agree newYearReaders openPair false (fun _ _ => (0, 0)) (fun _ => 0) ?_
  intro row hrow
  have hrows : row = newYearTask "a" "open" ∨ row = newYearTask "b" "open" := by
    simpa [openPair, waitingDb, Table.insertOrIgnore, Table.insert?, Table.empty, newYearTask]
      using hrow
  rcases hrows with rfl | rfl <;> exact newYearTask_readable _ _

/-- 米式に綴られた、取り消された task。 -/
def canceledPair : ReadinessDb := waitingDb (newYearTask "a" "canceled") (newYearTask "b" "open")

/-- 時刻の読めない blocker。 -/
def undatedPair : ReadinessDb :=
  waitingDb (newYearTask "a" "open") { newYearTask "b" "open" with createdAt := .text "yesterday" }

/--
行が読めるだけでは一致しない。取り消された task が `list_blocked` に載り、時刻の読めない blocker は
`list_blocked` と `get_blockers` で別の値になる。
-/
theorem readiness_views_differ :
    (∃ task bs blocked, task.status = .cancelled
      ∧ canceledPair.listBlocked newYearReaders (fun _ => (0, 0)) (fun _ => (0, 0)) = .ok blocked
      ∧ (task, bs) ∈ blocked)
    ∧ ∃ task b b', undatedPair.listBlocked newYearReaders (fun _ => (0, 0)) (fun _ => (1, 1))
        = .ok [(task, [b])]
      ∧ undatedPair.getBlockers newYearReaders task.id (fun _ => (2, 2)) = .ok [b']
      ∧ b.createdAt ≠ b'.createdAt := by
  have hfirst : ∀ a : TaskRow, orderByPriority [a] = [a] := fun a => List.mergeSort_singleton a
  constructor
  · have hrows : (canceledPair.tasks.rows.filter canceledPair.blocked).dedup
        = [newYearTask "a" "canceled"] := by decide +kernel
    have hlist : canceledPair.listBlocked newYearReaders (fun _ => (0, 0)) (fun _ => (0, 0))
        = .ok [(newYearValue "a" .cancelled (seconds 1704067200),
          [newYearValue "b" .open (seconds 1704067200)])] := by
      rw [listBlocked, hrows, hfirst]
      decide +kernel
    exact ⟨_, _, _, rfl, hlist, List.mem_singleton_self _⟩
  · have hrows : (undatedPair.tasks.rows.filter undatedPair.blocked).dedup
        = [newYearTask "a" "open"] := by decide +kernel
    have hlist : undatedPair.listBlocked newYearReaders (fun _ => (0, 0)) (fun _ => (1, 1))
        = .ok [(newYearValue "a" .open (seconds 1704067200), [newYearValue "b" .open 1])] := by
      rw [listBlocked, hrows, hfirst]
      decide +kernel
    have hget : undatedPair.getBlockers newYearReaders "a" (fun _ => (2, 2))
        = .ok [newYearValue "b" .open 2] := by decide +kernel
    exact ⟨_, _, _, hlist, hget, by decide⟩

end Cassy
