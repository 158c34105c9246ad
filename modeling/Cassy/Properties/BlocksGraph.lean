import Cassy.Task.Dependency

/-!
# `blocks` の有向グラフの非巡回性

`add_dependency` は、閉路検査の文と書き込みの文の間に他の process の書き込みを許す。
二つの process が互いに逆向きの辺を検査してから、二つとも書き込むと閉路ができる
（`crossing_adds_make_cycle`）。

閉路ができるのは、書き込む瞬間に検査をやり直すと落ちる場合であり、その場合に限る
（`blocks_acyclic_iff`）。割り込みの無い `add_dependency` はこれに当たらない
（`addDependency_acyclic`）。
-/

namespace Cassy

open Infra

variable {db db' : Db}
variable {dep : Dependency}

/-! ## 辺の増減 -/

theorem mem_blocksEdges {e : String × String} :
    e ∈ db.blocksEdges ↔ ∃ d ∈ db.dependencies.rows, d.depType = .blocks ∧ d.key = e := by
  simp only [Db.blocksEdges, List.mem_map, List.mem_filter, decide_eq_true_eq, and_assoc]

/-- 行を減らす操作は辺を減らす。 -/
theorem blocksEdges_subset (h : ∀ d ∈ db'.dependencies.rows, d ∈ db.dependencies.rows) :
    ∀ e ∈ db'.blocksEdges, e ∈ db.blocksEdges := by
  intro e he
  obtain ⟨d, hd, ht, hk⟩ := mem_blocksEdges.mp he
  exact mem_blocksEdges.mpr ⟨d, h d hd, ht, hk⟩

theorem mem_insertDependency {d : Dependency} :
    d ∈ (db.insertDependency dep).dependencies.rows
      ↔ (d ∈ db.dependencies.rows ∧ d.key ≠ dep.key) ∨ d = dep := Table.mem_insertOrReplace

/-- 書き込みで増える辺は、書き込んだ辺だけである。 -/
theorem blocksEdges_insert_subset :
    ∀ e ∈ (db.insertDependency dep).blocksEdges, e ∈ db.blocksEdges ∨ e = dep.key := by
  intro e he
  obtain ⟨d, hd, ht, hk⟩ := mem_blocksEdges.mp he
  rcases mem_insertDependency.mp hd with ⟨hd, -⟩ | rfl
  · exact Or.inl (mem_blocksEdges.mpr ⟨d, hd, ht, hk⟩)
  · exact Or.inr hk.symm

/-- `blocks` 以外の種別での書き込みは、辺を増やさない。同じ辺があれば `blocks` でなくなる。 -/
theorem blocksEdges_insert_other (h : dep.depType ≠ .blocks) :
    ∀ e ∈ (db.insertDependency dep).blocksEdges, e ∈ db.blocksEdges := by
  intro e he
  obtain ⟨d, hd, ht, hk⟩ := mem_blocksEdges.mp he
  rcases mem_insertDependency.mp hd with ⟨hd, -⟩ | rfl
  · exact mem_blocksEdges.mpr ⟨d, hd, ht, hk⟩
  · exact absurd ht h

/-- `blocks` の書き込みは、元の辺を一つも失わない。 -/
theorem blocksEdges_insert_blocks (h : dep.depType = .blocks) :
    dep.key ∈ (db.insertDependency dep).blocksEdges
      ∧ ∀ e ∈ db.blocksEdges, e ∈ (db.insertDependency dep).blocksEdges := by
  have hnew : dep.key ∈ (db.insertDependency dep).blocksEdges :=
    mem_blocksEdges.mpr ⟨dep, mem_insertDependency.mpr (Or.inr rfl), h, rfl⟩
  refine ⟨hnew, fun e he => ?_⟩
  obtain ⟨d, hd, ht, rfl⟩ := mem_blocksEdges.mp he
  by_cases hk : d.key = dep.key
  · rw [hk]
    exact hnew
  · exact mem_blocksEdges.mpr ⟨d, mem_insertDependency.mpr (Or.inl ⟨hd, hk⟩), ht, rfl⟩

theorem wouldCreateCycle_iff {fromId toId : String} :
    db.wouldCreateCycle fromId toId = true
      ↔ Relation.ReflTransGen (EdgeRel db.blocksEdges) toId fromId := by
  rw [Db.wouldCreateCycle, decide_eq_true_eq, mem_reachable_iff]

/-! ## 書き込みと閉路 -/

/-- 検査に通る辺の書き込みは閉路を作らない。 -/
theorem acyclic_insert (h : Acyclic db.blocksEdges)
    (hsafe : dep.depType = .blocks → db.wouldCreateCycle dep.fromId dep.toId = false) :
    Acyclic (db.insertDependency dep).blocksEdges := by
  by_cases ht : dep.depType = .blocks
  · refine h.add (fun hpath => ?_) blocksEdges_insert_subset
    have := hsafe ht
    rw [wouldCreateCycle_iff.mpr hpath] at this
    exact absurd this (by decide)
  · exact h.mono (blocksEdges_insert_other ht)

/-- 検査に落ちる辺の書き込みは閉路を作る。 -/
theorem cyclic_insert (ht : dep.depType = .blocks)
    (hcycle : db.wouldCreateCycle dep.fromId dep.toId = true) :
    ¬ Acyclic (db.insertDependency dep).blocksEdges := by
  obtain ⟨hnew, hold⟩ : dep.key ∈ (db.insertDependency dep).blocksEdges
      ∧ ∀ e ∈ db.blocksEdges, e ∈ (db.insertDependency dep).blocksEdges :=
    blocksEdges_insert_blocks ht
  refine not_acyclic_of_back hnew ?_
  exact Relation.ReflTransGen.mono (fun _ _ he => hold _ he) _ _ (wouldCreateCycle_iff.mp hcycle)

/-- 割り込みの無い `add_dependency` は非巡回性を保つ。 -/
theorem addDependency_acyclic {u : Unit} (h : Acyclic db.blocksEdges)
    (hadd : db.addDependency dep = .ok (u, db')) : Acyclic db'.blocksEdges := by
  simp only [Db.addDependency, bind_eq_ok, pure_eq_ok, Prod.mk.injEq] at hadd
  obtain ⟨_, -, _, -, _, hcheck, -, rfl⟩ := hadd
  refine acyclic_insert h fun ht => ?_
  simp only [Db.checkCycle, ensure_eq_ok] at hcheck
  simpa using hcheck ht

/-! ## 並行実行 -/

/-- `blocks` の行を書き込む瞬間に、検査をやり直しても通る。 -/
def InsertSafe (s : Shared) : DependencyAct → Prop
  | .next p =>
    match s.pc p with
    | .insert dep =>
      dep.depType = .blocks → s.db.wouldCreateCycle dep.fromId dep.toId = false
    | _ => True
  | _ => True

instance (s : Shared) (a : DependencyAct) : Decidable (InsertSafe s a) :=
  match a with
  | .next p =>
    match h : s.pc p with
    | .insert dep => decidable_of_iff
      (dep.depType = .blocks → s.db.wouldCreateCycle dep.fromId dep.toId = false)
      (by simp only [InsertSafe, h])
    | .idle | .validateTo _ | .checkCycle _ => .isTrue (by simp only [InsertSafe, h])
  | .start .. | .abandon _ => .isTrue trivial

@[simp] theorem check_db (s : Shared) (p : Nat) (test : Except StoreError Unit) (pc : AddPc) :
    (s.check p test pc).2.db = s.db := by
  unfold Shared.check
  split <;> rfl

/-- 呼び出しの最初の文は辺を増やさない。 -/
theorem start_acyclic {s : Shared} {p : Nat} {call : DependencyCall}
    (h : Acyclic s.db.blocksEdges) : Acyclic (s.start p call).2.db.blocksEdges := by
  cases call with
  | addDependency dep =>
    rw [Shared.start, check_db]
    exact h
  | removeDependency fromId toId =>
    exact h.mono (blocksEdges_subset fun d hd => (Table.mem_delete.mp hd).1)
  | removeDependencyOfType fromId toId depType =>
    exact h.mono (blocksEdges_subset fun d hd => (Table.mem_delete.mp hd).1)
  | delete id =>
    rw [Shared.start]
    rcases commit_snd_cases s.db (s.db.deleteTask id) with hs | ⟨u, db', hb, hs⟩
    · simp only [hs]
      exact h
    · simp only [hs]
      simp only [Db.deleteTask, bind_eq_ok, ensure_eq_ok, pure_eq_ok, Prod.mk.injEq] at hb
      obtain ⟨-, -, -, rfl⟩ := hb
      exact h.mono (blocksEdges_subset fun d hd => (Table.mem_delete.mp hd).1)

/-- **一歩が非巡回性を保つのは、書き込みが検査に通るときであり、そのときに限る。** -/
theorem acyclic_step_iff {s : Shared} {a : DependencyAct} (h : Acyclic s.db.blocksEdges) :
    Acyclic (dependencyStep s a).2.db.blocksEdges ↔ InsertSafe s a := by
  cases a with
  | start p call =>
    refine ⟨fun _ => trivial, fun _ => ?_⟩
    rw [dependencyStep]
    split
    · exact start_acyclic h
    · exact h
  | abandon p => exact ⟨fun _ => trivial, fun _ => h⟩
  | next p =>
    simp only [dependencyStep, Shared.next, InsertSafe]
    cases hpc : s.pc p with
    | idle => exact ⟨fun _ => trivial, fun _ => h⟩
    | validateTo dep =>
      simp only [check_db]
      exact ⟨fun _ => trivial, fun _ => h⟩
    | checkCycle dep =>
      simp only [check_db]
      exact ⟨fun _ => trivial, fun _ => h⟩
    | insert dep =>
      constructor
      · intro hac ht
        cases hcycle : s.db.wouldCreateCycle dep.fromId dep.toId with
        | false => rfl
        | true => exact absurd hac (cyclic_insert ht hcycle)
      · exact fun hsafe => acyclic_insert h hsafe

/--
**`blocks` の非巡回性。**

任意個の process の文の任意の並びについて、途中のどの状態でも非巡回であるのは、`blocks` の行を
書き込むどの瞬間にも検査が通る状態であるときであり、そのときに限る。
-/
theorem blocks_acyclic_iff (s : Shared) (acts : List DependencyAct)
    (h : Acyclic s.db.blocksEdges) :
    (∀ pre, pre <+: acts → Acyclic (run dependencyStep s pre).db.blocksEdges)
      ↔ Guarded dependencyStep InsertSafe s acts := by
  induction acts generalizing s with
  | nil =>
    refine ⟨fun _ => trivial, fun _ pre hpre => ?_⟩
    rw [List.prefix_nil.mp hpre]
    exact h
  | cons a acts ih =>
    constructor
    · intro hall
      have hstep : Acyclic (dependencyStep s a).2.db.blocksEdges :=
        hall [a] (List.cons_prefix_cons.mpr ⟨rfl, List.nil_prefix⟩)
      refine ⟨(acyclic_step_iff h).mp hstep, (ih _ hstep).mp fun pre hpre => ?_⟩
      exact hall (a :: pre) (List.cons_prefix_cons.mpr ⟨rfl, hpre⟩)
    · rintro ⟨hsafe, hrest⟩ pre hpre
      have hstep := (acyclic_step_iff h).mpr hsafe
      cases pre with
      | nil => exact h
      | cons b pre =>
        obtain ⟨rfl, htail⟩ := List.cons_prefix_cons.mp hpre
        exact (ih _ hstep).mpr hrest pre htail

/-! ## 具体的な実行 -/

/-- 依存の無い二つの task。 -/
def twoTasks : Shared where
  db := { tasks := (Table.empty.insertOrIgnore { id := "a" }).insertOrIgnore { id := "b" } }

theorem twoTasks_acyclic : Acyclic twoTasks.db.blocksEdges := by
  intro _ h
  obtain ⟨_, he, -⟩ := Relation.TransGen.head'_iff.mp h
  exact absurd he List.not_mem_nil

/-- 二つの task の間の `blocks`。 -/
def blocksDep (fromId toId : String) : Dependency := { fromId, toId, depType := .blocks }

/-- 片方が書き込みまで終えてから、もう片方が始める。逆向きの辺は検査で落ちる。 -/
def serialAdds : List DependencyAct :=
  [.start 0 (.addDependency (blocksDep "a" "b")), .next 0, .next 0, .next 0,
    .start 1 (.addDependency (blocksDep "b" "a")), .next 1, .next 1, .next 1]

theorem blocks_acyclic_serialAdds :
    Acyclic (run dependencyStep twoTasks serialAdds).db.blocksEdges :=
  (blocks_acyclic_iff twoTasks serialAdds twoTasks_acyclic).mpr (by decide) serialAdds
    (List.prefix_refl _)

/-- 二つの process が、互いに逆向きの辺の検査を済ませてから書き込む。 -/
def crossingAdds : List DependencyAct :=
  [.start 0 (.addDependency (blocksDep "a" "b")), .start 1 (.addDependency (blocksDep "b" "a")),
    .next 0, .next 1, .next 0, .next 1, .next 0, .next 1]

theorem crossing_adds_make_cycle :
    Acyclic twoTasks.db.blocksEdges
      ∧ ¬ Acyclic (run dependencyStep twoTasks crossingAdds).db.blocksEdges := by
  refine ⟨twoTasks_acyclic, not_acyclic_of_back (x := "a") (y := "b") (by decide) ?_⟩
  exact mem_reachable_iff.mp (by decide)

end Cassy
