import Cassy.Infra.Reach
import Cassy.Infra.Run
import Cassy.Store.Db

/-!
# task の依存

`task_store.rs` のうち `dependencies` に触る操作。

`add_dependency` は transaction を張らない。両端の task の存在確認が二つ、`blocks` の
閉路検査が一つ、書き込みが一つの、四つの文をそれぞれ別に流す。文ごとの関数を先に置き、
割り込みの無いときの全体 `addDependency` をその並びとして書く。

`task_execution_states` と画面向けの event は、ここに置いた表に関わらないので省く。
-/

namespace Cassy

open Infra

namespace Db

variable (db : Db)

/-- `dep_type = 'blocks'` の行が定める辺。 -/
def blocksEdges : List (String × String) :=
  (db.dependencies.rows.filter fun d => d.depType = .blocks).map Dependency.key

/-- `validate_task_exists_with_conn`。 -/
def validateTaskExists (taskId : String) : Except StoreError Unit :=
  ensure (db.tasks.find? taskId).isSome (.taskNotFound taskId)

/-- `would_create_cycle`。`to_id` から `blocks` を辿って `from_id` に着くか。 -/
def wouldCreateCycle (fromId toId : String) : Bool :=
  fromId ∈ reachable db.blocksEdges toId

/-- `add_dependency_with_conn` の三つ目の文。`blocks` の辺だけを検査する。 -/
def checkCycle (dep : Dependency) : Except StoreError Unit :=
  let fromId := dep.fromId
  let toId := dep.toId
  ensure (dep.depType = .blocks → ¬ db.wouldCreateCycle fromId toId)
    (.parse s!"adding dependency {fromId} -> {toId} would create a cycle")

/-- `INSERT OR REPLACE INTO dependencies`。種別は主キーに入らないので、同じ辺は書き換わる。 -/
def insertDependency (dep : Dependency) : Db :=
  { db with dependencies := db.dependencies.insertOrReplace dep }

/-- 間に何も割り込まないときの `add_dependency`。 -/
def addDependency (dep : Dependency) : Except StoreError (Unit × Db) := do
  db.validateTaskExists dep.fromId
  db.validateTaskExists dep.toId
  db.checkCycle dep
  pure ((), db.insertDependency dep)

/-- `remove_dependency`。 -/
def removeDependency (fromId toId : String) : Db :=
  { db with dependencies := db.dependencies.delete fun d => d.fromId = fromId ∧ d.toId = toId }

/-- `remove_dependency_of_type`。消した行があったかを返す。 -/
def removeDependencyOfType (fromId toId : String) (depType : DependencyType) : Bool × Db :=
  let p := fun d : Dependency => decide (d.fromId = fromId ∧ d.toId = toId ∧ d.depType = depType)
  (0 < db.dependencies.count p, { db with dependencies := db.dependencies.delete p })

/-- `SqliteTaskStore::delete`。一つの transaction で、task が無ければ rollback される。 -/
def deleteTask (id : String) : Except StoreError (Unit × Db) := do
  ensure (db.tasks.find? id).isSome (.taskNotFound id)
  pure ((), { db with
    dependencies := db.dependencies.delete fun d => d.fromId = id ∨ d.toId = id
    taskLeases := db.taskLeases.delete fun l => l.taskId = id
    tasks := db.tasks.delete fun t => t.id = id })

end Db

/-!
## 依存の操作の並行実行

いくつかの process が、それぞれの connection で一つの database を操作する。`add_dependency` の
四つの文は別々に commit されるので、文ごとに進む機械として書く。`remove_dependency`、
`remove_dependency_of_type`、`delete` は一つの文か一つの transaction であり、一歩で終わる。

文が `SQLITE_BUSY` で落ちたり process が死んだりしたときは、その呼び出しをやめて始めに戻る
（`abandon`）。`with_write_retry` のやり直しは、その後の新しい呼び出しと同じである。
-/

/-- 依存の操作の呼び出し。 -/
inductive DependencyCall where
  | addDependency (dep : Dependency)
  | removeDependency (fromId toId : String)
  | removeDependencyOfType (fromId toId : String) (depType : DependencyType)
  | delete (id : String)

/-- 呼び出しの途中で、次に流す文。 -/
inductive AddPc where
  | idle
  | validateTo (dep : Dependency)
  | checkCycle (dep : Dependency)
  | insert (dep : Dependency)
  deriving DecidableEq

/-- 一つの database と、process ごとの呼び出しの進み具合。 -/
structure Shared where
  db : Db
  pc : Nat → AddPc := fun _ => .idle

/-- どの process が何をするか。 -/
inductive DependencyAct where
  | start (p : Nat) (call : DependencyCall)
  | next (p : Nat)
  | abandon (p : Nat)

/-- 呼び出しの答え。途中なら `none`。 -/
abbrev DependencyRes := Option (Except StoreError Bool)

namespace Shared

/-- process の進み具合を書き換える。 -/
def setPc (s : Shared) (p : Nat) (pc : AddPc) : Shared :=
  { s with pc := fun q => if q = p then pc else s.pc q }

/-- 検査の文を流す。落ちたら呼び出しが終わり、通れば次の文に進む。 -/
def check (s : Shared) (p : Nat) (test : Except StoreError Unit) (pc : AddPc) :
    DependencyRes × Shared :=
  match test with
  | .ok _ => (none, s.setPc p pc)
  | .error e => (some (.error e), s.setPc p .idle)

/-- 呼び出しの最初の文を流す。一文で終わる操作はここで終わる。 -/
def start (s : Shared) (p : Nat) : DependencyCall → DependencyRes × Shared
  | .addDependency dep => s.check p (s.db.validateTaskExists dep.fromId) (.validateTo dep)
  | .removeDependency fromId toId =>
    (some (.ok true), { s with db := s.db.removeDependency fromId toId })
  | .removeDependencyOfType fromId toId depType =>
    let r := s.db.removeDependencyOfType fromId toId depType
    (some (.ok r.1), { s with db := r.2 })
  | .delete id =>
    let r := commit s.db (s.db.deleteTask id)
    (some (r.1.map fun _ => true), { s with db := r.2 })

/-- 途中の呼び出しの次の文を流す。 -/
def next (s : Shared) (p : Nat) : DependencyRes × Shared :=
  match s.pc p with
  | .idle => (none, s)
  | .validateTo dep => s.check p (s.db.validateTaskExists dep.toId) (.checkCycle dep)
  | .checkCycle dep => s.check p (s.db.checkCycle dep) (.insert dep)
  | .insert dep =>
    (some (.ok true), { s with db := s.db.insertDependency dep }.setPc p .idle)

end Shared

/-- 一歩。途中の呼び出しがある process は、新しい呼び出しを始めない。 -/
def dependencyStep (s : Shared) : DependencyAct → DependencyRes × Shared
  | .start p call => if s.pc p = .idle then s.start p call else (none, s)
  | .next p => s.next p
  | .abandon p => (none, s.setPc p .idle)

end Cassy
