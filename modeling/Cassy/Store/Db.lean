import Cassy.Infra.Result
import Cassy.Infra.Table
import Cassy.Store.Types

/-!
# 調整用の表

agent の登録、task と依存、lease とその履歴の表をまとめた状態。
一つの database を何本の connection で開いていても、表はこれ一組である。
-/

namespace Cassy

open Infra

/-- 調整用の表の内容。 -/
structure Db where
  agents : Table Agent.id := .empty
  tasks : Table Task.id := .empty
  dependencies : Table Dependency.key := .empty
  taskLeases : Table TaskLease.taskId := .empty
  worktreeLeases : Table WorktreeLease.worktreeId := .empty
  leaseHistory : List LeaseHistoryEntry := []

namespace Db

/-- `log_lease_event`。履歴の末尾に足す。 -/
def logLeaseEvent (db : Db) (e : LeaseHistoryEntry) : Db :=
  { db with leaseHistory := db.leaseHistory ++ [e] }

/-- `UPDATE agents SET … WHERE id = ?`。 -/
def updateAgent (db : Db) (id : String) (f : Agent → Agent)
    (hf : ∀ a, (f a).id = a.id := by exact fun _ => rfl) : Db :=
  { db with agents := db.agents.update (fun a => a.id = id) f hf }

/-- `UPDATE agents SET active_tasks = MAX(0, active_tasks - n) WHERE id = ?`。 -/
def decrementActiveTasks (db : Db) (id : String) (n : Nat) : Db :=
  db.updateAgent id fun a => { a with activeTasks := a.activeTasks - n }

/-- `UPDATE agents SET active_tasks = active_tasks + 1 WHERE id = ?`。 -/
def incrementActiveTasks (db : Db) (id : String) : Db :=
  db.updateAgent id fun a => { a with activeTasks := a.activeTasks + 1 }

@[simp] theorem logLeaseEvent_agents (db : Db) (e : LeaseHistoryEntry) :
    (db.logLeaseEvent e).agents = db.agents := rfl

@[simp] theorem updateAgent_taskLeases (db : Db) (id : String) (f : Agent → Agent)
    (hf : ∀ a, (f a).id = a.id) : (db.updateAgent id f hf).taskLeases = db.taskLeases := rfl

end Db

end Cassy
