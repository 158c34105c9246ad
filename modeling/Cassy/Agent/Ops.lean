import Cassy.Agent.Registry
import Cassy.Infra.Run
import Cassy.Task.Dependency

/-!
# lease に触る操作の一覧

`SqliteAgentStore` と `SqliteTaskStore` の操作のうち `task_leases` に触るものを一つの型に
まとめ、一歩の実行を定める。操作の引数には、関数が内部で読む時計と環境変数、
`continuity::capture` の成否も含める。
-/

namespace Cassy

open Infra

/-- store の操作。 -/
inductive AgentOp where
  | register (agent : Agent) (env : Option String) (capture : Except StoreError Unit)
      (rehomedAt : String)
  | tryClaim (taskId agentId : String) (durationSecs : Int) (reason : Option String) (now : Time)
  | releaseLease (taskId agentId : String)
  | releaseLeaseForTask (taskId reason : String)
  | releaseLeaseIfOwnerEpoch (taskId agentId : String) (epoch : UInt64) (reason : String)
  | renewLease (taskId agentId : String) (durationSecs : Int) (now : Time)
  | heartbeat (id : String) (now : Time)
  | reclaimExpiredLeases (now : Time)
  | markStale (id : String)
  | gracefulShutdown (id : String) (capture : Except StoreError Unit)
  | unregister (id : String) (capture : Except StoreError Unit)
  | deleteTask (id : String)

/-- 操作の答え。 -/
inductive AgentRes where
  | unit
  | claim (r : ClaimResult)
  | bool (b : Bool)
  | count (n : Nat)
  | tasks (ids : List String)
  deriving DecidableEq

/-- 操作の本体。 -/
def AgentOp.body (db : Db) : AgentOp → Except StoreError (AgentRes × Db)
  | register agent env capture rehomedAt =>
    mapResult (fun _ => AgentRes.unit) (db.register agent env capture rehomedAt)
  | tryClaim taskId agentId durationSecs reason now =>
    mapResult AgentRes.claim (db.tryClaim taskId agentId durationSecs reason now)
  | releaseLease taskId agentId => mapResult (fun _ => AgentRes.unit) (db.releaseLease taskId agentId)
  | releaseLeaseForTask taskId reason => mapResult AgentRes.bool (db.releaseLeaseForTask taskId reason)
  | releaseLeaseIfOwnerEpoch taskId agentId epoch reason =>
    mapResult AgentRes.bool (db.releaseLeaseIfOwnerEpoch taskId agentId epoch reason)
  | renewLease taskId agentId durationSecs now =>
    mapResult (fun _ => AgentRes.unit) (db.renewLease taskId agentId durationSecs now)
  | heartbeat id now => mapResult (fun _ => AgentRes.unit) (db.heartbeat id now)
  | reclaimExpiredLeases now => mapResult AgentRes.count (db.reclaimExpiredLeases now)
  | markStale id => mapResult (fun _ => AgentRes.unit) (db.markStale id)
  | gracefulShutdown id capture => mapResult AgentRes.tasks (db.gracefulShutdown id capture)
  | unregister id capture => mapResult (fun _ => AgentRes.unit) (db.unregister id capture)
  | deleteTask id => mapResult (fun _ => AgentRes.unit) (db.deleteTask id)

/-- 一つの操作を実行する。 -/
def agentStep (db : Db) (op : AgentOp) : Except StoreError AgentRes × Db := commit db (op.body db)

/-- 答えが `Ok` なら、本体がその答えと次の表を返している。 -/
theorem agentStep_ok {db : Db} {op : AgentOp} {r : AgentRes} (h : (agentStep db op).1 = .ok r) :
    op.body db = .ok (r, (agentStep db op).2) := commit_fst_ok h

/-!
## 文ごとに実行される期限切れの回収

`lease_reclaim_expired_leases` は transaction を張らないので、文と文の間に他の connection の
transaction が丸ごと割り込める。ここでは回収を次に流す文を覚えた機械として書き、割り込みを
`AgentOp` の一歩として挟めるようにする。

`HashMap` の走査の順序は決まっていないので、集計を並べ替える関数 `order` を引数に取る。
-/

/-- 回収が次に流す文。 -/
inductive ReclaimPc where
  /-- 期限切れの行を読む。 -/
  | select
  /-- 同じ条件の行を `expired` に移す。 -/
  | expire (expired : List TaskLease)
  /-- agent ごとに `active_tasks` を減らす。 -/
  | decrement (expired : List TaskLease) (rest : List (String × Nat))
  /-- 一つずつ履歴に残す。 -/
  | log (expired rest : List TaskLease)
  /-- 数を返した。 -/
  | returned (n : Nat)
  deriving DecidableEq

/--
回収の途中の状態。

`selected` 以下は、回収自身の文が読んだもの、移したもの、減らした数、残した履歴の記録である。
機械の動きはこれらに依らない。
-/
structure Reclaiming where
  db : Db
  pc : ReclaimPc := .select
  selected : List TaskLease := []
  moved : List TaskLease := []
  decrements : List (String × Nat) := []
  logged : List LeaseHistoryEntry := []

/-- 他の connection の transaction か、回収の次の文か。 -/
inductive ReclaimAct where
  | env (op : AgentOp)
  | next

section

variable (order : List (String × Nat) → List (String × Nat)) (now : Time)

/-- 回収の次の文を流す。 -/
def Reclaiming.next (s : Reclaiming) : Reclaiming :=
  match s.pc with
  | .select =>
    let expired := s.db.expiredLeases now
    { s with pc := .expire expired, selected := expired }
  | .expire expired =>
    { s with
      db := s.db.expireLeases now
      pc := .decrement expired (order (Db.agentCounts expired))
      moved := s.db.expiredLeases now }
  | .decrement expired [] => { s with pc := .log expired expired }
  | .decrement expired (c :: rest) =>
    { s with
      db := s.db.decrementActiveTasks c.1 c.2
      pc := .decrement expired rest
      decrements := s.decrements ++ [c] }
  | .log expired [] => { s with pc := .returned expired.length }
  | .log expired (l :: rest) =>
    { s with
      db := s.db.logLeaseEvent (Db.expiredEntry l)
      pc := .log expired rest
      logged := s.logged ++ [Db.expiredEntry l] }
  | .returned _ => s

/-- 一歩。 -/
def reclaimStep (s : Reclaiming) : ReclaimAct → Unit × Reclaiming
  | .env op => ((), { s with db := (agentStep s.db op).2 })
  | .next => ((), s.next order now)

end

end Cassy
