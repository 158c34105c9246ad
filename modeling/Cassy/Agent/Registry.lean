import Mathlib.Data.List.Dedup
import Cassy.Agent.Lease

/-!
# agent の登録と引退

`agent_store/ops_agent.rs` と `ops_coordination.rs` の操作のうち、lease に触るもの。

引退の記録を残す `continuity::capture` は `agent_session_ends` にしか書かない。その表は
ここには置かず、成否だけを引数 `capture` に取る。落ちれば操作の全体が rollback される。
同じく、画面向けの event と QA の claim の後始末は、ここに置いた表に触らないので省く。
-/

namespace Cassy

open Infra

namespace Db

variable (db : Db)

/-! ## 登録 -/

/-- `HashMap::insert`。 -/
def insertMetadata (m : List (String × String)) (k v : String) : List (String × String) :=
  m.filter (fun e => e.1 ≠ k) ++ [(k, v)]

/-- 再起動した supervisor が置き換える、同じ名前と役割の生きた行。 -/
def isReplaced (agent : Agent) (a : Agent) : Bool :=
  a.id ≠ agent.id ∧ a.name = agent.name ∧ a.role = agent.role ∧ a.status.isLive

/-- 前の session の worker を新しい session に移す。 -/
def rehomeWorkers (prior session rehomedAt : String) : Db :=
  { db with
    agents := db.agents.update
      (fun a => a.role = .worker ∧ a.status.isLive ∧ a.factorySession = some prior)
      fun a => { a with
        factorySession := some session
        metadata := insertMetadata (insertMetadata a.metadata "factory_session_rehomed_from" prior)
          "factory_session_rehomed_at" rehomedAt } }

/-- `reconcile_restarted_factory_supervisor`。 -/
def reconcileRestartedFactorySupervisor (agent : Agent) (factorySession : Option String)
    (capture : Except StoreError Unit) (rehomedAt : String) : Except StoreError Db :=
  match factorySession with
  | none => .ok db
  | some session =>
    if agent.role ≠ .supervisor ∨ session = "" then .ok db
    else
      let prior := db.agents.rows.filter (isReplaced agent)
      let priorSessions := (prior.filterMap Agent.factorySession).dedup
      if priorSessions = [] then .ok db
      else do
        capture
        let db₁ := (priorSessions.filter fun s => s ≠ session).foldl
          (fun db s => db.rehomeWorkers s session rehomedAt) db
        pure { db₁ with
          agents := db₁.agents.update (isReplaced agent) fun a => { a with status := .shutdown } }

/-- `ON CONFLICT(id) DO UPDATE SET …`。`old` が既にある行、`agent` が挿そうとした行。 -/
def mergeRegistration (agent : Agent) (factorySession : Option String) (old : Agent) : Agent :=
  { agent with
    id := old.id
    agentType := old.agentType
    role := old.role
    ccSessionId := agent.ccSessionId.or old.ccSessionId
    registeredAt := if old.status = .shutdown ∧ agent.ccSessionId.isSome
      then agent.registeredAt else old.registeredAt
    factorySession := factorySession.or old.factorySession
    startupConfirmed := old.startupConfirmed }

/-- `agent_register`。`env` は環境変数 `CAS_FACTORY_SESSION`。 -/
def register (agent : Agent) (env : Option String) (capture : Except StoreError Unit)
    (rehomedAt : String) : Except StoreError (Unit × Db) := do
  let factorySession := agent.factorySession.or env
  let inserted := { agent with factorySession, startupConfirmed := false }
  let agents := match db.agents.find? agent.id with
    | some _ =>
      db.agents.update (fun a => a.id = agent.id) (mergeRegistration agent factorySession)
    | none => db.agents.insertOrIgnore inserted
  let db₁ ← { db with agents }.reconcileRestartedFactorySupervisor agent factorySession
    capture rehomedAt
  pure ((), db₁)

/-! ## heartbeat -/

/-- `TASK_LEASE_HEARTBEAT_RENEWAL_SECS`。 -/
def taskLeaseHeartbeatRenewalSecs : Int := 600

/-- 延長してよい lease をまとめて延長する。 -/
def renewAll (agentId : String) (expiresAt now : Time) : Db :=
  (db.renewableTaskLeases agentId).foldl
    (fun db l => db.renewRow l.taskId agentId l.epoch expiresAt now) db

/-- `agent_heartbeat`。 -/
def heartbeat (id : String) (now : Time) : Except StoreError (Unit × Db) :=
  match db.agents.find? id with
  | none => .error (.notFound s!"Agent not found: {id}")
  | some a =>
    let status := a.status.toString
    if a.status.isLive then
      let db₁ := db.updateAgent id fun a =>
        { a with lastHeartbeat := now, status := .active, startupConfirmed := true }
      let renewedUntil := now + seconds taskLeaseHeartbeatRenewalSecs
      let db₂ := db₁.renewAll id renewedUntil now
      .ok ((), { db₂ with
        worktreeLeases := db₂.worktreeLeases.update
          (fun l => l.agentId = id ∧ l.status = .active)
          fun l => { l with
            expiresAt := renewedUntil, renewedAt := now, renewalCount := l.renewalCount + 1 } })
    else .error (.other s!"Agent {id} is {status} — heartbeat ignored")

/-! ## 引退 -/

/-- agent が握っている有効な lease。 -/
def heldBy (id : String) (l : TaskLease) : Bool := l.agentId = id ∧ l.status = .active

/-- agent の有効な lease をまとめて `status` に移し、`event` を履歴に残す。 -/
def retireLeases (id : String) (status : LeaseStatus) (event : LeaseEventType)
    (reason : String) : Db :=
  let leases := db.taskLeases.rows.filter (heldBy id)
  let db₁ := db.setLeaseStatus (heldBy id) status
  let db₂ := { db₁ with
    worktreeLeases := db₁.worktreeLeases.update
      (fun l => l.agentId = id ∧ l.status = .active) fun l => { l with status } }
  leases.foldl (fun db l => db.logLeaseEvent
    { taskId := l.taskId, agentId := id, eventType := event, epoch := l.epoch
      reason := some reason }) db₂

/-- `agent_mark_stale`。`active_tasks` には触らない。 -/
def markStale (id : String) : Except StoreError (Unit × Db) :=
  let db₁ := { db with
    agents := db.agents.update (fun a => a.id = id ∧ a.status ≠ AgentStatus.shutdown)
      fun a => { a with status := .stale } }
  .ok ((), db₁.retireLeases id .revoked .revoked "agent_stale")

/-- `continuity::capture`。登録が無ければ何もしない。 -/
def captureSessionEnd (id : String) (capture : Except StoreError Unit) : Except StoreError Unit :=
  if (db.agents.find? id).isSome then capture else .ok ()

/-- `coord_graceful_shutdown`。解放した task を返す。 -/
def gracefulShutdown (id : String) (capture : Except StoreError Unit) :
    Except StoreError (List String × Db) := do
  db.captureSessionEnd id capture
  let taskIds := (db.taskLeases.rows.filter (heldBy id)).map TaskLease.taskId
  let db₁ := db.retireLeases id .released .released "graceful_shutdown"
  pure (taskIds, db₁.updateAgent id fun a => { a with status := .shutdown, activeTasks := 0 })

/-- `DELETE FROM agents WHERE id = ?`。外部キーの `ON DELETE CASCADE` で lease の行も消える。 -/
def deleteAgent (id : String) : Db :=
  { db with
    agents := db.agents.delete fun a => a.id = id
    taskLeases := db.taskLeases.delete fun l => l.agentId = id
    worktreeLeases := db.worktreeLeases.delete fun l => l.agentId = id }

/-- `agent_unregister`。登録が無ければ、lease を解放するだけの無操作に終わる。 -/
def unregister (id : String) (capture : Except StoreError Unit) :
    Except StoreError (Unit × Db) := do
  db.captureSessionEnd id capture
  let db₁ := db.setLeaseStatus (fun l => l.agentId = id) .released
  if (db.agents.find? id).isSome then pure ((), db₁.deleteAgent id) else pure ((), db₁)

end Db

end Cassy
