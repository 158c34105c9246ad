import Cassy.Agent.Ops

/-!
# lease の操作の仕様

操作ごとに「成功したとき何が起きたか」を一つの補題にまとめる。以後の証明は操作の本体を
展開せず、ここを引く。
-/

namespace Cassy

open Infra

namespace Db

variable {db db' : Db}
variable {taskId : String} {capture : Except StoreError Unit}

/-! ## 表を一つだけ触る操作の畳み込み -/

@[simp] theorem releaseRow_taskLeases (taskId agentId : String) (epoch : UInt64)
    (reason : Option String) :
    (db.releaseRow taskId agentId epoch reason).taskLeases = db.taskLeases := rfl

@[simp] theorem recordClaim_taskLeases (lease : TaskLease) :
    (db.recordClaim lease).taskLeases = db.taskLeases := rfl

theorem foldl_logLeaseEvent_taskLeases {α : Type} (e : α → LeaseHistoryEntry) (l : List α) :
    (l.foldl (fun db a => db.logLeaseEvent (e a)) db).taskLeases = db.taskLeases :=
  foldl_fixed (f := fun db a => db.logLeaseEvent (e a)) (p := Db.taskLeases) (fun _ _ => rfl) l db

theorem foldl_logLeaseEvent_agents {α : Type} (e : α → LeaseHistoryEntry) (l : List α) :
    (l.foldl (fun db a => db.logLeaseEvent (e a)) db).agents = db.agents :=
  foldl_fixed (f := fun db a => db.logLeaseEvent (e a)) (p := Db.agents) (fun _ _ => rfl) l db

theorem retireLeases_taskLeases (id : String) (status : LeaseStatus) (event : LeaseEventType)
    (reason : String) :
    (db.retireLeases id status event reason).taskLeases
      = (db.setLeaseStatus (heldBy id) status).taskLeases :=
  foldl_logLeaseEvent_taskLeases _ _

theorem retireLeases_agents (id : String) (status : LeaseStatus) (event : LeaseEventType)
    (reason : String) : (db.retireLeases id status event reason).agents = db.agents :=
  foldl_logLeaseEvent_agents _ _

/-! ## `try_claim` -/

/-- 取り直したときの表。 -/
def reclaimed (db : Db) (held : TaskLease) (taskId agentId : String) (durationSecs : Int)
    (reason : Option String) (now : Time) : Db :=
  let db₁ := if leaseValid now held
    then db.transferLease taskId held.agentId agentId held.epoch else db
  let lease := claimedLease taskId agentId durationSecs reason now (held.epoch + 1)
  { db₁ with
    taskLeases := db.taskLeases.update (fun l => l.taskId = taskId)
      fun l => { lease with taskId := l.taskId } }.recordClaim lease

/--
`try_claim` が `Ok` を返したときの三つの場合。

有効な lease に阻まれたか、既にある行を次の世代で書き換えたか、行を新しく挿したかである。
-/
theorem tryClaim_ok_cases {agentId : String} {durationSecs : Int} {reason : Option String}
    {now : Time} {r : ClaimResult}
    (h : db.tryClaim taskId agentId durationSecs reason now = .ok (r, db')) :
    (∃ held, db.taskLeases.find? taskId = some held ∧ leaseValid now held = true
        ∧ db.canTakeover agentId held.agentId = false
        ∧ r = .alreadyClaimed taskId held.agentId held.expiresAt ∧ db' = db)
      ∨ (∃ held, db.taskLeases.find? taskId = some held
        ∧ (leaseValid now held = true → db.canTakeover agentId held.agentId = true)
        ∧ (db.agents.find? agentId).isSome
        ∧ r = .success (claimedLease taskId agentId durationSecs reason now (held.epoch + 1))
        ∧ db' = db.reclaimed held taskId agentId durationSecs reason now)
      ∨ (∃ leases, db.taskLeases.find? taskId = none ∧ (db.agents.find? agentId).isSome
        ∧ db.taskLeases.insert? (claimedLease taskId agentId durationSecs reason now 1)
          = some leases
        ∧ r = .success (claimedLease taskId agentId durationSecs reason now 1)
        ∧ db' = { db with taskLeases := leases }.recordClaim
          (claimedLease taskId agentId durationSecs reason now 1)) := by
  unfold tryClaim at h
  split at h
  · next held hfind =>
    split at h
    · next hc =>
      simp only [Except.ok.injEq, Prod.mk.injEq] at h
      exact Or.inl ⟨held, hfind, hc.1, by simpa using hc.2, h.1.symm, h.2.symm⟩
    · next hc =>
      refine Or.inr (Or.inl ⟨held, hfind, ?_, ?_⟩)
      · intro hv
        simpa [hv] using hc
      · by_cases hv : leaseValid now held = true
        · simp only [hv, if_true, bind_eq_ok, ensure_eq_ok, pure_eq_ok, exists_const,
            Prod.mk.injEq] at h
          obtain ⟨hagent, hr, hdb⟩ := h
          refine ⟨?_, hr.symm, ?_⟩
          · simpa [transferLease, decrementActiveTasks, updateAgent] using hagent
          · rw [← hdb, reclaimed, if_pos hv]
            rfl
        · simp only [hv, Bool.false_eq_true, if_false, bind_eq_ok, ensure_eq_ok, pure_eq_ok,
            exists_const, Prod.mk.injEq] at h
          obtain ⟨hagent, hr, hdb⟩ := h
          refine ⟨hagent, hr.symm, ?_⟩
          rw [← hdb, reclaimed, if_neg hv]
  · next hfind =>
    simp only [bind_eq_ok, ensure_eq_ok, okOr_eq_ok, pure_eq_ok, Prod.mk.injEq] at h
    obtain ⟨-, hagent, leases, hins, hr, hdb⟩ := h
    exact Or.inr (Or.inr ⟨leases, hfind, hagent, hins, hr.symm, hdb.symm⟩)

/-! ## 解放 -/

/-- `release_lease` が `Ok` を返したとき。 -/
theorem releaseLease_ok {agentId : String} {u : Unit}
    (h : db.releaseLease taskId agentId = .ok (u, db')) :
    ∃ l, db.activeLease? taskId = some l ∧ l.agentId = agentId
      ∧ db' = (db.setLeaseStatus (fun l => l.taskId = taskId) .released).releaseRow
        taskId agentId l.epoch none := by
  unfold releaseLease at h
  split at h
  · next l hl =>
    split at h
    · next ha =>
      simp only [Except.ok.injEq, Prod.mk.injEq] at h
      exact ⟨l, hl, ha, h.2.symm⟩
    · simp at h
  · simp at h

/-- `release_lease_for_task` が `Ok` を返したとき。 -/
theorem releaseLeaseForTask_ok {reason : String} {b : Bool}
    (h : db.releaseLeaseForTask taskId reason = .ok (b, db')) :
    (∃ l, db.activeLease? taskId = some l ∧ b = true
        ∧ db' = (db.setLeaseStatus (fun l => l.taskId = taskId) .released).releaseRow
          taskId l.agentId l.epoch (some reason))
      ∨ (db.activeLease? taskId = none ∧ b = false ∧ db' = db) := by
  unfold releaseLeaseForTask at h
  split at h
  · next l hl =>
    simp only [Except.ok.injEq, Prod.mk.injEq] at h
    exact Or.inl ⟨l, hl, h.1.symm, h.2.symm⟩
  · next hl =>
    simp only [Except.ok.injEq, Prod.mk.injEq] at h
    exact Or.inr ⟨hl, h.1.symm, h.2.symm⟩

/-- `release_lease_if_owner_epoch` が `Ok` を返したとき。 -/
theorem releaseLeaseIfOwnerEpoch_ok {agentId reason : String} {epoch : UInt64} {b : Bool}
    (h : db.releaseLeaseIfOwnerEpoch taskId agentId epoch reason = .ok (b, db')) :
    (∃ l, db.taskLeases.find? taskId = some l ∧ l.agentId = agentId ∧ l.status = .active
        ∧ l.epoch = epoch ∧ b = true
        ∧ db' = (db.setLeaseStatus (ownedAt taskId agentId epoch) .released).releaseRow
          taskId agentId epoch (some reason))
      ∨ (db.taskLeases.count (ownedAt taskId agentId epoch) = 0 ∧ b = false ∧ db' = db) := by
  unfold releaseLeaseIfOwnerEpoch at h
  split at h
  · next hc =>
    simp only [Except.ok.injEq, Prod.mk.injEq] at h
    exact Or.inr ⟨hc, h.1.symm, h.2.symm⟩
  · next hc =>
    simp only [Except.ok.injEq, Prod.mk.injEq] at h
    obtain ⟨l, hl, ho⟩ := Table.count_pos_iff.mp (Nat.pos_of_ne_zero hc)
    simp only [ownedAt, decide_eq_true_eq] at ho
    obtain ⟨ht, ha, hs, he⟩ := ho
    exact Or.inl ⟨l, Table.find?_eq_some_iff.mpr ⟨hl, ht⟩, ha, hs, he, h.1.symm, h.2.symm⟩

/-! ## 更新 -/

/-- `renew_lease` が `Ok` を返したとき。 -/
theorem renewLease_ok {agentId : String} {durationSecs : Int} {now : Time} {u : Unit}
    (h : db.renewLease taskId agentId durationSecs now = .ok (u, db')) :
    ∃ l ∈ db.renewableTaskLeases agentId, l.taskId = taskId
      ∧ db'.taskLeases
        = (db.renewRow taskId agentId l.epoch (now + seconds durationSecs) now).taskLeases := by
  simp only [renewLease, bind_eq_ok, okOr_eq_ok, pure_eq_ok, Prod.mk.injEq] at h
  obtain ⟨l, hl, -, rfl⟩ := h
  exact ⟨l, List.mem_of_find?_eq_some hl, by simpa using List.find?_some hl, rfl⟩

/-- `heartbeat` が `Ok` を返したとき。 -/
theorem heartbeat_ok {id : String} {now : Time} {u : Unit}
    (h : db.heartbeat id now = .ok (u, db')) :
    ∃ a, db.agents.find? id = some a ∧ a.status.isLive = true
      ∧ db'.taskLeases = ((db.updateAgent id fun a =>
        { a with lastHeartbeat := now, status := .active, startupConfirmed := true }).renewAll id
          (now + seconds taskLeaseHeartbeatRenewalSecs) now).taskLeases := by
  unfold heartbeat at h
  split at h
  · simp at h
  · next a ha =>
    simp only at h
    split at h
    · next hlive =>
      simp only [Except.ok.injEq, Prod.mk.injEq] at h
      exact ⟨a, ha, hlive, by rw [← h.2]⟩
    · simp at h

/-! ## 引退と登録 -/

/-- `graceful_shutdown` が `Ok` を返したとき。 -/
theorem gracefulShutdown_ok {id : String} {ids : List String}
    (h : db.gracefulShutdown id capture = .ok (ids, db')) :
    db' = (db.retireLeases id .released .released "graceful_shutdown").updateAgent id
      fun a => { a with status := .shutdown, activeTasks := 0 } := by
  simp only [gracefulShutdown, bind_eq_ok, pure_eq_ok, Prod.mk.injEq] at h
  obtain ⟨-, -, -, hdb⟩ := h
  exact hdb.symm

/-- `unregister` が `Ok` を返したとき。 -/
theorem unregister_ok {id : String} {u : Unit} (h : db.unregister id capture = .ok (u, db')) :
    ((db.agents.find? id).isSome
        ∧ db' = (db.setLeaseStatus (fun l => l.agentId = id) .released).deleteAgent id)
      ∨ (db.agents.find? id = none
        ∧ db' = db.setLeaseStatus (fun l => l.agentId = id) .released) := by
  simp only [unregister, bind_eq_ok] at h
  obtain ⟨-, -, h⟩ := h
  split at h
  · next hs =>
    simp only [pure_eq_ok, Prod.mk.injEq] at h
    exact Or.inl ⟨hs, h.2.symm⟩
  · next hs =>
    simp only [pure_eq_ok, Prod.mk.injEq] at h
    exact Or.inr ⟨by simpa using hs, h.2.symm⟩

/-- `delete` が `Ok` を返したとき。 -/
theorem deleteTask_ok {id : String} {u : Unit} (h : db.deleteTask id = .ok (u, db')) :
    (db.tasks.find? id).isSome
      ∧ db'.taskLeases = db.taskLeases.delete (fun l => l.taskId = id)
      ∧ db'.agents = db.agents := by
  simp only [deleteTask, bind_eq_ok, ensure_eq_ok, pure_eq_ok, Prod.mk.injEq] at h
  obtain ⟨-, hs, -, rfl⟩ := h
  exact ⟨hs, rfl, rfl⟩

/-- supervisor の交代の後始末は lease の表に触らない。 -/
theorem reconcile_taskLeases {agent : Agent} {session : Option String} {rehomedAt : String}
    (h : db.reconcileRestartedFactorySupervisor agent session capture rehomedAt = .ok db') :
    db'.taskLeases = db.taskLeases := by
  unfold reconcileRestartedFactorySupervisor at h
  split at h
  · rw [← Except.ok.inj h]
  · next session =>
    split at h
    · rw [← Except.ok.inj h]
    · simp only at h
      split at h
      · rw [← Except.ok.inj h]
      · simp only [bind_eq_ok, pure_eq_ok] at h
        obtain ⟨-, -, rfl⟩ := h
        exact foldl_fixed (f := fun db s => db.rehomeWorkers s session rehomedAt)
          (p := Db.taskLeases) (fun _ _ => rfl) _ _

/-- 登録は lease の表に触らない。 -/
theorem register_taskLeases {agent : Agent} {env : Option String} {rehomedAt : String} {u : Unit}
    (h : db.register agent env capture rehomedAt = .ok (u, db')) :
    db'.taskLeases = db.taskLeases := by
  simp only [register, bind_eq_ok, pure_eq_ok, Prod.mk.injEq] at h
  obtain ⟨db₁, hrec, -, rfl⟩ := h
  have hframe := reconcile_taskLeases hrec
  exact hframe

end Db

end Cassy
