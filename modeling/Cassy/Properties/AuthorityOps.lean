import Cassy.Properties.AuthorityStep

/-!
# 操作は権限の一歩である

検証と配達の操作がどれも `AuthorityStep` に収まることを示す。操作ごとの補題は、本体が
成功したところから文の並びを読み出し、文ごとの規則を繋ぐだけである。
-/

namespace Cassy

open Infra

namespace ProofDb

variable {H : Digests} {fresh : VerifierCapability → Prop} {target : String → Prop}
  {db db' : ProofDb}
variable {taskId rid dispatchId verifier supervisorId supervisor : String}
  {d : VerificationDispatch} {boundary : VerificationProofBoundary} {deadlineAt now cycleNow : Time}
  {deadOwners : List Agent} {retired : String → Option RetiredAgent} {c : VerifierCapability}
  {state : WorkerDeliveryState} {t : WorkerDeliveryTransaction}

/-! ## 割り当て -/

/-- 最新の割り当ては表にあり、その task のものである。 -/
theorem latestDispatch?_mem (h : db.latestDispatch? taskId = some d) :
    db.dispatches.find? d.id = some d ∧ d.taskId = taskId := by
  have hmem := List.mem_filter.mp (firstBest_mem h)
  exact ⟨Table.find?_of_mem hmem.1, by simpa using hmem.2⟩

theorem createDispatch_step {requester owner : String} {recovery : Bool} {requestedAt : Time}
    (h : db.createDispatch taskId requester owner boundary deadlineAt recovery rid requestedAt
      = .ok (d, db')) : AuthorityStep fresh target db db' := by
  unfold createDispatch at h
  split at h
  · cases h
    exact .refl
  · simp only [bind_eq_ok, pure_eq_ok, Prod.mk.injEq] at h
    obtain ⟨_, -, _, hins, -, rfl⟩ := h
    exact .insertDispatch hins (by simp [newDispatch])

/-- 作った割り当ては表にあり、まだ動いている。 -/
theorem createDispatch_active {requester owner : String} {recovery : Bool} {requestedAt : Time}
    (h : db.createDispatch taskId requester owner boundary deadlineAt recovery rid requestedAt
      = .ok (d, db')) : db'.dispatches.find? d.id = some d ∧ d.state.isActive = true := by
  unfold createDispatch at h
  split at h
  · next existing hex =>
    cases h
    simp only [reusableDispatch?, Option.filter_eq_some_iff, Bool.and_eq_true] at hex
    have hmem := firstBest_mem hex.1
    exact ⟨Table.find?_of_mem (List.mem_filter.mp hmem).1, hex.2.1⟩
  · simp only [bind_eq_ok, insertDispatch, ensure_eq_ok, okOr_eq_ok, pure_eq_ok,
      Prod.mk.injEq] at h
    obtain ⟨_, -, _, ⟨-, -, dispatches, hins, rfl⟩, rfl, rfl⟩ := h
    rw [Table.find?_insert? hins, if_pos rfl]
    exact ⟨rfl, rfl⟩

theorem claimDispatchBound_step {owner capabilityId : String}
    (h : db.claimDispatchBound dispatchId owner verifier capabilityId now = .ok (d, db')) :
    AuthorityStep fresh target db db' := by
  simp only [claimDispatchBound, bind_eq_ok, ensure_eq_ok, pure_eq_ok, Prod.mk.injEq] at h
  obtain ⟨-, -, -, -, -, rfl⟩ := h
  refine .updateDispatch _ fun d _ _ hp => ?_
  simp only [decide_eq_true_eq] at hp
  exact ⟨.of_open (by simp [hp.2.1]) (by simp [hp.2.1]), by simp⟩

theorem isUnresolved_leads (h : isUnresolved d = true) (s : VerificationDispatchState) :
    d.state.Leads s := by
  simp only [isUnresolved, decide_eq_true_eq] at h
  rcases h with h | h | h <;> exact .of_open (by simp [h]) (by simp [h])

theorem resolveDispatch_step {capabilityId : Option String} {direct : Bool}
    (h : db.resolveDispatch dispatchId verifier capabilityId direct now = .ok (d, db')) :
    AuthorityStep fresh target db db' := by
  simp only [resolveDispatch, bind_eq_ok, ensure_eq_ok, pure_eq_ok, Prod.mk.injEq] at h
  obtain ⟨_, -, -, -, -, -, -, -, -, rfl⟩ := h
  exact .updateDispatch _ fun d _ _ hp => ⟨isUnresolved_leads hp _, by simp⟩

theorem isActive_leads (h : d.state.isActive = true) (s : VerificationDispatchState) :
    d.state.Leads s := by
  refine .of_open ?_ ?_ <;> intro hs <;> simp [hs, VerificationDispatchState.isActive] at h

theorem timeoutDispatch_step {d : Option VerificationDispatch}
    (h : db.timeoutDispatch taskId now = .ok (d, db')) : AuthorityStep fresh target db db' := by
  unfold timeoutDispatch at h
  split at h
  · cases h
    exact .refl
  · simp only [bind_eq_ok, ensure_eq_ok, pure_eq_ok, Prod.mk.injEq] at h
    obtain ⟨-, -, -, -, -, rfl⟩ := h
    refine .updateDispatch _ fun d _ _ hp => ?_
    simp only [isDue, decide_eq_true_eq] at hp
    exact ⟨isActive_leads hp.2.1 _, by simp⟩

theorem extendDeadline_step {extendTo : Time} {hardCap : Int} {d : Option VerificationDispatch}
    (h : db.extendDeadline dispatchId now extendTo hardCap = .ok (d, db')) :
    AuthorityStep fresh target db db' := by
  simp only [extendDeadline, bind_eq_ok] at h
  obtain ⟨dispatch, -, h⟩ := h
  split at h
  · cases h
    exact .refl
  · have hstep : ∀ p f hf, (∀ d, (f d : VerificationDispatch).state = d.state) →
        AuthorityStep fresh target db (db.updateDispatch dispatchId p f hf) := by
      intro p f hf hs
      refine .updateDispatch _ fun d _ _ _ => ?_
      rw [hs]
      exact ⟨.refl _, Or.inr⟩
    split at h
    · simp only [bind_eq_ok, pure_eq_ok, Prod.mk.injEq] at h
      obtain ⟨-, -, -, rfl⟩ := h
      exact hstep _ _ _ fun _ => rfl
    · cases h
      exact hstep _ _ _ fun _ => rfl

/-! ## 引き取り -/

theorem retireCapability_carries (now : Time) (c : VerifierCapability) :
    c.Carries (retireCapability now c) where
  id_eq := rfl
  dispatchId_eq := rfl
  issuedAt_eq := rfl
  verifier_eq _ := rfl
  consumed_eq hs := by
    obtain ⟨t, ht⟩ := Option.isSome_iff_exists.mp hs
    simp [retireCapability, ht]

theorem retireHandoff_not_live (now : Time) (h : VerifierHandoff) :
    (retireHandoff now h).state.isLive = false := rfl

theorem retireDispatchAuthority_step :
    AuthorityStep (fun _ => False) target db (db.retireDispatchAuthority dispatchId now) := by
  have hc : AuthorityStep (fun _ => False) target db
      (db.updateCapabilities (fun c => c.dispatchId = some dispatchId) (retireCapability now)) :=
    .updateCapabilities _ fun c _ _ => retireCapability_carries now c
  refine hc.trans (.updateHandoffs _ fun h _ _ hl => ?_)
  simp [retireHandoff_not_live] at hl

/-- 判定の前の割り当てしか引き取らないなら、引き取りは権限の一歩である。 -/
theorem adoptOne_step {machine session : String} {id : String} {b : Bool}
    (hopen : ∀ d, db.dispatches.find? id = some d → isUnresolved d = true)
    (h : db.adoptOne supervisorId machine session deadOwners retired deadlineAt now id
      = .ok (b, db')) : AuthorityStep (fun _ => False) target db db' := by
  simp only [adoptOne, bind_eq_ok] at h
  obtain ⟨dispatch, hget, h⟩ := h
  split at h
  · simp only [bind_eq_ok, ensure_eq_ok, pure_eq_ok, Prod.mk.injEq] at h
    obtain ⟨-, -, -, rfl⟩ := h
    refine .trans retireDispatchAuthority_step (.updateDispatch _ fun d hd hid _ => ?_)
    refine ⟨isUnresolved_leads (hopen d ?_) _, by simp⟩
    exact Table.find?_eq_some_iff.mpr ⟨hd, hid⟩
  · cases h
    exact .refl

/-- 引き取りは、判定の前の割り当てを判定の前のままにする。 -/
theorem adoptOne_unresolved {machine session : String} {id : String} {b : Bool}
    (h : db.adoptOne supervisorId machine session deadOwners retired deadlineAt now id
      = .ok (b, db')) {k : String}
    (hopen : ∀ d, db.dispatches.find? k = some d → isUnresolved d = true) :
    ∀ d, db'.dispatches.find? k = some d → isUnresolved d = true := by
  simp only [adoptOne, bind_eq_ok] at h
  obtain ⟨dispatch, -, h⟩ := h
  split at h
  · simp only [bind_eq_ok, ensure_eq_ok, pure_eq_ok, Prod.mk.injEq] at h
    obtain ⟨-, -, -, rfl⟩ := h
    intro d hd
    simp only [updateDispatch, Table.find?_update, Option.map_eq_some_iff] at hd
    obtain ⟨d₀, hd₀, rfl⟩ := hd
    split
    · rfl
    · exact hopen d₀ hd₀
  · cases h
    exact hopen

theorem adoptAll_step {machine session : String} {ids taken : List String}
    (hopen : ∀ id ∈ ids, ∀ d, db.dispatches.find? id = some d → isUnresolved d = true)
    (h : adoptAll db supervisorId machine session deadOwners retired deadlineAt now ids
      = .ok (taken, db')) : AuthorityStep (fun _ => False) target db db' := by
  induction ids generalizing db taken with
  | nil =>
    simp only [adoptAll, Except.ok.injEq, Prod.mk.injEq] at h
    rw [← h.2]
    exact .refl
  | cons id rest ih =>
    simp only [adoptAll, bind_eq_ok, pure_eq_ok, Prod.mk.injEq] at h
    obtain ⟨⟨b, db₁⟩, hone, ⟨ids', db₂⟩, hrest, -, rfl⟩ := h
    refine .trans (adoptOne_step (hopen id List.mem_cons_self) hone) (ih ?_ hrest)
    intro k hk
    exact adoptOne_unresolved hone (hopen k (List.mem_cons_of_mem _ hk))

theorem orphanCandidates_unresolved :
    ∀ id ∈ (db.dispatches.rows.filter (db.isOrphanCandidate supervisorId)).map (·.id),
      ∀ d, db.dispatches.find? id = some d → isUnresolved d = true := by
  intro id hid d hd
  obtain ⟨d', hd', rfl⟩ := List.mem_map.mp hid
  rw [List.mem_filter] at hd'
  rw [Table.find?_of_mem hd'.1] at hd
  rw [← Option.some.inj hd]
  simp only [isOrphanCandidate, Bool.and_eq_true] at hd'
  exact hd'.2.1.1.1.1

theorem adoptOrphanedDispatches_step {localMachine : String} {ids : List String}
    (h : db.adoptOrphanedDispatches supervisorId deadOwners deadlineAt localMachine retired now
      = .ok (ids, db')) : AuthorityStep (fun _ => False) target db db' := by
  unfold adoptOrphanedDispatches at h
  split at h
  · cases h
    exact .refl
  · exact adoptAll_step orphanCandidates_unresolved h

/-! ## 無効化 -/

/-- 名指しした割り当てを無効化する更新。 -/
theorem updateDispatch_invalidate_step {id : String} {p : VerificationDispatch → Bool}
    {f : VerificationDispatch → VerificationDispatch} (hf : ∀ d, (f d).id = d.id)
    (hs : ∀ d, (f d).state = .invalidated) (ht : target id) :
    AuthorityStep fresh target db (db.updateDispatch id p f hf) := by
  refine .updateDispatch _ fun d _ _ _ => ?_
  rw [hs]
  exact ⟨.to_invalidated _, fun _ => Or.inl ht⟩

theorem invalidateForNewCycle_step (h : db.invalidateForNewCycle dispatchId now = .ok (d, db'))
    (ht : ∀ d, db.dispatches.find? dispatchId = some d → isReusable d = true → target dispatchId) :
    AuthorityStep fresh target db db' := by
  simp only [invalidateForNewCycle, getDispatch, bind_eq_ok, ensure_eq_ok, okOr_eq_ok] at h
  obtain ⟨dispatch, hget, latest, -, -, -, h⟩ := h
  split at h
  · next hre =>
    simp only [bind_eq_ok, ensure_eq_ok, pure_eq_ok, Prod.mk.injEq] at h
    obtain ⟨-, -, -, -, -, rfl⟩ := h
    have hid : dispatch.id = dispatchId := Table.key_of_find? hget
    exact updateDispatch_invalidate_step _ (fun _ => rfl) (hid ▸ ht dispatch hget hre)
  · cases h
    exact .refl

theorem invalidateTaskForNewCycle_step {d : Option VerificationDispatch}
    (h : db.invalidateTaskForNewCycle taskId now = .ok (d, db'))
    (ht : ∀ latest, db.latestDispatch? taskId = some latest → isReusable latest = true →
      target latest.id) : AuthorityStep fresh target db db' := by
  unfold invalidateTaskForNewCycle at h
  split at h
  · cases h
    exact .refl
  · next dispatch hl =>
    simp only [bind_eq_ok, pure_eq_ok, Prod.mk.injEq] at h
    obtain ⟨⟨d, db₁⟩, h, -, rfl⟩ := h
    refine invalidateForNewCycle_step h fun d hd hre => ht dispatch hl ?_
    rw [(latestDispatch?_mem hl).1] at hd
    rw [Option.some.inj hd]
    exact hre

/-- repository の変化で無効化される割り当て。 -/
def isDriftable (db : ProofDb) (d : VerificationDispatch) : Bool :=
  (db.latestDispatch? d.taskId).map (·.id) = some d.id ∧ d.receiptId = none
    ∧ d.deliveryTransactionId = none ∧ d.repository.isSome ∧ isInvalidatable d

theorem retireHeldCapability_step {capabilityId : Option String} :
    AuthorityStep (fun _ => False) target db (db.retireHeldCapability capabilityId now) := by
  unfold retireHeldCapability
  split
  · exact .refl
  · next id =>
    have hc : AuthorityStep (fun _ => False) target db
        (db.updateCapabilities (fun c => c.id = id) (retireCapability now)) :=
      .updateCapabilities _ fun c _ _ => retireCapability_carries now c
    refine hc.trans (.updateHandoffs _ fun h _ _ hl => ?_)
    simp [retireHandoff_not_live] at hl

theorem invalidateForRepositoryDrift_step
    (h : db.invalidateForRepositoryDrift dispatchId now = .ok (d, db'))
    (ht : ∀ d, db.dispatches.find? dispatchId = some d → db.isDriftable d = true →
      target dispatchId) : AuthorityStep (fun _ => False) target db db' := by
  simp only [invalidateForRepositoryDrift, getDispatch, bind_eq_ok, ensure_eq_ok, okOr_eq_ok] at h
  obtain ⟨dispatch, hget, latest, hlatest, -, hadm, h⟩ := h
  have hid : dispatch.id = dispatchId := Table.key_of_find? hget
  split at h
  · cases h
    exact .refl
  · simp only [bind_eq_ok, ensure_eq_ok, pure_eq_ok, Prod.mk.injEq] at h
    obtain ⟨-, hstate, -, -, -, -, -, rfl⟩ := h
    have ht' : target dispatchId := ht dispatch hget (by
      simp only [isDriftable, decide_eq_true_eq]
      exact ⟨by simp [hlatest, hadm.1], hadm.2.1, hadm.2.2.1, hadm.2.2.2, hstate⟩)
    have hinv : ∀ db₁ : ProofDb, AuthorityStep (fun _ => False) target db₁
        (db₁.updateDispatch dispatch.id isInvalidatable
          fun d => { d with state := .invalidated, resolvedAt := some now }) :=
      fun _ => updateDispatch_invalidate_step _ (fun _ => rfl) (hid ▸ ht')
    exact retireHeldCapability_step.trans (.trans (hinv _) (.of_eq rfl rfl rfl))

theorem invalidateDeclined_step {active : VerificationDispatch} {failed : String}
    (h : db.invalidateDeclined active now cycleNow failed = .ok db') (ht : target active.id) :
    AuthorityStep fresh target db db' := by
  unfold invalidateDeclined at h
  split at h
  case h_1 | h_2 =>
    simp only [bind_eq_ok, ensure_eq_ok, pure_eq_ok] at h
    obtain ⟨⟨d, db₁⟩, h, -, -, rfl⟩ := h
    exact invalidateForNewCycle_step h fun _ _ _ => ht
  case h_3 | h_4 =>
    simp only [bind_eq_ok, ensure_eq_ok, pure_eq_ok] at h
    obtain ⟨-, -, rfl⟩ := h
    exact updateDispatch_invalidate_step _ (fun _ => rfl) ht
  case h_5 =>
    rw [← Except.ok.inj h]
    exact .refl

theorem invalidateForNewCycle_frame (h : db.invalidateForNewCycle dispatchId now = .ok (d, db')) :
    ∃ dispatches, db' = { db with dispatches } := by
  simp only [invalidateForNewCycle, bind_eq_ok, ensure_eq_ok, okOr_eq_ok] at h
  obtain ⟨dispatch, -, latest, -, -, -, h⟩ := h
  split at h
  · simp only [bind_eq_ok, ensure_eq_ok, pure_eq_ok, Prod.mk.injEq] at h
    obtain ⟨-, -, -, -, -, rfl⟩ := h
    exact ⟨_, rfl⟩
  · cases h
    exact ⟨_, rfl⟩

/-- 差し戻しと訂正の無効化は、割り当ての表にしか触らない。 -/
theorem invalidateLatest_frame {dispatch : Option VerificationDispatch} {failed : String}
    (h : db.invalidateLatest dispatch now cycleNow failed = .ok db') :
    ∃ dispatches, db' = { db with dispatches } := by
  unfold invalidateLatest at h
  split at h
  · rw [← Except.ok.inj h]
    exact ⟨_, rfl⟩
  · unfold invalidateDeclined at h
    split at h
    case h_1 | h_2 =>
      simp only [bind_eq_ok, ensure_eq_ok, pure_eq_ok] at h
      obtain ⟨⟨d, db₁⟩, h, -, -, rfl⟩ := h
      exact invalidateForNewCycle_frame h
    case h_3 | h_4 =>
      simp only [bind_eq_ok, ensure_eq_ok, pure_eq_ok] at h
      obtain ⟨-, -, rfl⟩ := h
      exact ⟨_, rfl⟩
    case h_5 =>
      rw [← Except.ok.inj h]
      exact ⟨_, rfl⟩

theorem invalidateLatest_step {dispatch : Option VerificationDispatch} {failed : String}
    (h : db.invalidateLatest dispatch now cycleNow failed = .ok db')
    (ht : ∀ active, dispatch = some active → target active.id) :
    AuthorityStep fresh target db db' := by
  unfold invalidateLatest at h
  split at h
  · rw [← Except.ok.inj h]
    exact .refl
  · next active => exact invalidateDeclined_step h (ht active rfl)

theorem rebindApprovedDispatch_step {priorDispatchId priorVerdictId requester owner : String}
    {receipt verdictId : String} {requestedAt : Time} {r : VerificationDispatch × Verification}
    (h : db.rebindApprovedDispatch priorDispatchId priorVerdictId requester owner boundary receipt
      rid verdictId now requestedAt = .ok (r, db'))
    (ht : ∀ d, db.dispatches.find? priorDispatchId = some d →
      db.rebindable d priorVerdictId boundary = true → target priorDispatchId) :
    AuthorityStep (fun _ => False) target db db' := by
  simp only [rebindApprovedDispatch, getDispatch, bind_eq_ok, ensure_eq_ok, okOr_eq_ok, pure_eq_ok,
    Prod.mk.injEq] at h
  obtain ⟨prior, hget, -, hre, ⟨dispatch, db₁⟩, hcreate, verifications, -, -, rfl⟩ := h
  have hid : prior.id = priorDispatchId := Table.key_of_find? hget
  have ht' := ht prior hget hre
  have hinv : AuthorityStep (fun _ => False) target db
      (db.updateDispatch prior.id (fun d => d.state = .resolved)
        fun d => { d with state := .invalidated }) :=
    updateDispatch_invalidate_step _ (fun _ => rfl) (hid ▸ ht')
  -- 作ったばかりの割り当ては動いている途中なので、判定済みにしてよい
  have hres : AuthorityStep (fun _ => False) target db₁
      (db₁.updateDispatch dispatch.id (fun _ => true)
        fun d => { d with state := .resolved, resolvedAt := some now }) := by
    refine .updateDispatch _ fun d hd hdid _ => ?_
    obtain ⟨hfind, hact⟩ := createDispatch_active hcreate
    have hdd : d = dispatch :=
      Table.eq_of_key hd (Table.mem_of_find? hfind) hdid
    exact ⟨isActive_leads (hdd ▸ hact) _, by simp⟩
  exact (hinv.trans (createDispatch_step hcreate)).trans (hres.trans (.of_eq rfl rfl rfl))

/-! ## 権限 -/

theorem issueVerifierCapability_step {issuer secret : String} {issuedAt : Time}
    {r : IssuedVerifierCapability}
    (h : db.issueVerifierCapability H taskId issuer rid secret now issuedAt = .ok (r, db')) :
    AuthorityStep (· = r.capability) target db db' := by
  simp only [issueVerifierCapability, insertCapability, bind_eq_ok, okOr_eq_ok, pure_eq_ok,
    Prod.mk.injEq] at h
  obtain ⟨dispatch, -, -, ⟨capabilities, hins, rfl⟩, rfl, rfl⟩ := h
  exact .issue rfl hins rfl fun _ hh => Or.inl hh

theorem deletePendingHandoff_step {id : String} :
    AuthorityStep fresh target db (db.deletePendingHandoff id) :=
  .delete rfl (fun _ hc => hc) (fun _ hc _ => hc) fun _ hh => (Table.mem_delete.mp hh).1

theorem sweep_step {ids : List String} :
    AuthorityStep (fun _ => False) target db (ids.foldl
      (fun db id => (db.deletePendingHandoff id).deleteUnboundCapability id) db) := by
  induction ids generalizing db with
  | nil => exact .refl
  | cons id rest ih =>
    exact .trans (.trans deletePendingHandoff_step .deleteUnboundCapability) ih

theorem issueServerVerifierHandoff_step {issuer toolUseId : String} {secret : List UInt8}
    (h : db.issueServerVerifierHandoff H taskId dispatchId issuer toolUseId secret rid now
      = .ok (c, db')) : AuthorityStep (· = c) target db db' := by
  simp only [issueServerVerifierHandoff, insertCapability, insertHandoff, bind_eq_ok,
    ensure_eq_ok, okOr_eq_ok, pure_eq_ok, Prod.mk.injEq] at h
  obtain ⟨-, -, -, -, dispatch, -, -, -, _, ⟨capabilities, hins, rfl⟩, _,
    ⟨-, -, handoffs, hhin, rfl⟩, rfl, rfl⟩ := h
  refine .trans sweep_step (.issue rfl hins rfl fun h hh => ?_)
  rcases (Table.mem_insert? hhin).mp hh with hold | rfl
  · exact Or.inl hold
  · exact Or.inr rfl

/-- 束縛の更新は、束縛前の権限にだけ検証者を書く。 -/
theorem bind_carries {at' : Time} (h : isUnbound c = true) :
    c.Carries { c with verifierAgentId := some verifier, boundAt := some at' } := by
  simp only [isUnbound, decide_eq_true_eq] at h
  exact ⟨rfl, rfl, rfl, by simp [h.1], fun _ => rfl⟩

theorem bindVerifierCapability_step {token : String} {now' boundAt : Time}
    (h : db.bindVerifierCapability H token verifier now now' boundAt = .ok (c, db')) :
    AuthorityStep fresh target db db' := by
  simp only [bindVerifierCapability, bind_eq_ok, ensure_eq_ok, okOr_eq_ok, pure_eq_ok,
    Prod.mk.injEq] at h
  obtain ⟨id, -, _, -, _, -, _, -, -, -, -, -, _, -, -, rfl⟩ := h
  refine .updateCapabilities _ fun c _ hp => ?_
  simp only [decide_eq_true_eq] at hp
  exact bind_carries hp.2.1

theorem bindServerHandoffWithConn_step {issuer : String}
    (h : db.bindServerHandoffWithConn issuer verifier now = .ok (c, db')) :
    AuthorityStep (fun _ => False) target db db' := by
  simp only [bindServerHandoffWithConn, bind_eq_ok, ensure_eq_ok, okOr_eq_ok, pure_eq_ok,
    Prod.mk.injEq] at h
  obtain ⟨id, -, capability, -, -, -, _, -, dispatch, -, -, -, -, -, -, -, -, -, _, -, -, rfl⟩ := h
  refine .trans (.trans (.updateCapabilities _ fun c _ hp => ?_)
    (.updateHandoffs _ fun h _ hp _ => ?_)) (.updateDispatch _ fun d _ _ hp => ?_)
  · simp only [decide_eq_true_eq] at hp
    exact bind_carries hp.2.1
  · simp only [decide_eq_true_eq] at hp
    rw [hp.2.2.1]
    rfl
  · simp only [decide_eq_true_eq] at hp
    exact ⟨.of_open (by simp [hp.2.1]) (by simp [hp.2.1]), by simp⟩

theorem cancelUnboundServerHandoff_step {issuer toolUseId : String} {b : Bool}
    (h : db.cancelUnboundServerHandoff H issuer toolUseId = .ok (b, db')) :
    AuthorityStep (fun _ => False) target db db' := by
  unfold cancelUnboundServerHandoff at h
  split at h
  · cases h
    exact .refl
  · split at h
    · cases h
      exact .refl
    · next hd _ =>
      have hdel : ∀ p, AuthorityStep (fun _ => False) target db
          { db with handoffs := db.handoffs.delete p } := fun p =>
        .delete rfl (fun _ hc => hc) (fun _ hc _ => hc) fun _ hh => (Table.mem_delete.mp hh).1
      simp only at h
      split at h
      · cases h
        exact (hdel _).trans .deleteUnboundCapability
      · cases h
        exact hdel _
    · simp at h

/-! ## 消費 -/

/-- 消費の更新は、未使用の権限にだけ時刻を書く。 -/
theorem consume_carries {at' : Time} (h : c.consumedAt = none) :
    c.Carries { c with consumedAt := some at' } :=
  ⟨rfl, rfl, rfl, fun _ => rfl, by simp [h]⟩

theorem consumeVerifierCapability_step {token : String} {now' consumedAt : Time}
    (h : db.consumeVerifierCapability H token taskId verifier now now' consumedAt = .ok (c, db')) :
    AuthorityStep fresh target db db' := by
  simp only [consumeVerifierCapability, bind_eq_ok, ensure_eq_ok, okOr_eq_ok, pure_eq_ok,
    Prod.mk.injEq] at h
  obtain ⟨id, -, _, -, _, -, _, -, -, -, -, -, -, rfl⟩ := h
  refine .updateCapabilities _ fun c _ hp => ?_
  simp only [decide_eq_true_eq] at hp
  exact consume_carries hp.2.1

theorem reviveTimedOut_step {late : Bool} {dispatch : VerificationDispatch}
    (h : db.reviveTimedOut late dispatch = .ok db') : AuthorityStep fresh target db db' := by
  unfold reviveTimedOut at h
  split at h
  · simp only [bind_eq_ok, ensure_eq_ok, pure_eq_ok] at h
    obtain ⟨-, -, rfl⟩ := h
    refine .updateDispatch _ fun d _ _ hp => ?_
    simp only [decide_eq_true_eq] at hp
    exact ⟨.of_open (by simp [hp]) (by simp [hp]), by simp⟩
  · rw [← Except.ok.inj h]
    exact .refl

theorem consumeServerHandoff_step {capabilityId : String} {expected : Option VerificationDispatch}
    (h : db.consumeServerHandoff capabilityId taskId verifier expected now = .ok (c, db')) :
    AuthorityStep (fun _ => False) target db db' := by
  simp only [consumeServerHandoff, bind_eq_ok, ensure_eq_ok, okOr_eq_ok, pure_eq_ok,
    Prod.mk.injEq] at h
  obtain ⟨capability, -, -, -, _, -, dispatch, -, -, -, -, -, db₁, hrev, -, -, -, -, -, rfl⟩ := h
  refine (reviveTimedOut_step hrev).trans (.trans (.updateCapabilities _ fun c _ hp => ?_)
    (.updateHandoffs _ fun h _ _ hl => ?_))
  · simp only [decide_eq_true_eq] at hp
    exact consume_carries hp.2.1
  · simp [HandoffState.isLive] at hl

/-! ## 配達

配達の操作は、割り当ての作成と無効化の外では権限の表に触らない。
-/

/-- 権限の三つの表が同じである。 -/
def SameAuthority (db db' : ProofDb) : Prop :=
  db'.dispatches = db.dispatches ∧ db'.capabilities = db.capabilities
    ∧ db'.handoffs = db.handoffs

theorem SameAuthority.trans {db'' : ProofDb} (h : SameAuthority db db')
    (h' : SameAuthority db' db'') : SameAuthority db db'' :=
  ⟨h'.1.trans h.1, h'.2.1.trans h.2.1, h'.2.2.trans h.2.2⟩

theorem SameAuthority.step (h : SameAuthority db db') : AuthorityStep fresh target db db' :=
  .of_eq h.1 h.2.1 h.2.2

theorem insertEvent_sameAuthority {transactionId : String} {actor : String} {detail : Option String} :
    SameAuthority db (db.insertEvent H transactionId state actor detail now) := by
  unfold insertEvent
  simp only
  split <;> exact ⟨rfl, rfl, rfl⟩

theorem insertTransaction_sameAuthority : SameAuthority db (db.insertTransaction t).2 := by
  unfold insertTransaction
  split
  · exact ⟨rfl, rfl, rfl⟩
  · split <;> exact ⟨rfl, rfl, rfl⟩

/-- 配達を移す文は、配達の表と event の表にしか触らない。 -/
theorem moveDelivery_frame {code errorDetail eventDetail : String} {raced : String}
    (h : db.moveDelivery t taskId state supervisor code errorDetail eventDetail rid now raced
      = .ok db') : ∃ transactions events, db' = { db with transactions, events } := by
  simp only [moveDelivery, appendEvent, bind_eq_ok, ensure_eq_ok, okOr_eq_ok, pure_eq_ok] at h
  obtain ⟨-, -, -, -, _, -, rfl⟩ := h
  exact ⟨_, _, rfl⟩

theorem createWorkerDelivery_sameAuthority {receipt : WorkerCompletionReceipt} {actor : String}
    (h : db.createWorkerDelivery H receipt state actor now = .ok (t, db')) :
    SameAuthority db db' := by
  simp only [createWorkerDelivery, bind_eq_ok, ensure_eq_ok, okOr_eq_ok] at h
  obtain ⟨_, -, -, -, _, -, h⟩ := h
  have hins : SameAuthority db ({ db with receipts := db.receipts.insertOrIgnore receipt
      }.insertTransaction (newTransaction receipt state now)).2 :=
    insertTransaction_sameAuthority
  split at h
  · cases h
    exact hins.trans insertEvent_sameAuthority
  · simp only [bind_eq_ok, ensure_eq_ok, pure_eq_ok, Prod.mk.injEq] at h
    obtain ⟨-, -, -, rfl⟩ := h
    exact hins

theorem createWorkerDeliveryForLease_step {receipt : WorkerCompletionReceipt} {actor : String}
    {epoch : UInt64} {owner : String} {repository : Option RepositoryProofBoundary}
    {readings : DeliveryReadings} {r : WorkerDeliveryTransaction × VerificationDispatch}
    (h : db.createWorkerDeliveryForLease H receipt state actor epoch owner deadlineAt repository
      rid readings = .ok (r, db')) : AuthorityStep (fun _ => False) target db db' := by
  unfold createWorkerDeliveryForLease at h
  split at h
  · simp only [bind_eq_ok, pure_eq_ok, Prod.mk.injEq] at h
    obtain ⟨⟨d, db₁⟩, hcreate, ⟨t, db₂⟩, hdel, -, rfl⟩ := h
    exact (createDispatch_step hcreate).trans (createWorkerDelivery_sameAuthority hdel).step
  · split at h
    · simp only [bind_eq_ok, ensure_eq_ok, pure_eq_ok, Prod.mk.injEq] at h
      obtain ⟨-, -, -, rfl⟩ := h
      exact .refl
    · simp at h

theorem transitionWorkerDelivery_sameAuthority {transactionId : String}
    {expected : List WorkerDeliveryState} {actor : String} {fields : TransitionFields}
    (h : db.transitionWorkerDelivery H transactionId expected state actor fields now = .ok (t, db')) :
    SameAuthority db db' := by
  simp only [transitionWorkerDelivery, bind_eq_ok, okOr_eq_ok] at h
  obtain ⟨current, -, h⟩ := h
  split at h
  · cases h
    exact ⟨rfl, rfl, rfl⟩
  · simp only [bind_eq_ok, ensure_eq_ok, okOr_eq_ok, pure_eq_ok, Prod.mk.injEq] at h
    obtain ⟨-, -, _, -, -, rfl⟩ := h
    exact insertEvent_sameAuthority

theorem transitionWorkerDeliveryVerification_sameAuthority {transactionId verificationId : String}
    {approved : Bool} {actor : String} {t : Option WorkerDeliveryTransaction}
    (h : db.transitionWorkerDeliveryVerification H transactionId verificationId approved actor now
      = .ok (t, db')) : SameAuthority db db' := by
  unfold transitionWorkerDeliveryVerification at h
  split at h
  · cases h
    exact ⟨rfl, rfl, rfl⟩
  · simp only [bind_eq_ok, ensure_eq_ok, okOr_eq_ok, pure_eq_ok, Prod.mk.injEq] at h
    obtain ⟨-, -, -, -, _, -, -, rfl⟩ := h
    exact insertEvent_sameAuthority

theorem declineDelivery_frame {delivery : Option WorkerDeliveryTransaction} {reason : String}
    (h : db.declineDelivery delivery taskId supervisor reason rid now = .ok db') :
    ∃ transactions events, db' = { db with transactions, events } := by
  unfold declineDelivery at h
  split at h
  · rw [← Except.ok.inj h]
    exact ⟨_, _, rfl⟩
  · exact moveDelivery_frame h

theorem staleDelivery_frame {delivery : Option WorkerDeliveryTransaction} {c : ProofScopeCorrection}
    {allowMerged : Bool} (h : db.staleDelivery delivery c allowMerged rid = .ok db') :
    ∃ transactions events, db' = { db with transactions, events } := by
  unfold staleDelivery at h
  split at h
  · rw [← Except.ok.inj h]
    exact ⟨_, _, rfl⟩
  · simp only [bind_eq_ok, ensure_eq_ok] at h
    obtain ⟨-, -, h⟩ := h
    split at h
    · rw [← pure_eq_ok.mp h]
      exact ⟨_, _, rfl⟩
    · exact moveDelivery_frame h

/-- 取り込み元を認めても、park の記録は変わらない。 -/
theorem authorizeMergeSources_parked {sources : List String} {d d' : TaskDeliverables}
    (h : sources.foldlM (authorizeMergeSource supervisor) d = .ok d') :
    d'.parkedBranch = d.parkedBranch ∧ d'.factoryBranchAnchor = d.factoryBranchAnchor := by
  induction sources generalizing d with
  | nil =>
    simp only [List.foldlM_nil, pure_eq_ok] at h
    rw [h]
    exact ⟨rfl, rfl⟩
  | cons source rest ih =>
    simp only [List.foldlM_cons, bind_eq_ok] at h
    obtain ⟨d₁, hone, hrest⟩ := h
    have hd₁ : d₁.parkedBranch = d.parkedBranch
        ∧ d₁.factoryBranchAnchor = d.factoryBranchAnchor := by
      simp only [authorizeMergeSource, bind_eq_ok, ensure_eq_ok, okOr_eq_ok] at hone
      obtain ⟨-, -, workTarget, -, hone⟩ := hone
      split at hone
      · rw [← pure_eq_ok.mp hone]
        exact ⟨rfl, rfl⟩
      · rw [← pure_eq_ok.mp hone]
        exact ⟨rfl, rfl⟩
    have := ih hrest
    exact ⟨this.1.trans hd₁.1, this.2.trans hd₁.2⟩

/-- 差し戻しを受け付けるか。 -/
def admitsChanges (db : ProofDb) (taskId supervisor reason : String) : Bool :=
  nonBlank reason && nonBlank supervisor && (db.base.tasks.find? taskId).any fun t =>
    t.deliverables.any fun d => isParked t d (db.latestReceiptDelivery? taskId)

theorem requestChanges_admitted {reason : String} {sourceCommits : List String} {stamp : Text}
    {o : RequestChangesOutcome}
    (h : db.requestChanges taskId supervisor reason sourceCommits stamp rid now cycleNow
      = .ok (o, db')) : db.admitsChanges taskId supervisor reason = true := by
  simp only [requestChanges, bind_eq_ok, ensure_eq_ok, okOr_eq_ok, pure_eq_ok,
    Prod.mk.injEq] at h
  obtain ⟨-, hreason, -, hsup, task, htask, stored, hstored, deliverables, hsrc, -, hparked, -⟩ := h
  have hp := authorizeMergeSources_parked hsrc
  have hparked' : isParked task stored (db.latestReceiptDelivery? taskId) = true := by
    simpa only [isParked, hp.1, hp.2] using hparked
  have hreason' : nonBlank reason = true := by simp [nonBlank, hreason]
  simp [admitsChanges, htask, hstored, hparked', hsup, hreason']

/-- 訂正を受け付けるか。 -/
def admitsCorrection (db : ProofDb) (c : ProofScopeCorrection) : Bool :=
  nonBlank c.reason && nonBlank c.supervisorAgentId
    && (db.base.tasks.find? c.task.id).any (isCorrectable c)

theorem requestChanges_step {reason : String} {sourceCommits : List String} {stamp : Text}
    {o : RequestChangesOutcome}
    (h : db.requestChanges taskId supervisor reason sourceCommits stamp rid now cycleNow
      = .ok (o, db')) (ht : ∀ d, db.latestDispatch? taskId = some d → target d.id) :
    AuthorityStep (fun _ => False) target db db' := by
  simp only [requestChanges, bind_eq_ok, ensure_eq_ok, okOr_eq_ok, pure_eq_ok,
    Prod.mk.injEq] at h
  obtain ⟨-, -, -, -, task, -, stored, -, deliverables, -, -, -, db₁, hinv, db₂, hdel, -,
    -, -, rfl⟩ := h
  obtain ⟨transactions, events, rfl⟩ := declineDelivery_frame hdel
  exact (invalidateLatest_step hinv ht).trans (.of_eq rfl rfl rfl)

theorem correctProofScopeInner_step {c : ProofScopeCorrection} {allowMerged requireMerged : Bool}
    {o : ProofScopeCorrectionOutcome}
    (h : db.correctProofScopeInner c allowMerged requireMerged rid now = .ok (o, db'))
    (ht : ∀ d, db.latestDispatch? c.task.id = some d → target d.id) :
    AuthorityStep (fun _ => False) target db db' := by
  simp only [correctProofScopeInner, bind_eq_ok, ensure_eq_ok, okOr_eq_ok, pure_eq_ok,
    Prod.mk.injEq] at h
  obtain ⟨-, -, -, -, -, -, db₁, hinv, db₂, hdel, prior, -, -, -, -, rfl⟩ := h
  obtain ⟨transactions, events, rfl⟩ := staleDelivery_frame hdel
  exact (invalidateLatest_step hinv ht).trans (.of_eq rfl rfl rfl)

theorem correctProofScopeInner_admitted {c : ProofScopeCorrection}
    {allowMerged requireMerged : Bool} {o : ProofScopeCorrectionOutcome}
    (h : db.correctProofScopeInner c allowMerged requireMerged rid now = .ok (o, db')) :
    db.admitsCorrection c = true := by
  simp only [correctProofScopeInner, bind_eq_ok, ensure_eq_ok, okOr_eq_ok, pure_eq_ok,
    Prod.mk.injEq] at h
  obtain ⟨-, hargs, -, -, -, -, db₁, hinv, db₂, hdel, prior, hprior, -, hcount, -, -⟩ := h
  obtain ⟨dispatches, rfl⟩ := invalidateLatest_frame hinv
  obtain ⟨transactions, events, rfl⟩ := staleDelivery_frame hdel
  have hcor : isCorrectable c prior = true :=
    Table.of_count_pos hcount.symm.le (fun t ht => by
      simp only [isCorrectable, decide_eq_true_eq] at ht
      exact ht.1) hprior
  simp [admitsCorrection, hargs.1, hargs.2, show db.base.tasks.find? c.task.id = _ from hprior,
    hcor]

/-- 訂正の三つの入口は、旗の違う同じ操作である。 -/
theorem correct_eq (db : ProofDb) (kind : CorrectionKind) (c : ProofScopeCorrection)
    (rid : String) (now : Time) : ∃ allowMerged requireMerged, db.correct kind c rid now
      = db.correctProofScopeInner c allowMerged requireMerged rid now := by
  cases kind with
  | scope => exact ⟨false, false, rfl⟩
  | targets => exact ⟨true, true, rfl⟩
  | executionNote => exact ⟨true, false, rfl⟩

end ProofDb

/-! ## まとめ -/

/-- 操作が無効化する割り当て。受け付けられない操作は何も無効化しない。 -/
def ProofOp.invalidates? (db : ProofDb) : ProofOp → Option String
  | newCycle taskId _ => ((db.latestDispatch? taskId).filter ProofDb.isReusable).map (·.id)
  | repositoryDrift dispatchId _ =>
    ((db.dispatches.find? dispatchId).filter db.isDriftable).map fun _ => dispatchId
  | rebind priorDispatchId priorVerdictId _ _ boundary _ _ _ _ _ =>
    ((db.dispatches.find? priorDispatchId).filter fun d =>
      db.rebindable d priorVerdictId boundary).map fun _ => priorDispatchId
  | requestChanges taskId supervisor reason _ _ _ _ _ =>
    if db.admitsChanges taskId supervisor reason then (db.latestDispatch? taskId).map (·.id)
    else none
  | correctScope _ c _ _ =>
    if db.admitsCorrection c then (db.latestDispatch? c.task.id).map (·.id) else none
  | _ => none

/-- 操作が発行した権限。 -/
def ProofRes.Issues : ProofRes → VerifierCapability → Prop
  | issued c, c' => c' = c
  | _, _ => False

open ProofDb in
/-- **どの操作も権限の一歩である。** -/
theorem ProofOp.body_step {H : Digests} {db db' : ProofDb} {op : ProofOp} {r : ProofRes}
    (h : op.body H db = .ok (r, db')) :
    AuthorityStep r.Issues (fun id => op.invalidates? db = some id) db db' := by
  cases op
  case external tasks verifications observedMerges =>
    simp only [ProofOp.body, Except.ok.injEq, Prod.mk.injEq] at h
    obtain ⟨rfl, rfl⟩ := h
    exact .of_eq rfl rfl rfl
  case agent op =>
    simp only [ProofOp.body, mapResult_eq_ok, agentBody, bind_eq_ok, pure_eq_ok,
      Prod.mk.injEq] at h
    obtain ⟨_, ⟨_, -, -, rfl⟩, rfl⟩ := h
    exact .of_eq rfl rfl rfl
  case bindHandoff issuer verifier now =>
    simp only [ProofOp.body, mapResult_eq_ok, bindServerVerifierHandoff, bind_eq_ok] at h
    obtain ⟨_, ⟨-, -, h⟩, rfl⟩ := h
    exact bindServerHandoffWithConn_step h
  case bindHandoffAndRegister issuer child env capture rehomedAt now =>
    simp only [ProofOp.body, mapResult_eq_ok, bindServerHandoffAndRegisterChild,
      bind_eq_ok, ensure_eq_ok, pure_eq_ok, Prod.mk.injEq] at h
    obtain ⟨_, ⟨-, -, -, -, -, -, -, -, _, h, _, -, -, rfl⟩, rfl⟩ := h
    exact (bindServerHandoffWithConn_step h).trans (.of_eq rfl rfl rfl)
  all_goals
    simp only [ProofOp.body, mapResult_eq_ok] at h
    obtain ⟨res, hb, rfl⟩ := h
  case correctScope kind c rid now =>
    obtain ⟨allowMerged, requireMerged, heq⟩ := correct_eq db kind c rid now
    rw [heq] at hb
    have hadm := correctProofScopeInner_admitted hb
    exact correctProofScopeInner_step hb fun d hd => by
      simp [ProofOp.invalidates?, hadm, hd]
  case newCycle taskId now =>
    exact invalidateTaskForNewCycle_step hb fun d hd hre => by
      simp [ProofOp.invalidates?, hd, hre]
  case requestChanges taskId supervisor reason sourceCommits stamp rid now cycleNow =>
    have hadm := requestChanges_admitted hb
    exact requestChanges_step hb fun d hd => by simp [ProofOp.invalidates?, hadm, hd]
  case createDispatch => exact createDispatch_step hb
  case claimDispatch => exact claimDispatchBound_step hb
  case resolveDispatch => exact resolveDispatch_step hb
  case timeoutDispatch => exact timeoutDispatch_step hb
  case extendDeadline => exact extendDeadline_step hb
  case adoptOrphaned => exact adoptOrphanedDispatches_step hb
  case repositoryDrift =>
    exact invalidateForRepositoryDrift_step hb fun d hd hdr => by
      simp [ProofOp.invalidates?, hd, hdr]
  case rebind =>
    exact rebindApprovedDispatch_step hb fun d hd hre => by
      simp [ProofOp.invalidates?, hd, hre]
  case issueCapability => exact issueVerifierCapability_step hb
  case issueHandoff => exact issueServerVerifierHandoff_step hb
  case bindCapability => exact bindVerifierCapability_step hb
  case cancelHandoff => exact cancelUnboundServerHandoff_step hb
  case consumeCapability => exact consumeVerifierCapability_step hb
  case consumeHandoff => exact consumeServerHandoff_step hb
  case deliver => exact createWorkerDeliveryForLease_step hb
  case transition => exact (transitionWorkerDelivery_sameAuthority hb).step
  case transitionVerification =>
    exact (transitionWorkerDeliveryVerification_sameAuthority hb).step

end Cassy
