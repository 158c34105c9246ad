import Cassy.Properties.AuthorityOps

/-!
# 受領の表を動かす一歩

receipt・配達の transaction・event・割り当ての id について、一つの操作ができることを述べる。

* `deliveryView` — 四つの見え方。配達に関わらない操作はこれを変えない
* `Accrues` — 受領の外の操作ができること。receipt も transaction も増えず、event は
  空いた場所に高々一つ増える

行を増やすのは受領 `createWorkerDeliveryForLease` と、割り当てを立てる二つの操作だけである。
-/

namespace Cassy

open Infra

namespace ProofDb

variable {H : Digests} {db db' : ProofDb}
variable {now : Time} {retired : String → Option RetiredAgent}

/-- 受領に関わる表の見え方。割り当ては id だけを見る。 -/
structure DeliveryView where
  receipts : Table WorkerCompletionReceipt.id
  transactions : Table WorkerDeliveryTransaction.id
  events : Table WorkerDeliveryEvent.id
  dispatchIds : List String

def deliveryView (db : ProofDb) : DeliveryView where
  receipts := db.receipts
  transactions := db.transactions
  events := db.events
  dispatchIds := db.dispatches.rows.map (·.id)

/-! ## 配達に関わらない文 -/

@[simp] theorem deliveryView_updateDispatch (id : String) (p : VerificationDispatch → Bool)
    (f : VerificationDispatch → VerificationDispatch) (hf : ∀ d, (f d).id = d.id) :
    (db.updateDispatch id p f hf).deliveryView = db.deliveryView := by
  have hids : (db.updateDispatch id p f hf).dispatches.rows.map (·.id)
      = db.dispatches.rows.map (·.id) := Table.map_update hf hf
  simp only [deliveryView, hids]
  rfl

@[simp] theorem deliveryView_updateCapabilities (p : VerifierCapability → Bool)
    (f : VerifierCapability → VerifierCapability) (hf : ∀ c, (f c).id = c.id) :
    (db.updateCapabilities p f hf).deliveryView = db.deliveryView := rfl

@[simp] theorem deliveryView_updateHandoffs (p : VerifierHandoff → Bool)
    (f : VerifierHandoff → VerifierHandoff) (hf : ∀ h, (f h).capabilityId = h.capabilityId) :
    (db.updateHandoffs p f hf).deliveryView = db.deliveryView := rfl

@[simp] theorem deliveryView_retireDispatchAuthority (id : String) (now : Time) :
    (db.retireDispatchAuthority id now).deliveryView = db.deliveryView := rfl

@[simp] theorem deliveryView_retireHeldCapability (id : Option String) (now : Time) :
    (db.retireHeldCapability id now).deliveryView = db.deliveryView := by
  cases id <;> rfl

@[simp] theorem deliveryView_clearPendingVerification (taskId : String) (now : Time) :
    (db.clearPendingVerification taskId now).deliveryView = db.deliveryView := rfl

@[simp] theorem deliveryView_sweepExpiredHandoffs (now : Time) :
    (db.sweepExpiredHandoffs now).deliveryView = db.deliveryView :=
  foldl_fixed (p := deliveryView)
    (f := fun (db : ProofDb) (id : String) =>
      (db.deletePendingHandoff id).deleteUnboundCapability id)
    (fun _ _ => rfl) _ _

/-! ## 配達に関わらない操作 -/

theorem invalidateForNewCycle_view {dispatchId : String} {d : VerificationDispatch}
    (h : db.invalidateForNewCycle dispatchId now = .ok (d, db')) :
    db'.deliveryView = db.deliveryView := by
  simp only [invalidateForNewCycle, bind_eq_ok, ensure_eq_ok, okOr_eq_ok] at h
  obtain ⟨dispatch, -, latest, -, -, -, h⟩ := h
  split at h
  · simp only [bind_eq_ok, ensure_eq_ok, pure_eq_ok, Prod.mk.injEq] at h
    obtain ⟨-, -, -, -, -, rfl⟩ := h
    exact deliveryView_updateDispatch _ _ _ _
  · cases h
    rfl

theorem invalidateLatest_view {dispatch : Option VerificationDispatch} {cycleNow : Time}
    {failed : String} (h : db.invalidateLatest dispatch now cycleNow failed = .ok db') :
    db'.deliveryView = db.deliveryView := by
  unfold invalidateLatest at h
  split at h
  · rw [Except.ok.inj h]
  · unfold invalidateDeclined at h
    split at h
    case h_1 | h_2 =>
      simp only [bind_eq_ok, ensure_eq_ok, pure_eq_ok] at h
      obtain ⟨⟨d, db₁⟩, h, -, -, rfl⟩ := h
      exact invalidateForNewCycle_view h
    case h_3 | h_4 =>
      simp only [bind_eq_ok, ensure_eq_ok, pure_eq_ok] at h
      obtain ⟨-, -, rfl⟩ := h
      exact deliveryView_updateDispatch _ _ _ _
    case h_5 => rw [Except.ok.inj h]

theorem adoptOne_view {supervisorId machine session : String} {deadOwners : List Agent}
    {deadlineAt : Time} {id : String} {b : Bool}
    (h : db.adoptOne supervisorId machine session deadOwners retired deadlineAt now id
      = .ok (b, db')) : db'.deliveryView = db.deliveryView := by
  simp only [adoptOne, bind_eq_ok] at h
  obtain ⟨dispatch, -, h⟩ := h
  split at h
  · simp only [bind_eq_ok, ensure_eq_ok, pure_eq_ok, Prod.mk.injEq] at h
    obtain ⟨-, -, -, rfl⟩ := h
    simp
  · cases h
    rfl

theorem adoptAll_view {supervisorId machine session : String} {deadOwners : List Agent}
    {deadlineAt : Time} {ids taken : List String}
    (h : adoptAll db supervisorId machine session deadOwners retired deadlineAt now ids
      = .ok (taken, db')) : db'.deliveryView = db.deliveryView := by
  induction ids generalizing db taken with
  | nil =>
    simp only [adoptAll, Except.ok.injEq, Prod.mk.injEq] at h
    rw [h.2]
  | cons id rest ih =>
    simp only [adoptAll, bind_eq_ok, pure_eq_ok, Prod.mk.injEq] at h
    obtain ⟨⟨b, db₁⟩, hone, ⟨ids', db₂⟩, hrest, -, rfl⟩ := h
    exact (ih hrest).trans (adoptOne_view hone)

theorem timeoutDispatch_view {taskId : String} {d : Option VerificationDispatch}
    (h : db.timeoutDispatch taskId now = .ok (d, db')) : db'.deliveryView = db.deliveryView := by
  unfold timeoutDispatch at h
  split at h
  · cases h
    rfl
  · simp only [bind_eq_ok, ensure_eq_ok, pure_eq_ok, Prod.mk.injEq] at h
    obtain ⟨-, -, -, -, -, rfl⟩ := h
    exact deliveryView_updateDispatch _ _ _ _

theorem adoptOrphanedDispatches_view {supervisorId : String} {deadOwners : List Agent}
    {deadlineAt : Time} {localMachine : String} {ids : List String}
    (h : db.adoptOrphanedDispatches supervisorId deadOwners deadlineAt localMachine retired now
      = .ok (ids, db')) : db'.deliveryView = db.deliveryView := by
  unfold adoptOrphanedDispatches at h
  split at h
  · cases h
    rfl
  · exact adoptAll_view h

theorem invalidateTaskForNewCycle_view {taskId : String} {d : Option VerificationDispatch}
    (h : db.invalidateTaskForNewCycle taskId now = .ok (d, db')) :
    db'.deliveryView = db.deliveryView := by
  unfold invalidateTaskForNewCycle at h
  split at h
  · cases h
    rfl
  · simp only [bind_eq_ok, pure_eq_ok, Prod.mk.injEq] at h
    obtain ⟨⟨_, _⟩, hc, -, rfl⟩ := h
    exact invalidateForNewCycle_view hc

theorem invalidateForRepositoryDrift_view {dispatchId : String} {d : VerificationDispatch}
    (h : db.invalidateForRepositoryDrift dispatchId now = .ok (d, db')) :
    db'.deliveryView = db.deliveryView := by
  simp only [invalidateForRepositoryDrift, bind_eq_ok, ensure_eq_ok, okOr_eq_ok] at h
  obtain ⟨_, -, _, -, -, -, h⟩ := h
  split at h
  · cases h
    rfl
  · simp only [bind_eq_ok, ensure_eq_ok, pure_eq_ok, Prod.mk.injEq] at h
    obtain ⟨-, -, -, -, -, -, -, rfl⟩ := h
    simp

theorem bindServerHandoffWithConn_view {issuer verifier : String} {c : VerifierCapability}
    (h : db.bindServerHandoffWithConn issuer verifier now = .ok (c, db')) :
    db'.deliveryView = db.deliveryView := by
  simp only [bindServerHandoffWithConn, bind_eq_ok, ensure_eq_ok, okOr_eq_ok, pure_eq_ok,
    Prod.mk.injEq] at h
  obtain ⟨_, -, _, -, -, -, _, -, _, -, -, -, -, -, -, -, -, -, _, -, -, rfl⟩ := h
  simp

theorem reviveTimedOut_view {late : Bool} {d : VerificationDispatch}
    (h : db.reviveTimedOut late d = .ok db') : db'.deliveryView = db.deliveryView := by
  unfold reviveTimedOut at h
  split at h
  · simp only [bind_eq_ok, ensure_eq_ok, pure_eq_ok] at h
    obtain ⟨-, -, rfl⟩ := h
    exact deliveryView_updateDispatch _ _ _ _
  · rw [Except.ok.inj h]

theorem extendDeadline_view {dispatchId : String} {extendTo : Time} {hardCap : Int}
    {d : Option VerificationDispatch}
    (h : db.extendDeadline dispatchId now extendTo hardCap = .ok (d, db')) :
    db'.deliveryView = db.deliveryView := by
  simp only [extendDeadline, bind_eq_ok] at h
  obtain ⟨dispatch, -, h⟩ := h
  split at h
  · cases h
    rfl
  · split at h
    · simp only [bind_eq_ok, pure_eq_ok, Prod.mk.injEq] at h
      obtain ⟨-, -, -, rfl⟩ := h
      exact deliveryView_updateDispatch _ _ _ _
    · cases h
      exact deliveryView_updateDispatch _ _ _ _

theorem cancelUnboundServerHandoff_view {issuer toolUseId : String} {b : Bool}
    (h : db.cancelUnboundServerHandoff H issuer toolUseId = .ok (b, db')) :
    db'.deliveryView = db.deliveryView := by
  unfold cancelUnboundServerHandoff at h
  split at h
  · cases h
    rfl
  · split at h
    · cases h
      rfl
    · dsimp only at h
      split at h
      · cases h
        rfl
      · cases h
        rfl
    · simp at h

end ProofDb

/-- 受領の表に触らない操作。 -/
def ProofOp.isSilent : ProofOp → Bool
  | createDispatch .. | rebind .. | requestChanges .. | correctScope .. | deliver ..
  | transition .. | transitionVerification .. => false
  | _ => true

open ProofDb in
theorem ProofOp.body_silent {H : Digests} {db db' : ProofDb} {op : ProofOp} {r : ProofRes}
    (h : op.body H db = .ok (r, db')) (hop : op.isSilent = true) :
    db'.deliveryView = db.deliveryView := by
  cases op
  case createDispatch | rebind | requestChanges | correctScope | deliver | transition
    | transitionVerification =>
    simp [ProofOp.isSilent] at hop
  case external =>
    simp only [ProofOp.body, Except.ok.injEq, Prod.mk.injEq] at h
    rw [← h.2]
    rfl
  all_goals
    simp only [ProofOp.body, mapResult_eq_ok] at h
    obtain ⟨_, hb, -⟩ := h
  case agent =>
    simp only [agentBody, bind_eq_ok, pure_eq_ok, Prod.mk.injEq] at hb
    obtain ⟨_, -, -, rfl⟩ := hb
    rfl
  case claimDispatch =>
    simp only [claimDispatchBound, bind_eq_ok, ensure_eq_ok, pure_eq_ok, Prod.mk.injEq] at hb
    obtain ⟨-, -, -, -, -, rfl⟩ := hb
    exact deliveryView_updateDispatch _ _ _ _
  case resolveDispatch =>
    simp only [ProofDb.resolveDispatch, bind_eq_ok, ensure_eq_ok, pure_eq_ok, Prod.mk.injEq] at hb
    obtain ⟨_, -, -, -, -, -, -, -, -, rfl⟩ := hb
    exact deliveryView_updateDispatch _ _ _ _
  case timeoutDispatch => exact timeoutDispatch_view hb
  case extendDeadline => exact extendDeadline_view hb
  case adoptOrphaned => exact adoptOrphanedDispatches_view hb
  case newCycle => exact invalidateTaskForNewCycle_view hb
  case repositoryDrift => exact invalidateForRepositoryDrift_view hb
  case issueCapability =>
    simp only [issueVerifierCapability, insertCapability, bind_eq_ok, okOr_eq_ok, pure_eq_ok,
      Prod.mk.injEq] at hb
    obtain ⟨_, -, _, ⟨_, -, rfl⟩, -, rfl⟩ := hb
    rfl
  case issueHandoff =>
    simp only [issueServerVerifierHandoff, insertCapability, insertHandoff, bind_eq_ok,
      ensure_eq_ok, okOr_eq_ok, pure_eq_ok, Prod.mk.injEq] at hb
    obtain ⟨-, -, -, -, _, -, -, -, _, ⟨_, -, rfl⟩, _, ⟨-, -, _, -, rfl⟩, -, rfl⟩ := hb
    exact deliveryView_sweepExpiredHandoffs _
  case bindCapability =>
    simp only [bindVerifierCapability, bind_eq_ok, ensure_eq_ok, okOr_eq_ok, pure_eq_ok,
      Prod.mk.injEq] at hb
    obtain ⟨_, -, _, -, _, -, _, -, -, -, -, -, _, -, -, rfl⟩ := hb
    rfl
  case bindHandoff =>
    simp only [bindServerVerifierHandoff, bind_eq_ok] at hb
    obtain ⟨-, -, hb⟩ := hb
    exact bindServerHandoffWithConn_view hb
  case bindHandoffAndRegister =>
    simp only [bindServerHandoffAndRegisterChild, bind_eq_ok, ensure_eq_ok, pure_eq_ok,
      Prod.mk.injEq] at hb
    obtain ⟨-, -, -, -, -, -, -, -, ⟨_, _⟩, hb, _, -, -, rfl⟩ := hb
    have hv := bindServerHandoffWithConn_view hb
    exact hv
  case cancelHandoff => exact cancelUnboundServerHandoff_view hb
  case consumeCapability =>
    simp only [consumeVerifierCapability, bind_eq_ok, ensure_eq_ok, okOr_eq_ok, pure_eq_ok,
      Prod.mk.injEq] at hb
    obtain ⟨_, -, _, -, _, -, _, -, -, -, -, -, -, rfl⟩ := hb
    rfl
  case consumeHandoff =>
    simp only [consumeServerHandoff, bind_eq_ok, ensure_eq_ok, okOr_eq_ok, pure_eq_ok,
      Prod.mk.injEq] at hb
    obtain ⟨_, -, -, -, _, -, _, -, -, -, -, -, _, hrev, -, -, -, -, -, rfl⟩ := hb
    have hv := reviveTimedOut_view hrev
    exact hv

/-! ## 受領の外の操作 -/

namespace ProofDb

variable {H : Digests} {db db' db'' : ProofDb}
variable {transactionId : String}

/-- transaction と receipt の対応。遷移はこれを変えない。 -/
def deliveryKeys (db : ProofDb) : List (String × String) :=
  db.transactions.rows.map fun t => (t.id, t.receiptId)

/-- 受領の外の操作ができること。 -/
structure Accrues (db db' : ProofDb) : Prop where
  receipts_eq : db'.receipts = db.receipts
  keys_eq : db'.deliveryKeys = db.deliveryKeys
  events : db'.events = db.events
    ∨ ∃ e, db.eventVacant e = true ∧ db.events.insert? e = some db'.events

theorem Accrues.of_eq (hr : db'.receipts = db.receipts)
    (ht : db'.transactions = db.transactions) (he : db'.events = db.events) : Accrues db db' :=
  ⟨hr, by rw [deliveryKeys, ht, deliveryKeys], Or.inl he⟩

theorem Accrues.of_view (h : db'.deliveryView = db.deliveryView) : Accrues db db' := by
  simp only [deliveryView, DeliveryView.mk.injEq] at h
  exact .of_eq h.1 h.2.1 h.2.2.1

/-- 配達に関わらない一歩を前に置ける。 -/
theorem Accrues.after_view (hv : db'.deliveryView = db.deliveryView) (h : Accrues db' db'') :
    Accrues db db'' := by
  simp only [deliveryView, DeliveryView.mk.injEq] at hv
  obtain ⟨hr, ht, he, -⟩ := hv
  refine ⟨h.receipts_eq.trans hr, h.keys_eq.trans (by rw [deliveryKeys, ht, deliveryKeys]), ?_⟩
  simpa only [eventVacant, he] using h.events

/-- receipt を変えない transaction の更新を前に置ける。 -/
theorem Accrues.after_update {p : WorkerDeliveryTransaction → Bool}
    {f : WorkerDeliveryTransaction → WorkerDeliveryTransaction} {hf : ∀ t, (f t).id = t.id}
    (h : Accrues (db.updateTransactions p f hf) db'')
    (hr : ∀ t, (f t).receiptId = t.receiptId) : Accrues db db'' := by
  refine ⟨h.receipts_eq, h.keys_eq.trans (Table.map_update hf fun t => ?_), h.events⟩
  rw [hf, hr]

/-- `INSERT OR IGNORE` は、空いた場所に event を足すか、何もしない。 -/
theorem insertEvent_accrues {state : WorkerDeliveryState} {actor : String} {detail : Option String}
    {now : Time} : Accrues db (db.insertEvent H transactionId state actor detail now) := by
  unfold insertEvent
  dsimp only
  split
  · next hvacant =>
    refine ⟨rfl, rfl, ?_⟩
    dsimp only [Table.insertOrIgnore]
    cases hins : db.events.insert? _ with
    | none => exact Or.inl rfl
    | some events => exact Or.inr ⟨_, hvacant, hins⟩
  · exact .of_eq rfl rfl rfl

theorem appendEvent_accrues {rid : String} {state : WorkerDeliveryState} {actor : String}
    {detail : Option String} {now : Time}
    (h : db.appendEvent rid transactionId state actor detail now = .ok db') : Accrues db db' := by
  simp only [appendEvent, bind_eq_ok, ensure_eq_ok, okOr_eq_ok, pure_eq_ok] at h
  obtain ⟨-, hvacant, events, hins, rfl⟩ := h
  exact ⟨rfl, rfl, Or.inr ⟨_, hvacant, hins⟩⟩

theorem moveDelivery_accrues {t : WorkerDeliveryTransaction} {taskId : String}
    {target : WorkerDeliveryState} {supervisor code errorDetail eventDetail rid : String}
    {now : Time} {raced : String}
    (h : db.moveDelivery t taskId target supervisor code errorDetail eventDetail rid now raced
      = .ok db') : Accrues db db' := by
  simp only [moveDelivery, bind_eq_ok, ensure_eq_ok] at h
  obtain ⟨-, -, hev⟩ := h
  exact (appendEvent_accrues hev).after_update fun _ => rfl

theorem declineDelivery_accrues {delivery : Option WorkerDeliveryTransaction}
    {taskId supervisor reason rid : String} {now : Time}
    (h : db.declineDelivery delivery taskId supervisor reason rid now = .ok db') :
    Accrues db db' := by
  unfold declineDelivery at h
  split at h
  · rw [← Except.ok.inj h]
    exact .of_eq rfl rfl rfl
  · exact moveDelivery_accrues h

theorem staleDelivery_accrues {delivery : Option WorkerDeliveryTransaction}
    {c : ProofScopeCorrection} {allowMerged : Bool} {rid : String}
    (h : db.staleDelivery delivery c allowMerged rid = .ok db') : Accrues db db' := by
  unfold staleDelivery at h
  split at h
  · rw [← Except.ok.inj h]
    exact .of_eq rfl rfl rfl
  · simp only [bind_eq_ok, ensure_eq_ok] at h
    obtain ⟨-, -, h⟩ := h
    split at h
    · rw [← pure_eq_ok.mp h]
      exact .of_eq rfl rfl rfl
    · exact moveDelivery_accrues h

theorem transitionWorkerDelivery_accrues {expected : List WorkerDeliveryState}
    {state : WorkerDeliveryState} {actor : String} {fields : TransitionFields} {now : Time}
    {t : WorkerDeliveryTransaction}
    (h : db.transitionWorkerDelivery H transactionId expected state actor fields now = .ok (t, db')) :
    Accrues db db' := by
  simp only [transitionWorkerDelivery, bind_eq_ok, okOr_eq_ok] at h
  obtain ⟨current, -, h⟩ := h
  split at h
  · cases h
    exact .of_eq rfl rfl rfl
  · simp only [bind_eq_ok, ensure_eq_ok, okOr_eq_ok, pure_eq_ok, Prod.mk.injEq] at h
    obtain ⟨-, -, _, -, -, rfl⟩ := h
    exact insertEvent_accrues.after_update fun _ => rfl

theorem transitionWorkerDeliveryVerification_accrues {verificationId : String} {approved : Bool}
    {actor : String} {now : Time} {t : Option WorkerDeliveryTransaction}
    (h : db.transitionWorkerDeliveryVerification H transactionId verificationId approved actor now
      = .ok (t, db')) : Accrues db db' := by
  unfold transitionWorkerDeliveryVerification at h
  split at h
  · cases h
    exact .of_eq rfl rfl rfl
  · simp only [bind_eq_ok, ensure_eq_ok, okOr_eq_ok, pure_eq_ok, Prod.mk.injEq] at h
    obtain ⟨-, -, -, -, _, -, -, rfl⟩ := h
    exact insertEvent_accrues.after_update fun _ => rfl

theorem createDispatch_frame {taskId requester owner : String}
    {boundary : VerificationProofBoundary} {deadlineAt : Time} {recovery : Bool} {rid : String}
    {requestedAt : Time} {d : VerificationDispatch}
    (h : db.createDispatch taskId requester owner boundary deadlineAt recovery rid requestedAt
      = .ok (d, db')) : ∃ dispatches, db' = { db with dispatches } := by
  unfold createDispatch at h
  split at h
  · cases h
    exact ⟨_, rfl⟩
  · simp only [insertDispatch, bind_eq_ok, ensure_eq_ok, okOr_eq_ok, pure_eq_ok,
      Prod.mk.injEq] at h
    obtain ⟨_, -, _, ⟨-, -, dispatches, -, rfl⟩, -, rfl⟩ := h
    exact ⟨_, rfl⟩

end ProofDb

/-- 割り当てを立てる操作。 -/
def ProofOp.opensDispatch : ProofOp → Bool
  | createDispatch .. | rebind .. => true
  | _ => false

/-- 受領。 -/
def ProofOp.isDeliver : ProofOp → Bool
  | deliver .. => true
  | _ => false

open ProofDb in
/-- **受領の外の操作は receipt も transaction も増やさず、event は空いた場所に足す。** -/
theorem ProofOp.body_accrues {H : Digests} {db db' : ProofDb} {op : ProofOp} {r : ProofRes}
    (h : op.body H db = .ok (r, db')) (hop : op.isDeliver = false) : Accrues db db' := by
  cases hs : op.isSilent with
  | true => exact .of_view (ProofOp.body_silent h hs)
  | false =>
    cases op with
    | deliver => simp [ProofOp.isDeliver] at hop
    | createDispatch =>
      simp only [ProofOp.body, mapResult_eq_ok] at h
      obtain ⟨_, hb, -⟩ := h
      obtain ⟨dispatches, rfl⟩ := createDispatch_frame hb
      exact .of_eq rfl rfl rfl
    | rebind =>
      simp only [ProofOp.body, mapResult_eq_ok, rebindApprovedDispatch, bind_eq_ok, ensure_eq_ok,
        okOr_eq_ok, pure_eq_ok, Prod.mk.injEq] at h
      obtain ⟨_, ⟨_, -, -, -, ⟨_, _⟩, hcreate, _, -, -, rfl⟩, -⟩ := h
      obtain ⟨dispatches, rfl⟩ := createDispatch_frame hcreate
      exact .of_eq rfl rfl rfl
    | requestChanges =>
      simp only [ProofOp.body, mapResult_eq_ok, ProofDb.requestChanges, bind_eq_ok,
        ensure_eq_ok, okOr_eq_ok, pure_eq_ok, Prod.mk.injEq] at h
      obtain ⟨_, ⟨-, -, -, -, _, -, _, -, _, -, -, -, _, hinv, _, hdel, -, -, -,
        rfl⟩, -⟩ := h
      have hacc := declineDelivery_accrues hdel
      exact .after_view (invalidateLatest_view hinv) ⟨hacc.receipts_eq, hacc.keys_eq, hacc.events⟩
    | correctScope kind c rid now =>
      simp only [ProofOp.body, mapResult_eq_ok] at h
      obtain ⟨_, hb, -⟩ := h
      obtain ⟨allowMerged, requireMerged, heq⟩ := correct_eq db kind c rid now
      rw [heq] at hb
      simp only [correctProofScopeInner, bind_eq_ok, ensure_eq_ok, okOr_eq_ok, pure_eq_ok,
        Prod.mk.injEq] at hb
      obtain ⟨-, -, -, -, -, -, _, hinv, _, hdel, _, -, -, -, -, rfl⟩ := hb
      have hacc := staleDelivery_accrues hdel
      exact .after_view (invalidateLatest_view hinv) ⟨hacc.receipts_eq, hacc.keys_eq, hacc.events⟩
    | transition =>
      simp only [ProofOp.body, mapResult_eq_ok] at h
      obtain ⟨_, hb, -⟩ := h
      exact transitionWorkerDelivery_accrues hb
    | transitionVerification =>
      simp only [ProofOp.body, mapResult_eq_ok] at h
      obtain ⟨_, hb, -⟩ := h
      exact transitionWorkerDeliveryVerification_accrues hb
    | _ => simp [ProofOp.isSilent] at hs

open ProofDb in
/-- 割り当てを増やすのは、受領と、割り当てを立てる操作だけである。 -/
theorem ProofOp.body_dispatchIds {H : Digests} {db db' : ProofDb} {op : ProofOp} {r : ProofRes}
    (h : op.body H db = .ok (r, db')) (hop : op.isDeliver = false)
    (hopen : op.opensDispatch = false) :
    db'.dispatches.rows.map (·.id) = db.dispatches.rows.map (·.id) := by
  cases hs : op.isSilent with
  | true => exact congrArg DeliveryView.dispatchIds (ProofOp.body_silent h hs)
  | false =>
    cases op with
    | deliver => simp [ProofOp.isDeliver] at hop
    | createDispatch | rebind => simp [ProofOp.opensDispatch] at hopen
    | requestChanges =>
      simp only [ProofOp.body, mapResult_eq_ok, ProofDb.requestChanges, bind_eq_ok,
        ensure_eq_ok, okOr_eq_ok, pure_eq_ok, Prod.mk.injEq] at h
      obtain ⟨_, ⟨-, -, -, -, _, -, _, -, _, -, -, -, _, hinv, _, hdel, -, -, -,
        rfl⟩, -⟩ := h
      obtain ⟨transactions, events, rfl⟩ := declineDelivery_frame hdel
      exact congrArg DeliveryView.dispatchIds (invalidateLatest_view hinv)
    | correctScope kind c rid now =>
      simp only [ProofOp.body, mapResult_eq_ok] at h
      obtain ⟨_, hb, -⟩ := h
      obtain ⟨allowMerged, requireMerged, heq⟩ := correct_eq db kind c rid now
      rw [heq] at hb
      simp only [correctProofScopeInner, bind_eq_ok, ensure_eq_ok, okOr_eq_ok, pure_eq_ok,
        Prod.mk.injEq] at hb
      obtain ⟨-, -, -, -, -, -, _, hinv, _, hdel, _, -, -, -, -, rfl⟩ := hb
      obtain ⟨transactions, events, rfl⟩ := staleDelivery_frame hdel
      exact congrArg DeliveryView.dispatchIds (invalidateLatest_view hinv)
    | transition =>
      simp only [ProofOp.body, mapResult_eq_ok] at h
      obtain ⟨_, hb, -⟩ := h
      rw [(transitionWorkerDelivery_sameAuthority hb).1]
    | transitionVerification =>
      simp only [ProofOp.body, mapResult_eq_ok] at h
      obtain ⟨_, hb, -⟩ := h
      rw [(transitionWorkerDeliveryVerification_sameAuthority hb).1]
    | _ => simp [ProofOp.isSilent] at hs

end Cassy
