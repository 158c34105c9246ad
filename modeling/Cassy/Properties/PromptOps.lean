import Cassy.Infra.Run
import Cassy.Properties.PromptDrain

/-!
# 一つの操作が行に起こすこと

一つの transaction か一つの文からなる操作のうち、押印と、段階に触れない書き換えと、段階の定まった行への確認から
なるものは、それらを含む関係 `R` で行を移す（`moves_op`）。押印を通らずに段階を書く掃除と補修、および確認の操作は
`ordinary` から外し、関係ごとに別に扱う。

段階の順序も、報告の不変条件も、鍵の寿命も、`R` を選んでこの補題を使う。
-/

namespace Cassy

open Infra PromptDb

/-- 後任への宛て直しの後の行。 -/
def retargeted (successor : String) (session : Option String) (detail : String) (r : PromptRow) :
    PromptRow :=
  { r with
    target := successor
    factorySession := session
    nextAttemptAt := none
    lastPendingReason := none
    lastPendingDetail := some detail
    deferredInboxAt := none }

/-- 押印、書き換え、確認を含む関係。 -/
structure OpLaw (R : PromptRow → PromptRow → Prop) (New : PromptRow → Prop) : Prop extends
    RowLaw R New where
  stamp : ∀ p, p.rank ≤ 3 → StampLaw R p
  ack : AckLaw R fun _ => False
  edit : ∀ (e : RowEdit) r, R r (e.apply r)
  processed : ∀ (r : PromptRow) t, R r { r with processedAt := some t }
  retarget : ∀ successor session detail r, r.processedAt = none →
    R r (retargeted successor session detail r)

/-- 押印を通らずに段階を書くことも、宛先の確認を書くこともない操作。 -/
def PromptOp.ordinary : PromptOp → Bool
  | operatorTurn _ _ | settleRecipientMessage _ _ _ _ | cancelUnreadForShutdown _ _ _ _
  | refreshQaRejectionTargets _ _ _ _ | abandonPendingOlderThan _ _ _ | expireStalePending _ _ _ _
  | abandonIneligibleSessionTargets _ _ _ _ _ _ | demoteInferred | hydrateLegacyProcessed _
  | hydrateProcessed => false
  | _ => true

theorem quiet_eq_ok {α : Type} {body : Except StoreError (α × PromptDb)} {out : PromptOutcome}
    {db : PromptDb} (h : quiet body = .ok (out, db)) : ∃ x, body = .ok (x, db) := by
  obtain ⟨x, hx, -⟩ := mapResult_eq_ok.mp h
  exact ⟨x, hx⟩

theorem onlyDb_eq_ok {body : Except StoreError PromptDb} {out : PromptOutcome} {db : PromptDb}
    (h : onlyDb body = .ok (out, db)) : body = .ok db := by
  unfold onlyDb at h
  cases body with
  | error e => cases h
  | ok db' =>
    cases h
    rfl

section Ops

variable {R : PromptRow → PromptRow → Prop} {New : PromptRow → Prop} {db db' : PromptDb}

/-- 用済みの中継の段階は、順位 3 にある。 -/
theorem terminalUnackedRelay_rank {r : PromptRow} (h : terminalUnackedRelay r = true) :
    r.ackedAt = none ∧ ∃ s, r.stage? = some s ∧ 3 ≤ s.rank := by
  unfold terminalUnackedRelay stageIs at h
  simp only [Bool.and_eq_true, Bool.or_eq_true, decide_eq_true_eq, Option.isNone_iff_eq_none] at h
  refine ⟨h.1.1.2, ?_⟩
  unfold PromptRow.stage?
  rcases h.2 with (hs | hs) | hs
  · exact ⟨.suppressed, by rw [hs], by decide⟩
  · exact ⟨.dropped, by rw [hs], by decide⟩
  · exact ⟨.abandoned, by rw [hs], by decide⟩

theorem moves_reconcileWhere (hR : OpLaw R New) (now : Time) {via : AckedVia}
    (hvia : via ≠ .inferredFromReply) (p : PromptRow → Bool) :
    Moves R New db (db.reconcileWhere now via p) := by
  refine moves_update hR.refl fun id r _ hp => ?_
  obtain ⟨hrelay, -⟩ := (Bool.and_eq_true _ _).mp hp
  obtain ⟨hnone, hrank⟩ := terminalUnackedRelay_rank hrelay
  exact hR.ack r now via hvia hnone (Or.inr hrank)

theorem moves_reconcileRelays (hR : OpLaw R New) (now : Time) (w : Surroundings)
    (taskClosed sessionEnded : Bool) :
    Moves R New db (db.reconcileRelays now w taskClosed sessionEnded) := by
  unfold reconcileRelays
  dsimp only
  have hclosed : Moves R New db (if taskClosed = true then
      db.reconcileWhere now .terminalTaskReconciled w.relayTaskClosed else db) := by
    split
    · exact moves_reconcileWhere hR now (by decide) _
    · exact .refl hR.refl
  split
  · split
    · exact hclosed.trans hR.toRowRel (moves_reconcileWhere hR now (by decide) _)
    · exact hclosed
  · exact hclosed

theorem moves_retargetOperatorRows (hR : OpLaw R New) (w : Surroundings)
    (predecessor : String) (session : Option String) (successor : String)
    (successorSession : Option String) :
    Moves R New db (db.retargetOperatorRows w predecessor session successor successorSession) := by
  unfold retargetOperatorRows
  split
  · exact .refl hR.refl
  · refine moves_foldl hR.toRowRel (fun db id _ => ?_) db
    unfold retargetRow
    refine (moves_updateId hR.refl fun r _ hp => ?_).congr_left rfl rfl
    obtain ⟨hnone, -⟩ := (Bool.and_eq_true _ _).mp hp
    exact hR.retarget successor successorSession _ r (Option.isNone_iff_eq_none.mp hnone)

theorem moves_claimRecipientTransport (hR : OpLaw R New) {id : Nat} {recipient : String}
    {token : Time} {t : Option Time}
    (h : db.claimRecipientTransport id recipient token = .ok (t, db')) : Moves R New db db' := by
  unfold claimRecipientTransport at h
  dsimp only at h
  obtain ⟨-, -, h⟩ := bind_eq_ok.mp h
  split at h
  · cases pure_eq_ok.mp h
    refine (moves_updateId hR.refl fun r _ _ => ?_).congr_left rfl rfl
    exact hR.same ⟨rfl, rfl, rfl, rfl, rfl, rfl, rfl, rfl, rfl⟩
  · cases pure_eq_ok.mp h
    exact .refl hR.refl

/-! 取り除きは、残った行を変えない。 -/

theorem moves_pruneTerminalBatch (hrefl : ∀ r, R r r) (db : PromptDb) (cutoff : Time)
    (releasable : PromptRow → Bool) (picked : List Nat) :
    Moves R New db (db.pruneTerminalBatch cutoff releasable picked) :=
  ⟨Nat.le_refl _, (moves_deletePrompts hrefl _).row⟩

theorem moves_clear (hrefl : ∀ r, R r r) (db : PromptDb) : Moves R New db db.clear :=
  ⟨Nat.le_refl _, (moves_deletePrompts hrefl _).row⟩

theorem moves_cleanupOld (hrefl : ∀ r, R r r) (db : PromptDb) (cutoff : Time)
    (retained : PromptRow → Bool) : Moves R New db (db.cleanupOld cutoff retained) :=
  ⟨Nat.le_refl _, (moves_deletePrompts hrefl _).row⟩

/-- 受領だけを書く文は、伝言に触れない。 -/
theorem recordRecipientSurfaced_prompts (db : PromptDb) (now : Time) (id : Nat) (recipient : String)
    (source : SurfacingSource) :
    (db.recordRecipientSurfaced now id recipient source).prompts = db.prompts
      ∧ (db.recordRecipientSurfaced now id recipient source).nextId = db.nextId := by
  unfold recordRecipientSurfaced
  split
  · exact ⟨rfl, rfl⟩
  · exact ⟨rfl, rfl⟩

theorem recordTranscriptConsumed_prompts (db : PromptDb) (now : Time) (expected : PromptRow) :
    (db.recordTranscriptConsumed now expected).prompts = db.prompts
      ∧ (db.recordTranscriptConsumed now expected).nextId = db.nextId := by
  unfold recordTranscriptConsumed
  split
  · exact ⟨rfl, rfl⟩
  · exact ⟨rfl, rfl⟩

/-- 一つの操作。 -/
theorem moves_op (hR : OpLaw R New) {o : PromptOp} {out : PromptOutcome} (ho : o.ordinary = true)
    (h : o.body db = .ok (out, db')) : Moves R New db db' := by
  have hrel := hR.toRowRel
  have hlaw := hR.toRowLaw
  cases o with
  | enqueue p =>
    cases h
    exact moves_enqueue hrel p
  | enqueueWorkerPeer copy p =>
    cases h
    exact (moves_insert hR.refl _ (hR.new _ _)).trans hrel (moves_insert hR.refl p (hR.new p _))
  | enqueueWorkerAction now p session agentId folded =>
    obtain ⟨n, h⟩ := quiet_eq_ok h
    exact moves_enqueueWorkerAction hrel hR.stamp h
  | enqueueWorkerStallNudge now target prompt session taskId dedupeKey =>
    obtain ⟨n, h⟩ := quiet_eq_ok h
    exact moves_enqueueWorkerStallNudge hrel hR.stamp h
  | notify notices =>
    cases h
    exact moves_notifyAll hrel notices
  | stamp now op notices => exact moves_stamp hrel (hR.stamp _ op.call_rank_le) (onlyDb_eq_ok h)
  | recordPendingReason now notices id reason detail =>
    exact moves_recordPendingReason hlaw hR.stamp (onlyDb_eq_ok h)
  | recordRetry now notices id reason detail =>
    obtain ⟨d, h⟩ := quiet_eq_ok h
    exact moves_recordRetry hlaw hR.stamp h
  | parkForBusyRecipient now id detail recheckAt =>
    exact moves_parkForBusyRecipient hlaw hR.stamp (onlyDb_eq_ok h)
  | selectForTargets now targets session picked =>
    obtain ⟨ids, h⟩ := quiet_eq_ok h
    exact moves_selectForTargets hlaw hR.stamp h
  | stampBroadcastPolicy now id supersedeKey sticky =>
    obtain ⟨ids, h⟩ := quiet_eq_ok h
    exact moves_stampBroadcastPolicy hlaw hR.stamp h
  | persistOperatorReceipt now id session deviceId notice =>
    obtain ⟨b, h⟩ := quiet_eq_ok h
    exact moves_persistOperatorReceipt hrel hR.stamp h
  | reconcileRelays now w taskClosed sessionEnded =>
    cases h
    exact moves_reconcileRelays hR now w taskClosed sessionEnded
  | markProcessed now id =>
    cases h
    exact moves_updateId hR.refl fun r _ _ => hR.processed r now
  | edit e =>
    cases h
    exact moves_update hR.refl fun _ r _ _ => hR.edit e r
  | pruneTerminalBatch cutoff releasable picked =>
    cases h
    exact moves_pruneTerminalBatch hR.refl db cutoff releasable picked
  | clear =>
    cases h
    exact moves_clear hR.refl db
  | cleanupOld cutoff retained =>
    cases h
    exact moves_cleanupOld hR.refl db cutoff retained
  | claimRecipientTransport id recipient token =>
    obtain ⟨t, h, -⟩ := mapResult_eq_ok.mp h
    exact moves_claimRecipientTransport hR h
  | recordRecipientSurfaced now id recipient source =>
    cases h
    obtain ⟨hp, hn⟩ := recordRecipientSurfaced_prompts db now id recipient source
    exact .of_prompts_eq hR.refl hp hn
  | recordTranscriptConsumed now expected =>
    cases h
    obtain ⟨hp, hn⟩ := recordTranscriptConsumed_prompts db now expected
    exact .of_prompts_eq hR.refl hp hn
  | retargetOperatorRows w predecessor session successor successorSession =>
    cases h
    exact moves_retargetOperatorRows hR w predecessor session successor successorSession
  | operatorTurn => cases ho
  | settleRecipientMessage => cases ho
  | cancelUnreadForShutdown => cases ho
  | refreshQaRejectionTargets => cases ho
  | abandonPendingOlderThan => cases ho
  | expireStalePending => cases ho
  | abandonIneligibleSessionTargets => cases ho
  | demoteInferred => cases ho
  | hydrateLegacyProcessed => cases ho
  | hydrateProcessed => cases ho
  -- 受領だけを書く文
  | _ =>
    cases h
    exact .of_prompts_eq hR.refl rfl rfl

/-! ## 確認の操作 -/

theorem settleAcks_prompts (now : Time) (id : Nat) (reply : Option Nat) (recipients : List String)
    (db : PromptDb) :
    (recipients.foldl (settleAck now id reply) db).prompts = db.prompts
      ∧ (recipients.foldl (settleAck now id reply) db).nextId = db.nextId :=
  ⟨foldl_fixed (f := settleAck now id reply) (fun _ _ => rfl) recipients db,
    foldl_fixed (f := settleAck now id reply) (fun _ _ => rfl) recipients db⟩

/-- 宛先の確認を受けた行。 -/
def acknowledged (now : Time) (r : PromptRow) : PromptRow :=
  { r with ackedAt := r.ackedAt.or (some now), ackedVia := some .explicitAck }

/-- 宛先の確認は、全員宛てなら宛先ごとの記録だけを、直接の伝言なら確認と押印を書く。 -/
theorem settleRecipientMessage_cases {now : Time} {id : Nat} {recipients : List String}
    {reply : Option Nat} (h : db.settleRecipientMessage now id recipients reply = .ok db') :
    db' = recipients.foldl (settleAck now id reply) db
      ∨ db' = ((recipients.foldl (settleAck now id reply) db).updateId id (fun _ => true)
        (acknowledged now)).stampIgnoringError now id .confirmed .clearReason := by
  unfold settleRecipientMessage at h
  obtain ⟨-, -, h⟩ := bind_eq_ok.mp h
  obtain ⟨row, -, h⟩ := bind_eq_ok.mp h
  obtain ⟨-, -, h⟩ := bind_eq_ok.mp h
  cases reply with
  | none =>
    dsimp only at h
    split at h
    · exact Or.inl (pure_eq_ok.mp h).symm
    · exact Or.inr (pure_eq_ok.mp h).symm
  | some replyId =>
    dsimp only at h
    obtain ⟨replyRow, -, h⟩ := bind_eq_ok.mp h
    obtain ⟨-, -, h⟩ := bind_eq_ok.mp h
    split at h
    · exact Or.inl (pure_eq_ok.mp h).symm
    · exact Or.inr (pure_eq_ok.mp h).symm

/-- その伝言だけが、確認の印と押印を受ける。 -/
theorem moves_acknowledged (hR : RowRel R New) {now : Time} {id : Nat} {recipients : List String}
    {reply : Option Nat} (hack : ∀ r : PromptRow, r.id = id → R r (acknowledged now r))
    (hC : ∀ r r', r.id = id → StampedBy .confirmed r r' → R r r') :
    Moves R New db (((recipients.foldl (settleAck now id reply) db).updateId id (fun _ => true)
      (acknowledged now)).stampIgnoringError now id .confirmed .clearReason) := by
  obtain ⟨hp, hn⟩ := settleAcks_prompts now id reply recipients db
  have hacks : Moves R New db (recipients.foldl (settleAck now id reply) db) :=
    .of_prompts_eq hR.refl hp hn
  refine (hacks.trans hR (moves_updateId hR.refl fun r hr _ => ?_)).trans hR
    (moves_stampIgnoringError hR fun r r' hr hs => ?_)
  · exact hack r (Table.key_of_find? hr)
  · exact hC r r' (Table.key_of_find? hr) hs

/-- 返事の turn は、重なれば何もせず、答えた伝言があれば押印と確認を書く。 -/
theorem insertCompleteOperatorTurn_cases {p : NewPrompt} {ackId : Option Nat} {out : EnqueueOutcome}
    (h : db.insertCompleteOperatorTurn p ackId = .ok (out, db')) :
    db' = db ∨ db' = db.insert p ∨ ∃ ack db₁, ackId = some ack
      ∧ (db₁ = db.insert p ∧ (db.insert p).find? ack = none
        ∨ (db.insert p).atomicStageStampInTx p.createdAt [] ack .confirmed .clearReason = .ok db₁)
      ∧ db' = db₁.setAcked p.createdAt ack .explicitAck := by
  unfold insertCompleteOperatorTurn enqueue at h
  split at h
  · cases h
    exact Or.inl rfl
  · next id db₁ henq =>
    have hdb₁ : db₁ = db.insert p := by
      split at henq
      · cases henq
      · cases henq
        rfl
    subst hdb₁
    cases ackId with
    | none =>
      cases h
      exact Or.inr (Or.inl rfl)
    | some ack =>
      dsimp only at h
      split at h
      · obtain ⟨db₂, hstamp, ⟨⟩⟩ := bind_pure_eq_ok.mp h
        exact Or.inr (Or.inr ⟨ack, db₂, rfl, Or.inr hstamp, rfl⟩)
      · next hnone =>
        cases pure_eq_ok.mp h
        exact Or.inr (Or.inr ⟨ack, db.insert p, rfl,
          Or.inl ⟨rfl, Option.not_isSome_iff_eq_none.mp hnone⟩, rfl⟩)

end Ops

end Cassy
