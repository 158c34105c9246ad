import Cassy.Properties.PromptSweeps

/-!
# 操作が受領に起こすこと

本文の見えた証拠（`inbox_poll`、`hook_surfaced`、`observed_wake`）は、伝言があるかぎり消えず、弱くならない
（`Keeps`）。変わるとすれば、poll の証拠が hook の証拠に替わるときだけである。

段階を動かす操作は受領の表に触れない（`seen` の補題）。受領を書く操作は、予約を消すか、予約か渡した記録を
上書きするか、行を足すかのどれかである。
-/

namespace Cassy

open Infra PromptDb

/-! ## 受領に触れない操作 -/

section SameSeen

variable {db db' : PromptDb} {now : Time} {notices : List AbandonNotice} {id : Nat}

theorem foldlM_seen {γ : Type} {g : PromptDb → γ → Except StoreError PromptDb}
    (hg : ∀ db x db', g db x = .ok db' → db'.seen = db.seen) :
    ∀ {l : List γ} {db db' : PromptDb}, l.foldlM g db = .ok db' → db'.seen = db.seen
  | [], db, db', h => by
    cases h
    rfl
  | x :: l, db, db', h => by
    rw [List.foldlM_cons, bind_eq_ok] at h
    obtain ⟨db₁, hx, hl⟩ := h
    exact (foldlM_seen hg hl).trans (hg db x db₁ hx)

theorem stampEach_seen {ids : List Nat} {proposed : DeliveryStage} {opts : AtomicStampOpts}
    (h : db.stampEach now ids proposed opts = .ok db') : db'.seen = db.seen :=
  foldlM_seen (fun _ _ _ hx => stampAt_seen hx) h

theorem stampIgnoringError_seen (db : PromptDb) (now : Time) (id : Nat) (proposed : DeliveryStage)
    (opts : AtomicStampOpts) : (db.stampIgnoringError now id proposed opts).seen = db.seen := by
  unfold stampIgnoringError
  split
  · next h => exact stampAt_seen h
  · rfl

theorem recordRetry_seen {reason : PendingReason} {detail : Option String}
    {d : PromptRetryDisposition} (h : db.recordRetry now notices id reason detail = .ok (d, db')) :
    db'.seen = db.seen := by
  unfold recordRetry at h
  split at h
  · cases h
    rfl
  · dsimp only at h
    split at h
    · obtain ⟨db₁, hstamp, ⟨⟩⟩ := bind_pure_eq_ok.mp h
      show db₁.seen = db.seen
      exact stampAt_seen hstamp
    · obtain ⟨db₁, hstamp, ⟨⟩⟩ := bind_pure_eq_ok.mp h
      show db₁.seen = db.seen
      exact stampAt_seen hstamp

theorem stampBroadcastPolicy_seen {key : Option String} {sticky : Bool} {ids : List Nat}
    (h : db.stampBroadcastPolicy now id key sticky = .ok (ids, db')) : db'.seen = db.seen := by
  unfold stampBroadcastPolicy at h
  dsimp only at h
  obtain ⟨current, -, h⟩ := bind_eq_ok.mp h
  split at h
  · cases pure_eq_ok.mp h
    rfl
  · obtain ⟨db₁, hstamp, ⟨⟩⟩ := bind_pure_eq_ok.mp h
    exact (stampEach_seen hstamp).trans (update_seen ..)

theorem settleAgedRows_seen {w : Surroundings} {ids : List Nat} {existed unresolved : String}
    (h : db.settleAgedRowsInTx now w ids existed unresolved = .ok db') : db'.seen = db.seen :=
  foldlM_seen (fun _ _ _ hx => (touches_settleAgedRow hx).2) h

theorem reconcileRelays_seen (db : PromptDb) (now : Time) (w : Surroundings)
    (taskClosed sessionEnded : Bool) :
    (db.reconcileRelays now w taskClosed sessionEnded).seen = db.seen := by
  unfold reconcileRelays
  dsimp only
  split
  · split
    · split <;> rfl
    · split <;> rfl
  · split <;> rfl

theorem settleRecipientMessage_seen {recipients : List String} {reply : Option Nat}
    (h : db.settleRecipientMessage now id recipients reply = .ok db') : db'.seen = db.seen := by
  have hacks : (recipients.foldl (settleAck now id reply) db).seen = db.seen :=
    foldl_fixed (f := settleAck now id reply) (fun _ _ => rfl) recipients db
  rcases settleRecipientMessage_cases h with rfl | rfl
  · exact hacks
  · rw [stampIgnoringError_seen]
    exact hacks

theorem operatorTurn_seen {p : NewPrompt} {ackId : Option Nat} {out : EnqueueOutcome}
    (h : db.insertCompleteOperatorTurn p ackId = .ok (out, db')) : db'.seen = db.seen := by
  rcases insertCompleteOperatorTurn_cases h with rfl | rfl | ⟨ack, db₁, -, hstamp, rfl⟩
  · rfl
  · rfl
  · show db₁.seen = db.seen
    rcases hstamp with ⟨rfl, -⟩ | hstamp
    · rfl
    · exact (stampAt_seen hstamp).trans (insert_seen db p)

theorem enqueue_seen (db : PromptDb) (p : NewPrompt) : (db.enqueue p).2.seen = db.seen := by
  rcases enqueue_cases db p with h | h | h
  · rw [h]
  · rw [h]
    rfl
  · rw [h, insert_seen]

theorem enqueueWorkerAction_seen {p : NewPrompt} {session agentId : String} {folded : List Nat}
    {n : Nat} (h : db.enqueueWorkerAction now p session agentId folded = .ok (n, db')) :
    db'.seen = db.seen := by
  unfold enqueueWorkerAction at h
  dsimp only at h
  obtain ⟨db₁, hstamp, ⟨⟩⟩ := bind_pure_eq_ok.mp h
  exact (stampEach_seen hstamp).trans (insert_seen db p)

theorem enqueueWorkerStallNudge_seen {target prompt session taskId dedupeKey : String} {n : Nat}
    (h : db.enqueueWorkerStallNudge now target prompt session taskId dedupeKey = .ok (n, db')) :
    db'.seen = db.seen := by
  unfold enqueueWorkerStallNudge at h
  split at h
  · cases h
    rfl
  · dsimp only at h
    obtain ⟨db₁, hstamp, ⟨⟩⟩ := bind_pure_eq_ok.mp h
    exact (insert_seen db₁ _).trans (stampEach_seen hstamp)

theorem recordPendingReason_seen {reason : PendingReason} {detail : Option String}
    (h : db.recordPendingReason now notices id reason detail = .ok db') : db'.seen = db.seen := by
  unfold recordPendingReason at h
  obtain ⟨db₁, hstamp, h⟩ := bind_eq_ok.mp h
  rw [← pure_eq_ok.mp h, ← stampAt_seen hstamp]
  split <;> rfl

theorem selectForTargets_seen {targets : List String} {session : Option String}
    {picked ids : List Nat} (h : db.selectForTargets now targets session picked = .ok (ids, db')) :
    db'.seen = db.seen := by
  unfold selectForTargets at h
  obtain ⟨-, -, h⟩ := bind_eq_ok.mp h
  obtain ⟨db₁, hstamp, ⟨⟩⟩ := bind_pure_eq_ok.mp h
  exact stampEach_seen hstamp

theorem persistOperatorReceipt_seen {session deviceId : String} {notice b : Bool}
    (h : db.persistOperatorReceipt now id session deviceId notice = .ok (b, db')) :
    db'.seen = db.seen := by
  unfold persistOperatorReceipt at h
  obtain ⟨-, -, h⟩ := bind_eq_ok.mp h
  obtain ⟨r, -, h⟩ := bind_eq_ok.mp h
  split at h
  · obtain ⟨db₁, hstamp, ⟨⟩⟩ := bind_pure_eq_ok.mp h
    exact stampAt_seen hstamp
  · cases pure_eq_ok.mp h
    rfl

theorem cancelUnreadForShutdown_seen {recipient detail : String} {session : Option String}
    {ids : List Nat} (h : db.cancelUnreadForShutdown now recipient session detail = .ok (ids, db')) :
    db'.seen = db.seen := by
  unfold cancelUnreadForShutdown at h
  obtain ⟨-, -, h⟩ := bind_eq_ok.mp h
  obtain ⟨db₁, hfold, ⟨⟩⟩ := bind_pure_eq_ok.mp h
  refine foldlM_seen (fun db id db' hx => ?_) hfold
  obtain ⟨-, -, ⟨⟩⟩ := bind_pure_eq_ok.mp hx
  rfl

theorem routeQaRejection_seen {w : Surroundings} {r : PromptRow}
    (h : routeQaRejection now w db r = .ok db') : db'.seen = db.seen := by
  unfold routeQaRejection at h
  split at h
  · split at h
    · cases h
      rfl
    · cases h
      rfl
  · exact stampAt_seen h
  · cases h
    rfl

theorem expireStalePending_seen {w : Surroundings} {secs : Int}
    (h : db.expireStalePending now w secs notices = .ok db') : db'.seen = db.seen := by
  obtain ⟨db₁, existed, unresolved, hsettle, rfl⟩ := expireStalePending_cases h
  exact (notifyAll_seen _ notices).trans ((settleAgedRows_seen hsettle).trans (update_seen ..))

theorem abandonIneligible_seen {w : Surroundings} {targets : List String} {session : String}
    {secs : Int} (h : db.abandonIneligibleSessionTargets now w targets session secs notices = .ok db') :
    db'.seen = db.seen := by
  rcases abandonIneligible_cases h with rfl | ⟨db₁, existed, unresolved, hsettle, rfl⟩
  · rfl
  · exact (notifyAll_seen _ notices).trans (settleAgedRows_seen hsettle)

end SameSeen

/-! ## 証拠の保存 -/

/-- 同じ経路の証拠か、poll の証拠を引き継いだ hook の証拠である。 -/
def SeenRow.upgradesTo (x x' : SeenRow) : Prop :=
  x'.source = x.source ∨ (x.source = some .inboxPoll ∧ x'.source = some .hookSurfaced)

theorem SeenRow.upgradesTo.surfaced {x x' : SeenRow} (h : x.upgradesTo x') (hx : x.surfaced = true) :
    x'.surfaced = true := by
  unfold SeenRow.surfaced at hx ⊢
  rcases h with h | ⟨-, h⟩
  · rw [h]
    exact hx
  · rw [h]
    rfl

/-- 前後に伝言があれば、本文の見えた証拠は残る。消えた番号は戻らない。 -/
structure Keeps (db db' : PromptDb) : Prop where
  moves : Moves (fun _ _ => True) (fun _ => True) db db'
  receipt : ∀ id recipient x, (db.find? id).isSome → (db'.find? id).isSome →
    db.receipt? id recipient = some x → x.surfaced = true →
    ∃ x', db'.receipt? id recipient = some x' ∧ x.upgradesTo x'

section Keeps

variable {db db' db'' : PromptDb}

/-- どの移りも許す関係。 -/
theorem true_opLaw : OpLaw (fun _ _ => True) (fun _ => True) where
  refl := fun _ => trivial
  trans := fun _ _ => trivial
  new := fun _ _ => trivial
  newStep := fun _ _ => trivial
  text := fun _ _ _ => trivial
  same := fun _ => trivial
  stamp := fun _ _ _ _ _ => trivial
  ack := fun _ _ _ _ _ _ => trivial
  edit := fun _ _ => trivial
  processed := fun _ _ => trivial
  retarget := fun _ _ _ _ _ => trivial

theorem Keeps.of_seen_eq (hm : Moves (fun _ _ => True) (fun _ => True) db db')
    (hs : db'.seen = db.seen) : Keeps db db' where
  moves := hm
  receipt := by
    intro id recipient x _ _ hx _
    refine ⟨x, ?_, Or.inl rfl⟩
    rw [PromptDb.receipt?, hs]
    exact hx

theorem Keeps.refl : Keeps db db := .of_seen_eq (.refl fun _ => trivial) rfl

theorem Keeps.trans (h : Keeps db db') (h' : Keeps db' db'') : Keeps db db'' where
  moves := h.moves.trans true_opLaw.toRowRel h'.moves
  receipt := by
    intro id recipient x hold hnew hx hsurf
    -- 途中の表にも伝言がある。消えた番号は戻らない
    have hmid : (db'.find? id).isSome := by
      obtain ⟨r'', hr''⟩ := Option.isSome_iff_exists.mp hnew
      rcases h'.moves.row id r'' hr'' with ⟨r', hr', -⟩ | ⟨hid, -⟩
      · rw [hr']
        rfl
      · obtain ⟨r, hr⟩ := Option.isSome_iff_exists.mp hold
        exact absurd (Nat.lt_of_lt_of_le (lt_nextId hr) h.moves.nextId) (Nat.not_lt.mpr hid)
    obtain ⟨x', hx', hup⟩ := h.receipt id recipient x hold hmid hx hsurf
    obtain ⟨x'', hx'', hup'⟩ := h'.receipt id recipient x' hmid hnew hx' (hup.surfaced hsurf)
    refine ⟨x'', hx'', ?_⟩
    rcases hup with he | ⟨hp, hh⟩
    · rcases hup' with he' | ⟨hp', hh'⟩
      · exact Or.inl (he'.trans he)
      · exact Or.inr ⟨he ▸ hp', hh'⟩
    · rcases hup' with he' | ⟨hp', -⟩
      · exact Or.inr ⟨hp, he'.trans hh⟩
      · rw [hh] at hp'
        cases hp'

theorem Keeps.foldl {γ : Type} {I : PromptDb → Prop} {g : PromptDb → γ → PromptDb} :
    ∀ {l : List γ} {db : PromptDb}, I db → (∀ x ∈ l, ∀ db, I db → Keeps db (g db x) ∧ I (g db x)) →
      Keeps db (l.foldl g db)
  | [], db, _, _ => .refl
  | x :: l, db, hi, hg => by
    obtain ⟨hk, hi'⟩ := hg x List.mem_cons_self db hi
    exact hk.trans (Keeps.foldl hi' fun y hy => hg y (List.mem_cons_of_mem _ hy))

/-- 経路を変えない書き換え。 -/
theorem keeps_updateSeen {p : SeenRow → Bool} {f : SeenRow → SeenRow}
    {hf : ∀ r, (f r).key = r.key} (h : ∀ x, (f x).source = x.source) :
    Keeps db (db.updateSeen p f hf) where
  moves := .of_prompts_eq (fun _ => trivial) rfl rfl
  receipt := by
    intro id recipient x _ _ hx _
    rw [PromptDb.receipt?] at hx
    refine ⟨if p x then f x else x, ?_, Or.inl ?_⟩
    · show (db.seen.update p f hf).find? (id, recipient) = _
      rw [Table.find?_update, hx]
      rfl
    · split
      · exact h x
      · rfl

/-- 証拠でない行の取り除き。 -/
theorem keeps_deleteSeen {p : SeenRow → Bool} (h : ∀ x ∈ db.seen.rows, p x → x.surfaced = false) :
    Keeps db (db.deleteSeen p) where
  moves := .of_prompts_eq (fun _ => trivial) rfl rfl
  receipt := by
    intro id recipient x _ _ hx hsurf
    rw [PromptDb.receipt?] at hx
    refine ⟨x, ?_, Or.inl rfl⟩
    show (db.seen.delete p).find? (id, recipient) = _
    rw [Table.find?_delete, hx, Option.filter_some, if_pos]
    rw [Bool.not_eq_true']
    by_contra hp
    have hnot := h x (Table.mem_of_find? hx) (Bool.eq_true_of_not_eq_false hp)
    rw [hsurf] at hnot
    cases hnot

/-- 予約は証拠でない。 -/
theorem openClaim_not_surfaced {x : SeenRow} (h : openClaim x = true) : x.surfaced = false := by
  unfold openClaim at h
  rw [Bool.and_eq_true] at h
  unfold SeenRow.surfaced
  rw [of_decide_eq_true h.1]
  rfl

/-- 上書きは、証拠でない行か、hook が引き継ぐ poll の証拠に限る。 -/
theorem keeps_upsertSeen {r : SeenRow} {p : SeenRow → Bool}
    (h : ∀ x, p x = true → x.surfaced = true → x.source = some .inboxPoll ∧ r.source = some .hookSurfaced) :
    Keeps db (db.upsertSeen r p) where
  moves := .of_prompts_eq (fun _ => trivial) rfl rfl
  receipt := by
    intro id recipient x _ _ hx hsurf
    rw [PromptDb.receipt?] at hx ⊢
    rw [receipt?_upsertSeen, hx]
    split
    · rw [Option.elim_some]
      refine ⟨_, rfl, ?_⟩
      split
      · next hp =>
        obtain ⟨hpoll, hhook⟩ := h x hp hsurf
        exact Or.inr ⟨hpoll, hhook⟩
      · exact Or.inl rfl
    · exact ⟨x, rfl, Or.inl rfl⟩

/-! ## 操作ごと -/

theorem keeps_recordRecipientSurfaced (db : PromptDb) (now : Time) (id : Nat) (recipient : String)
    (source : SurfacingSource) : Keeps db (db.recordRecipientSurfaced now id recipient source) := by
  unfold recordRecipientSurfaced
  split
  · refine keeps_upsertSeen fun x hp hsurf => ?_
    unfold surfacedOverwrites at hp
    unfold SeenRow.surfaced at hsurf
    simp only [Bool.or_eq_true, Bool.and_eq_true, decide_eq_true_eq] at hp
    rcases hp with ⟨hx, -⟩ | ⟨hx, -⟩
    · rw [hx] at hsurf
      cases hsurf
    · rw [hx] at hsurf
      cases hsurf
  · exact .refl

theorem keeps_recordTranscriptConsumed (db : PromptDb) (now : Time) (expected : PromptRow) :
    Keeps db (db.recordTranscriptConsumed now expected) := by
  unfold recordTranscriptConsumed
  split
  · refine keeps_upsertSeen fun x hp hsurf => ?_
    unfold SeenRow.surfaced at hsurf
    simp only [Bool.or_eq_true, decide_eq_true_eq] at hp
    rcases hp with hx | hx
    · rw [hx] at hsurf
      cases hsurf
    · rw [hx] at hsurf
      cases hsurf
  · exact .refl

theorem keeps_claimRecipientTransport {id : Nat} {recipient : String} {token : Time}
    {t : Option Time} (h : db.claimRecipientTransport id recipient token = .ok (t, db')) :
    Keeps db db' := by
  have hm := moves_claimRecipientTransport true_opLaw h
  unfold claimRecipientTransport at h
  dsimp only at h
  obtain ⟨-, -, h⟩ := bind_eq_ok.mp h
  split at h
  · cases pure_eq_ok.mp h
    refine Keeps.trans (keeps_upsertSeen fun x hp hsurf => ?_)
      (.of_seen_eq (moves_updateId (fun _ => trivial) fun _ _ _ => trivial) rfl)
    unfold SeenRow.surfaced at hsurf
    rw [of_decide_eq_true hp] at hsurf
    cases hsurf
  · cases pure_eq_ok.mp h
    exact .refl

theorem keeps_parkForBusyRecipient {now : Time} {id : Nat} {detail : Option String}
    {recheckAt : Time} (h : db.parkForBusyRecipient now id detail recheckAt = .ok db') :
    Keeps db db' := by
  unfold parkForBusyRecipient at h
  split at h
  · cases h
    exact .refl
  · obtain ⟨db₁, hstamp, h⟩ := bind_eq_ok.mp h
    rw [← pure_eq_ok.mp h]
    have hstamped : Keeps db db₁ :=
      .of_seen_eq (moves_stamp true_opLaw.toRowRel (fun _ _ _ => trivial) hstamp) (stampAt_seen hstamp)
    refine (hstamped.trans (.of_seen_eq (moves_updateId (fun _ => trivial) fun _ _ _ => trivial)
      rfl)).trans (keeps_deleteSeen fun x _ hp => ?_)
    simp only [Bool.and_eq_true] at hp
    exact openClaim_not_surfaced hp.1.2

/-! 伝言と一緒に消えた受領は、残った伝言の受領ではない。 -/

theorem keeps_pruneTerminalBatch (db : PromptDb) (cutoff : Time) (releasable : PromptRow → Bool)
    (picked : List Nat) : Keeps db (db.pruneTerminalBatch cutoff releasable picked) where
  moves := moves_pruneTerminalBatch (fun _ => trivial) db cutoff releasable picked
  receipt := by
    intro id recipient x _ hnew hx _
    rw [PromptDb.receipt?] at hx ⊢
    refine ⟨x, ?_, Or.inl rfl⟩
    obtain ⟨r, hr⟩ := Option.isSome_iff_exists.mp hnew
    unfold pruneTerminalBatch at hr ⊢
    dsimp only at hr ⊢
    rw [find?_deletePrompts, Option.filter_eq_some_iff] at hr
    have hid : r.id = id := Table.key_of_find? hr.1
    have hx' : x.promptId = id := congrArg Prod.fst (Table.key_of_find? hx)
    rw [Table.find?_delete, deletePrompts_seen, hx, Option.filter_some, if_pos]
    rw [hx', ← hid]
    exact hr.2

theorem keeps_clear (db : PromptDb) : Keeps db db.clear where
  moves := moves_clear (fun _ => trivial) db
  receipt := by
    intro id recipient x _ hnew _ _
    obtain ⟨r, hr⟩ := Option.isSome_iff_exists.mp hnew
    have hgone : (db.deletePrompts fun _ => true).find? id = some r := hr
    rw [find?_deletePrompts, Option.filter_eq_some_iff] at hgone
    cases hgone.2

theorem keeps_cleanupOld (db : PromptDb) (cutoff : Time) (retained : PromptRow → Bool) :
    Keeps db (db.cleanupOld cutoff retained) where
  moves := moves_cleanupOld (fun _ => trivial) db cutoff retained
  receipt := by
    intro id recipient x _ hnew hx _
    rw [PromptDb.receipt?] at hx ⊢
    refine ⟨x, ?_, Or.inl rfl⟩
    have hx' : x.promptId = id := congrArg Prod.fst (Table.key_of_find? hx)
    unfold cleanupOld at hnew ⊢
    dsimp only [deleteSeen] at hnew ⊢
    rw [Table.find?_delete, deletePrompts_seen, hx, Option.filter_some, if_pos]
    rw [hx', Bool.not_eq_true', Option.isNone_eq_false_iff]
    exact hnew

/-- 後任への宛て直しが消すのは、渡り終えていない予約だけである。 -/
theorem keeps_retargetOperatorRows (db : PromptDb) (w : Surroundings) (predecessor : String)
    (session : Option String) (successor : String) (successorSession : Option String) :
    Keeps db (db.retargetOperatorRows w predecessor session successor successorSession) := by
  unfold retargetOperatorRows
  split
  · exact .refl
  · refine Keeps.foldl (I := fun db₁ => ∀ x ∈ db₁.seen.rows, x ∈ db.seen.rows) (fun x hx => hx) ?_
    intro id hid db₁ hsub
    obtain ⟨r, hr, rfl⟩ := List.mem_map.mp hid
    obtain ⟨-, hsel⟩ := List.mem_filter.mp hr
    refine ⟨Keeps.trans (keeps_deleteSeen fun x hx hp => ?_)
      (.of_seen_eq (moves_updateId (fun _ => trivial) fun _ _ _ => trivial) rfl), ?_⟩
    · unfold retargetable at hsel
      simp only [Bool.and_eq_true, Bool.not_eq_true', decide_eq_true_eq] at hsel hp
      have hclaims := hsel.1.1.2
      rw [List.any_eq_false] at hclaims
      have hclaim := hclaims x (hsub x hx)
      simp only [hp.1, hp.2, decide_true, Bool.true_and, Bool.not_eq_true', Bool.not_eq_false] at hclaim
      unfold unfinishedClaim at hclaim
      rw [Bool.and_eq_true] at hclaim
      exact openClaim_not_surfaced hclaim.1
    · intro x hx
      have hx' : x ∈ (db₁.seen.delete fun x => x.promptId = r.id
        && (predecessorNames predecessor).contains x.recipient).rows := hx
      exact hsub x (Table.mem_delete.mp hx').1

/-- 押印を通らない操作も、確認の操作も、消えた番号を戻さない。 -/
theorem moves_true {o : PromptOp} {out : PromptOutcome} (h : o.body db = .ok (out, db')) :
    Moves (fun _ _ => True) (fun _ => True) db db' :=
  moves_sweep true_opLaw ⟨fun _ _ _ _ => trivial, fun _ _ _ => trivial, fun _ _ _ => trivial,
    fun _ _ _ _ => trivial, fun _ _ _ _ _ => trivial, fun _ _ _ => trivial,
    fun _ _ _ _ _ => trivial, fun _ _ _ _ _ => trivial, fun _ _ => trivial⟩ h

/-- どの操作も、本文の見えた証拠を残す。 -/
theorem keeps_op {o : PromptOp} {out : PromptOutcome} (h : o.body db = .ok (out, db')) :
    Keeps db db' := by
  have hm := moves_true h
  cases o with
  | enqueue p =>
    cases h
    exact .of_seen_eq hm (enqueue_seen db p)
  | enqueueWorkerAction now p session agentId folded =>
    obtain ⟨n, h⟩ := quiet_eq_ok h
    exact .of_seen_eq hm (enqueueWorkerAction_seen h)
  | enqueueWorkerStallNudge now target prompt session taskId dedupeKey =>
    obtain ⟨n, h⟩ := quiet_eq_ok h
    exact .of_seen_eq hm (enqueueWorkerStallNudge_seen h)
  | operatorTurn p ackId =>
    obtain ⟨n, h⟩ := quiet_eq_ok h
    exact .of_seen_eq hm (operatorTurn_seen h)
  | notify notices =>
    cases h
    exact .of_seen_eq hm (notifyAll_seen db notices)
  | stamp now op notices => exact .of_seen_eq hm (stampAt_seen (onlyDb_eq_ok h))
  | recordPendingReason now notices id reason detail =>
    exact .of_seen_eq hm (recordPendingReason_seen (onlyDb_eq_ok h))
  | recordRetry now notices id reason detail =>
    obtain ⟨d, h⟩ := quiet_eq_ok h
    exact .of_seen_eq hm (recordRetry_seen h)
  | parkForBusyRecipient now id detail recheckAt => exact keeps_parkForBusyRecipient (onlyDb_eq_ok h)
  | selectForTargets now targets session picked =>
    obtain ⟨ids, h⟩ := quiet_eq_ok h
    exact .of_seen_eq hm (selectForTargets_seen h)
  | stampBroadcastPolicy now id supersedeKey sticky =>
    obtain ⟨ids, h⟩ := quiet_eq_ok h
    exact .of_seen_eq hm (stampBroadcastPolicy_seen h)
  | persistOperatorReceipt now id session deviceId notice =>
    obtain ⟨b, h⟩ := quiet_eq_ok h
    exact .of_seen_eq hm (persistOperatorReceipt_seen h)
  | cancelUnreadForShutdown now recipient session detail =>
    obtain ⟨ids, h⟩ := quiet_eq_ok h
    exact .of_seen_eq hm (cancelUnreadForShutdown_seen h)
  | refreshQaRejectionTargets now w session promptId =>
    exact .of_seen_eq hm (foldlM_seen (fun _ _ _ hx => routeQaRejection_seen hx) (onlyDb_eq_ok h))
  | abandonPendingOlderThan now secs notices =>
    cases h
    exact .of_seen_eq hm (notifyAll_seen _ notices)
  | expireStalePending now w secs notices =>
    exact .of_seen_eq hm (expireStalePending_seen (onlyDb_eq_ok h))
  | abandonIneligibleSessionTargets now w targets session secs notices =>
    exact .of_seen_eq hm (abandonIneligible_seen (onlyDb_eq_ok h))
  | settleRecipientMessage now id recipients reply =>
    exact .of_seen_eq hm (settleRecipientMessage_seen (onlyDb_eq_ok h))
  | reconcileRelays now w taskClosed sessionEnded =>
    cases h
    exact .of_seen_eq hm (reconcileRelays_seen db now w taskClosed sessionEnded)
  | pruneTerminalBatch cutoff releasable picked =>
    cases h
    exact keeps_pruneTerminalBatch db cutoff releasable picked
  | clear =>
    cases h
    exact keeps_clear db
  | cleanupOld cutoff retained =>
    cases h
    exact keeps_cleanupOld db cutoff retained
  | claimRecipientTransport id recipient token =>
    obtain ⟨t, h, -⟩ := mapResult_eq_ok.mp h
    exact keeps_claimRecipientTransport h
  | releaseRecipientTransport id recipient =>
    cases h
    refine keeps_deleteSeen fun x _ hp => ?_
    rw [Bool.and_eq_true] at hp
    exact openClaim_not_surfaced hp.2
  | releaseRecipientTransportClaim id recipient token =>
    cases h
    refine keeps_deleteSeen fun x _ hp => ?_
    simp only [Bool.and_eq_true] at hp
    exact openClaim_not_surfaced hp.1.2
  | releaseOrphanedTransportClaims session =>
    cases h
    refine keeps_deleteSeen fun x _ hp => ?_
    simp only [Bool.and_eq_true] at hp
    exact openClaim_not_surfaced hp.1.1
  | recordRecipientSurfaced now id recipient source =>
    cases h
    exact keeps_recordRecipientSurfaced db now id recipient source
  | recordTranscriptConsumed now expected =>
    cases h
    exact keeps_recordTranscriptConsumed db now expected
  | claimTeamsBodyFallback now id recipient =>
    cases h
    exact keeps_updateSeen fun _ => rfl
  | releaseTeamsBodyFallback id recipient =>
    cases h
    exact keeps_updateSeen fun _ => rfl
  | settlePolled id recipient reason =>
    cases h
    exact keeps_updateSeen fun _ => rfl
  | retargetOperatorRows w predecessor session successor successorSession =>
    cases h
    exact keeps_retargetOperatorRows db w predecessor session successor successorSession
  -- 列を一つの文で書く操作
  | _ =>
    cases h
    exact .of_seen_eq hm rfl

end Keeps

end Cassy
