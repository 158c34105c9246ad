import Cassy.Properties.PromptMoves

/-!
# 押印が行に起こすこと

押印の一回は、取り下げた伝言では何もせず、他の伝言では移りの決まった段階を書く（`StampedBy`）。押印だけで
段階を動かす操作はどれも、この一回の繰り返しと、段階にも確認にも触れない列の書き換え（`SameLifecycle`）から
なる。そこで、`StampedBy` と `SameLifecycle` を含む関係 `R` については、操作の全体も `R` である。
-/

namespace Cassy

open Infra PromptDb

/-- 段階、確認、処理の印、重複を退ける鍵が同じ行。 -/
structure SameLifecycle (r r' : PromptRow) : Prop where
  id : r'.id = r.id
  highestStage : r'.highestStage = r.highestStage
  ackedAt : r'.ackedAt = r.ackedAt
  ackedVia : r'.ackedVia = r.ackedVia
  processedAt : r'.processedAt = r.processedAt
  transportDeliveredAt : r'.transportDeliveredAt = r.transportDeliveredAt
  assumedSeenAt : r'.assumedSeenAt = r.assumedSeenAt
  lastPendingReason : r'.lastPendingReason = r.lastPendingReason
  dedupeKey : r'.dedupeKey = r.dedupeKey

theorem SameLifecycle.refl (r : PromptRow) : SameLifecycle r r :=
  ⟨rfl, rfl, rfl, rfl, rfl, rfl, rfl, rfl, rfl⟩

theorem SameLifecycle.trans {a b c : PromptRow} (h : SameLifecycle a b) (h' : SameLifecycle b c) :
    SameLifecycle a c where
  id := h'.id.trans h.id
  highestStage := h'.highestStage.trans h.highestStage
  ackedAt := h'.ackedAt.trans h.ackedAt
  ackedVia := h'.ackedVia.trans h.ackedVia
  processedAt := h'.processedAt.trans h.processedAt
  transportDeliveredAt := h'.transportDeliveredAt.trans h.transportDeliveredAt
  assumedSeenAt := h'.assumedSeenAt.trans h.assumedSeenAt
  lastPendingReason := h'.lastPendingReason.trans h.lastPendingReason
  dedupeKey := h'.dedupeKey.trans h.dedupeKey

theorem SameLifecycle.stage? {r r' : PromptRow} (h : SameLifecycle r r') : r'.stage? = r.stage? := by
  unfold PromptRow.stage?
  rw [h.highestStage]

theorem sameLifecycle_rel : RowRel SameLifecycle (fun _ => True) where
  refl := .refl
  trans := .trans
  new := fun _ _ => trivial
  newStep := fun _ _ => trivial
  text := fun _ _ _ => ⟨rfl, rfl, rfl, rfl, rfl, rfl, rfl, rfl, rfl⟩

/-- 合成でき、段階に触れない書き換えを含む関係。 -/
structure RowLaw (R : PromptRow → PromptRow → Prop) (New : PromptRow → Prop) : Prop extends
    RowRel R New where
  same : ∀ {r r'}, SameLifecycle r r' → R r r'

/-- 押印の一回が行に起こすこと。 -/
inductive StampedBy (proposed : DeliveryStage) (r : PromptRow) : PromptRow → Prop where
  /-- 取り下げた伝言への、確認でない押印。 -/
  | skipped (hs : r.stage? = some .suppressed) (hp : proposed ≠ .confirmed)
      (hr : r.lastPendingReason = some .shutdownCancelled) : StampedBy proposed r r
  | stamped {now : Time} {current next : DeliveryStage} {opts : AtomicStampOpts} {id : Nat}
      (hs : r.stage? = some current) (hn : resolveStageTransition current proposed id = .ok next)
      (hlive : ¬ (current = .suppressed ∧ proposed ≠ .confirmed
        ∧ r.lastPendingReason = some .shutdownCancelled)) :
      StampedBy proposed r (stampRow now current next opts r)

/-- その段階の押印が `R` である。 -/
def StampLaw (R : PromptRow → PromptRow → Prop) (proposed : DeliveryStage) : Prop :=
  ∀ r r', StampedBy proposed r r' → R r r'

/-! ## 知らせ -/

section Notices

variable {R : PromptRow → PromptRow → Prop} {New : PromptRow → Prop} {db : PromptDb}

theorem moves_insertOrIgnore (hR : RowRel R New) (p : NewPrompt) :
    Moves R New db (db.insertOrIgnore p) := by
  rcases insertOrIgnore_cases db p with h | h
  · rw [h]
    exact moves_skipId hR.refl
  · rw [h]
    exact moves_insert hR.refl p (hR.new p _)

theorem moves_notifyAll (hR : RowRel R New) (notices : List AbandonNotice) :
    Moves R New db (db.notifyAll notices) := by
  refine moves_foldl hR (fun db n _ => ?_) db
  cases n with
  | insert p => exact moves_insertOrIgnore hR p
  | fold id prompt => exact moves_updateId hR.refl fun r _ _ => hR.text r prompt _

end Notices

/-! ## 押印の一回 -/

/-- 読める行の段階は読める。 -/
theorem readHighestStage_eq_ok {db : PromptDb} {id : Nat} {current : DeliveryStage} {r : PromptRow}
    (hr : db.find? id = some r) : db.readHighestStage id = .ok current ↔ r.stage? = some current := by
  unfold readHighestStage PromptRow.stage?
  rw [hr, Option.bind_some]
  cases r.highestStage with
  | none => simp
  | some t => cases t <;> simp

theorem shutdownCancelled_iff {db : PromptDb} {id : Nat} {r : PromptRow} (hr : db.find? id = some r) :
    db.shutdownCancelled id = true ↔ r.lastPendingReason = some .shutdownCancelled := by
  unfold shutdownCancelled
  rw [hr]
  simp

/-- 知らせの前までの押印。 -/
def stampWrites (db : PromptDb) (now : Time) (id : Nat) (current next : DeliveryStage)
    (opts : AtomicStampOpts) : PromptDb :=
  if next = .delivered then
    (db.updateId id (fun _ => true) (stampRow now current next opts)).stampRecipientTransport now id
  else db.updateId id (fun _ => true) (stampRow now current next opts)

theorem stampRecipientTransport_prompts (db : PromptDb) (now : Time) (id : Nat) :
    (db.stampRecipientTransport now id).prompts = db.prompts
      ∧ (db.stampRecipientTransport now id).nextId = db.nextId
      ∧ (db.stampRecipientTransport now id).seen = db.seen
      ∧ (db.stampRecipientTransport now id).acks = db.acks := by
  unfold stampRecipientTransport
  split
  · exact ⟨rfl, rfl, rfl, rfl⟩
  · split
    · exact ⟨rfl, rfl, rfl, rfl⟩
    · exact ⟨rfl, rfl, rfl, rfl⟩

theorem find?_stampWrites (db : PromptDb) (now : Time) (id j : Nat) (current next : DeliveryStage)
    (opts : AtomicStampOpts) :
    (stampWrites db now id current next opts).find? j
      = (db.updateId id (fun _ => true) (stampRow now current next opts)).find? j := by
  unfold stampWrites
  split
  · unfold PromptDb.find?
    rw [(stampRecipientTransport_prompts _ now id).1]
  · rfl

theorem stampWrites_nextId (db : PromptDb) (now : Time) (id : Nat) (current next : DeliveryStage)
    (opts : AtomicStampOpts) : (stampWrites db now id current next opts).nextId = db.nextId := by
  unfold stampWrites
  split
  · rw [(stampRecipientTransport_prompts _ now id).2.1]
    rfl
  · rfl

/-- 押印は、読み捨てられるか、移りを決めて書く。 -/
theorem stamp_cases {db db' : PromptDb} {now : Time} {notices : List AbandonNotice} {id : Nat}
    {proposed : DeliveryStage} {opts : AtomicStampOpts}
    (h : db.atomicStageStampInTx now notices id proposed opts = .ok db') :
    (db.readHighestStage id = .ok .suppressed ∧ proposed ≠ .confirmed
        ∧ db.shutdownCancelled id = true ∧ db' = db)
      ∨ ∃ current next, db.readHighestStage id = .ok current
        ∧ resolveStageTransition current proposed id = .ok next
        ∧ ¬ (current = .suppressed ∧ proposed ≠ .confirmed ∧ db.shutdownCancelled id = true)
        ∧ db' = (stampWrites db now id current next opts).notifyAll
          (if next = .abandoned then notices else []) := by
  unfold atomicStageStampInTx at h
  obtain ⟨current, hcur, h⟩ := bind_eq_ok.mp h
  split at h
  · next hskip =>
    obtain ⟨rfl, hp, hs⟩ := hskip
    exact Or.inl ⟨hcur, hp, hs, (pure_eq_ok.mp h).symm⟩
  · next hlive =>
    obtain ⟨next, hnext, h⟩ := bind_eq_ok.mp h
    refine Or.inr ⟨current, next, hcur, hnext, hlive, ?_⟩
    rw [← pure_eq_ok.mp h]
    unfold stampWrites
    split
    · rfl
    · rfl

section Stamp

variable {R : PromptRow → PromptRow → Prop} {New : PromptRow → Prop} {db db' : PromptDb} {now : Time}
  {notices : List AbandonNotice} {id : Nat} {proposed : DeliveryStage} {opts : AtomicStampOpts}

/-- 知らせの前までの押印は、その行だけを書く。 -/
theorem touches_stampWrites {current next : DeliveryStage} (hcur : db.readHighestStage id = .ok current)
    (hnext : resolveStageTransition current proposed id = .ok next)
    (hlive : ¬ (current = .suppressed ∧ proposed ≠ .confirmed ∧ db.shutdownCancelled id = true)) :
    Touches id (StampedBy proposed) db (stampWrites db now id current next opts) := by
  have ht : Touches id (StampedBy proposed) db
      (db.updateId id (fun _ => true) (stampRow now current next opts)) := by
    refine touches_updateId fun r hr => ?_
    rw [if_pos rfl]
    refine .stamped ((readHighestStage_eq_ok hr).mp hcur) hnext fun hc => hlive ?_
    exact ⟨hc.1, hc.2.1, (shutdownCancelled_iff hr).mpr hc.2.2⟩
  refine ⟨(stampWrites_nextId db now id current next opts), ?_, ?_⟩
  · intro j hj
    rw [find?_stampWrites]
    exact ht.others j hj
  · intro r' hr'
    rw [find?_stampWrites] at hr'
    exact ht.row r' hr'

/-- 知らせの無い押印は、その行だけを書く。 -/
theorem touches_stamp (h : db.atomicStageStampInTx now [] id proposed opts = .ok db') :
    Touches id (StampedBy proposed) db db' := by
  rcases stamp_cases h with ⟨hcur, hp, hs, rfl⟩ | ⟨current, next, hcur, hnext, hlive, rfl⟩
  · exact .of_eq fun r hr => .skipped ((readHighestStage_eq_ok hr).mp hcur) hp
      ((shutdownCancelled_iff hr).mp hs)
  · have hnil : (if next = .abandoned then ([] : List AbandonNotice) else []) = [] := by split <;> rfl
    rw [hnil]
    exact touches_stampWrites hcur hnext hlive

/-- 押印の後の行は、押印された行の文面を変えたものである。無い行は、打ち切りの押印でなければ現れない。 -/
theorem stamp_row {r' : PromptRow} (h : db.atomicStageStampInTx now notices id proposed opts = .ok db')
    (hr' : db'.find? id = some r') (hmiss : db.find? id = none → proposed ≠ .abandoned) :
    ∃ r r₁, db.find? id = some r ∧ StampedBy proposed r r₁ ∧ SameLifecycle r₁ r' := by
  rcases stamp_cases h with ⟨hcur, hp, hs, rfl⟩ | ⟨current, next, hcur, hnext, hlive, rfl⟩
  · exact ⟨r', r', hr', .skipped ((readHighestStage_eq_ok hr').mp hcur) hp
      ((shutdownCancelled_iff hr').mp hs), .refl r'⟩
  · have ht : Touches id (StampedBy proposed) db (stampWrites db now id current next opts) :=
      touches_stampWrites hcur hnext hlive
    rcases (moves_notifyAll sameLifecycle_rel _).row id r' hr' with ⟨r₁, hr₁, hsame⟩ | ⟨hid, -⟩
    · obtain ⟨r, hr, hstamp⟩ := ht.row r₁ hr₁
      exact ⟨r, r₁, hr, hstamp, hsame⟩
    · -- 新しく足された行だとすると、元の行は無く、知らせも無い
      rw [ht.nextId] at hid
      have hnone : db.find? id = none := by
        cases hr : db.find? id with
        | none => rfl
        | some r => exact absurd (lt_nextId hr) (Nat.not_lt.mpr hid)
      have hne : next ≠ .abandoned := by
        rintro rfl
        have henq : current = .enqueued := by
          unfold readHighestStage at hcur
          rw [hnone] at hcur
          exact (Except.ok.inj hcur).symm
        subst henq
        rcases resolveStageTransition_cases hnext with hc | ⟨hc, -⟩
        · cases hc
        · exact hmiss hnone hc.symm
      rw [if_neg hne] at hr'
      obtain ⟨r, hr, -⟩ := ht.row r' hr'
      rw [hnone] at hr
      cases hr

theorem Touches.moves {i : Nat} {S : PromptRow → PromptRow → Prop} (h : Touches i S db db')
    (hrefl : ∀ r, R r r) (himp : ∀ r r', db.find? i = some r → S r r' → R r r') :
    Moves R New db db' where
  nextId := Nat.le_of_eq h.nextId.symm
  row := by
    intro j r' hr'
    by_cases hj : j = i
    · subst hj
      obtain ⟨r, hr, hS⟩ := h.row r' hr'
      exact Or.inl ⟨r, hr, himp r r' hr hS⟩
    · rw [h.others j hj] at hr'
      exact Or.inl ⟨r', hr', hrefl r'⟩

/-- その行への押印が `R` なら、押印の全体も `R` である。 -/
theorem moves_stampAt (hR : RowRel R New)
    (hS : ∀ r r', db.find? id = some r → StampedBy proposed r r' → R r r')
    (h : db.atomicStageStampInTx now notices id proposed opts = .ok db') : Moves R New db db' := by
  rcases stamp_cases h with ⟨-, -, -, rfl⟩ | ⟨current, next, hcur, hnext, hlive, rfl⟩
  · exact .refl hR.refl
  · exact ((touches_stampWrites hcur hnext hlive).moves hR.refl hS).trans hR (moves_notifyAll hR _)

theorem moves_stamp (hR : RowRel R New) (hS : StampLaw R proposed)
    (h : db.atomicStageStampInTx now notices id proposed opts = .ok db') : Moves R New db db' :=
  moves_stampAt hR (fun r r' _ => hS r r') h

theorem moves_stampEach (hR : RowRel R New) (hS : StampLaw R proposed) {ids : List Nat}
    (h : db.stampEach now ids proposed opts = .ok db') : Moves R New db db' :=
  moves_foldlM hR (fun _ _ _ hx => moves_stamp hR hS hx) h

theorem moves_stampIgnoringError (hR : RowRel R New)
    (hS : ∀ r r', db.find? id = some r → StampedBy proposed r r' → R r r') :
    Moves R New db (db.stampIgnoringError now id proposed opts) := by
  unfold stampIgnoringError
  split
  · next h => exact moves_stampAt hR hS h
  · exact .refl hR.refl

end Stamp

/-! ## 押印だけで段階を動かす操作 -/

section Ops

variable {R : PromptRow → PromptRow → Prop} {New : PromptRow → Prop} {db db' : PromptDb} {now : Time}
  {notices : List AbandonNotice} {id : Nat}

section Law

variable (hR : RowLaw R New)
include hR

theorem RowLaw.moves_same {p : PromptRow → Bool} {f : PromptRow → PromptRow}
    {hf : ∀ r, (f r).id = r.id} (h : ∀ r, SameLifecycle r (f r)) :
    Moves R New db (db.updateId id p f hf) :=
  moves_updateId hR.refl fun r _ _ => hR.same (h r)

theorem moves_recordAttempts {attempts : Nat} {first : Time} {next : Option Time} :
    Moves R New db (db.recordAttempts id attempts first next) :=
  hR.moves_same fun _ => ⟨rfl, rfl, rfl, rfl, rfl, rfl, rfl, rfl, rfl⟩

variable (hS : ∀ p, p.rank ≤ 3 → StampLaw R p)
include hS

theorem moves_recordPendingReason {reason : PendingReason} {detail : Option String}
    (h : db.recordPendingReason now notices id reason detail = .ok db') : Moves R New db db' := by
  unfold recordPendingReason at h
  obtain ⟨db₁, hstamp, h⟩ := bind_eq_ok.mp h
  have hm := moves_stamp hR.toRowRel (hS _ reason.impliedStage_rank_le) hstamp
  rw [← pure_eq_ok.mp h]
  split
  · exact hm.trans hR.toRowRel (hR.moves_same fun _ => ⟨rfl, rfl, rfl, rfl, rfl, rfl, rfl, rfl, rfl⟩)
  · exact hm

theorem moves_recordRetry {reason : PendingReason} {detail : Option String}
    {d : PromptRetryDisposition} (h : db.recordRetry now notices id reason detail = .ok (d, db')) :
    Moves R New db db' := by
  unfold recordRetry at h
  split at h
  · cases h
    exact .refl hR.refl
  · dsimp only at h
    split at h
    · obtain ⟨db₁, hstamp, ⟨⟩⟩ := bind_pure_eq_ok.mp h
      exact (moves_stamp hR.toRowRel (hS .abandoned (by decide)) hstamp).trans hR.toRowRel
        (moves_recordAttempts hR)
    · obtain ⟨db₁, hstamp, ⟨⟩⟩ := bind_pure_eq_ok.mp h
      exact (moves_stamp hR.toRowRel (hS _ reason.impliedStage_rank_le) hstamp).trans hR.toRowRel
        (moves_recordAttempts hR)

theorem moves_parkForBusyRecipient {detail : Option String} {recheckAt : Time}
    (h : db.parkForBusyRecipient now id detail recheckAt = .ok db') : Moves R New db db' := by
  unfold parkForBusyRecipient at h
  split at h
  · cases h
    exact .refl hR.refl
  · obtain ⟨db₁, hstamp, h⟩ := bind_eq_ok.mp h
    rw [← pure_eq_ok.mp h]
    have hm := moves_stamp hR.toRowRel
      (hS _ (PendingReason.impliedStage_rank_le .awaitingBusyRecipient)) hstamp
    have hu : Moves R New db₁ (db₁.updateId id (fun _ => true) fun r =>
        { r with nextAttemptAt := some recheckAt }) :=
      hR.moves_same fun _ => ⟨rfl, rfl, rfl, rfl, rfl, rfl, rfl, rfl, rfl⟩
    exact (hm.trans hR.toRowRel hu).trans hR.toRowRel (.of_prompts_eq hR.refl rfl rfl)

theorem moves_selectForTargets {targets : List String} {session : Option String}
    {picked ids : List Nat} (h : db.selectForTargets now targets session picked = .ok (ids, db')) :
    Moves R New db db' := by
  unfold selectForTargets at h
  obtain ⟨-, -, h⟩ := bind_eq_ok.mp h
  obtain ⟨db₁, hstamp, ⟨⟩⟩ := bind_pure_eq_ok.mp h
  exact moves_stampEach hR.toRowRel (hS .selected (by decide)) hstamp

theorem moves_stampBroadcastPolicy {key : Option String} {sticky : Bool} {ids : List Nat}
    (h : db.stampBroadcastPolicy now id key sticky = .ok (ids, db')) : Moves R New db db' := by
  unfold stampBroadcastPolicy at h
  dsimp only at h
  obtain ⟨current, -, h⟩ := bind_eq_ok.mp h
  have hu : ∀ k, Moves R New db (db.updateId id (fun _ => true) fun r =>
      { r with supersedeKey := k, sticky }) := fun k =>
    hR.moves_same fun _ => ⟨rfl, rfl, rfl, rfl, rfl, rfl, rfl, rfl, rfl⟩
  split at h
  · cases pure_eq_ok.mp h
    exact hu _
  · obtain ⟨db₁, hstamp, ⟨⟩⟩ := bind_pure_eq_ok.mp h
    exact (hu _).trans hR.toRowRel (moves_stampEach hR.toRowRel (hS .suppressed (by decide)) hstamp)

end Law

variable (hR : RowRel R New)
include hR

theorem moves_enqueue (p : NewPrompt) : Moves R New db (db.enqueue p).2 := by
  rcases enqueue_cases db p with h | h | h
  · rw [h]
    exact .refl hR.refl
  · rw [h]
    exact moves_skipId hR.refl
  · rw [h]
    exact moves_insert hR.refl p (hR.new p _)

variable (hS : ∀ p, p.rank ≤ 3 → StampLaw R p)
include hS

theorem moves_enqueueWorkerAction {p : NewPrompt} {session agentId : String} {folded : List Nat}
    {n : Nat} (h : db.enqueueWorkerAction now p session agentId folded = .ok (n, db')) :
    Moves R New db db' := by
  unfold enqueueWorkerAction at h
  dsimp only at h
  obtain ⟨db₁, hstamp, ⟨⟩⟩ := bind_pure_eq_ok.mp h
  exact (moves_insert hR.refl p (hR.new p _)).trans hR
    (moves_stampEach hR (hS .suppressed (by decide)) hstamp)

theorem moves_enqueueWorkerStallNudge {target prompt session taskId key : String} {n : Nat}
    (h : db.enqueueWorkerStallNudge now target prompt session taskId key = .ok (n, db')) :
    Moves R New db db' := by
  unfold enqueueWorkerStallNudge at h
  split at h
  · cases h
    exact .refl hR.refl
  · dsimp only at h
    obtain ⟨db₁, hstamp, ⟨⟩⟩ := bind_pure_eq_ok.mp h
    exact (moves_stampEach hR (hS .suppressed (by decide)) hstamp).trans hR
      (moves_insert hR.refl _ (hR.new _ _))

theorem moves_persistOperatorReceipt {session deviceId : String} {notice b : Bool}
    (h : db.persistOperatorReceipt now id session deviceId notice = .ok (b, db')) :
    Moves R New db db' := by
  unfold persistOperatorReceipt at h
  obtain ⟨-, -, h⟩ := bind_eq_ok.mp h
  obtain ⟨r, -, h⟩ := bind_eq_ok.mp h
  split at h
  · obtain ⟨db₁, hstamp, ⟨⟩⟩ := bind_pure_eq_ok.mp h
    exact moves_stamp hR (hS .delivered (by decide)) hstamp
  · cases pure_eq_ok.mp h
    exact .refl hR.refl

end Ops

end Cassy
