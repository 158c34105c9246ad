import Cassy.Properties.PromptOps

/-!
# 掃除が行に起こすこと

押印を通らずに段階を書く操作について、書かれる行と書かれた後の行を述べる。どの掃除も、選んだ番号を一度ずつ、選んだ
ときの行のまま書く。そこで、選ばれ方の条件のもとで書き込みが `R` であれば、掃除の全体が `R` である。`R` の合成は
要らない。
-/

namespace Cassy

open Infra PromptDb

section Sweeps

variable {R : PromptRow → PromptRow → Prop} {New : PromptRow → Prop} {db db' : PromptDb}
  {now : Time} {w : Surroundings}

theorem notifyAll_seen (db : PromptDb) (notices : List AbandonNotice) :
    (db.notifyAll notices).seen = db.seen := by
  refine foldl_fixed (p := PromptDb.seen) (fun db n => ?_) notices db
  cases n with
  | insert p =>
    show (db.insertOrIgnore p).seen = db.seen
    rcases insertOrIgnore_cases db p with h | h
    · rw [h]
      rfl
    · rw [h, insert_seen]
  | fold id prompt => rfl

/-- 押印は受領の表に触れない。 -/
theorem stampAt_seen {notices : List AbandonNotice} {proposed : DeliveryStage}
    {opts : AtomicStampOpts} {id : Nat}
    (h : db.atomicStageStampInTx now notices id proposed opts = .ok db') : db'.seen = db.seen := by
  rcases stamp_cases h with ⟨-, -, -, rfl⟩ | ⟨current, next, -, -, -, rfl⟩
  · rfl
  · rw [notifyAll_seen]
    unfold stampWrites
    split
    · rw [(stampRecipientTransport_prompts _ now id).2.2.1]
      rfl
    · rfl

/-- 表から選んだ番号の行は、選んだ条件を満たす。 -/
theorem selected_row {p : PromptRow → Bool} {id : Nat} {r : PromptRow}
    (hid : id ∈ (db.rows.filter p).map PromptRow.id) (hr : db.find? id = some r) : p r = true := by
  obtain ⟨r₀, hr₀, rfl⟩ := List.mem_map.mp hid
  obtain ⟨hmem, hp⟩ := List.mem_filter.mp hr₀
  have he : db.find? r₀.id = some r₀ := Table.find?_of_mem hmem
  rw [hr] at he
  cases he
  exact hp

/-! ## 取り下げ -/

/-- 取り下げた番号と、その行。 -/
theorem cancel_sweeps {recipient : String} {session : Option String} {detail : String}
    {ids : List Nat}
    (h : db.cancelUnreadForShutdown now recipient session detail = .ok (ids, db')) :
    ids = (db.rows.filter (db.shutdownUnread recipient session)).map PromptRow.id
      ∧ SweepsEach (fun id => id) (fun _ r r' => r' = cancelRow now detail r) ids db db' := by
  unfold cancelUnreadForShutdown at h
  obtain ⟨-, -, h⟩ := bind_eq_ok.mp h
  obtain ⟨db₁, hfold, ⟨⟩⟩ := bind_pure_eq_ok.mp h
  refine ⟨rfl, foldlM_touches (I := fun _ => True) ?_ trivial ?_ hfold⟩
  · rw [List.map_id']
    exact nodup_filter_ids db _
  · intro id _ db₂ db₃ _ hstep
    obtain ⟨-, -, ⟨⟩⟩ := bind_pure_eq_ok.mp hstep
    refine ⟨touches_updateId fun r _ => ?_, trivial⟩
    rw [if_pos rfl]

theorem moves_cancel {recipient : String} {session : Option String} {detail : String}
    {ids : List Nat} (hrefl : ∀ r, R r r)
    (hc : ∀ r, db.shutdownUnread recipient session r = true → R r (cancelRow now detail r))
    (h : db.cancelUnreadForShutdown now recipient session detail = .ok (ids, db')) :
    Moves R New db db' := by
  obtain ⟨rfl, hsweep⟩ := cancel_sweeps h
  refine hsweep.moves hrefl fun id hid r r' hr hr' => ?_
  rw [hr']
  exact hc r (selected_row hid hr)

/-! ## 宛て直し -/

/-- 差し戻しの一つに起こること。 -/
inductive RoutedFrom (r₀ r : PromptRow) : PromptRow → Prop where
  | kept : RoutedFrom r₀ r r
  | readdressed {owner : String} (hne : owner ≠ r₀.target) : RoutedFrom r₀ r (readdressRow owner r)
  | withdrawn {r' : PromptRow} (h : StampedBy .suppressed r r') : RoutedFrom r₀ r r'

theorem moves_refresh {session : String} {promptId : Option Nat} (hrefl : ∀ r, R r r)
    (hq : ∀ r r', db.qaRejection w session promptId r = true → RoutedFrom r r r' → R r r')
    (h : db.refreshQaRejectionTargets now w session promptId = .ok db') : Moves R New db db' := by
  have hsweep : SweepsEach PromptRow.id (fun r₀ r r' => RoutedFrom r₀ r r')
      (db.rows.filter (db.qaRejection w session promptId)) db db' := by
    refine foldlM_touches (I := fun _ => True) (nodup_filter_ids db _) trivial ?_ h
    intro r₀ _ db₂ db₃ _ hstep
    refine ⟨?_, trivial⟩
    unfold routeQaRejection at hstep
    split at hstep
    · split at hstep
      · next hne =>
        cases hstep
        refine touches_updateId fun r _ => ?_
        rw [if_pos rfl]
        exact .readdressed hne
      · cases hstep
        exact .of_eq fun r _ => .kept
    · exact (touches_stamp hstep).imp fun _ _ _ hs => .withdrawn hs
    · cases hstep
      exact .of_eq fun r _ => .kept
  refine hsweep.moves hrefl fun r₀ hr₀ r r' hr hrouted => ?_
  obtain ⟨hmem, hp⟩ := List.mem_filter.mp hr₀
  have he : db.find? r₀.id = some r₀ := Table.find?_of_mem hmem
  rw [hr] at he
  cases he
  exact hq r₀ r' hp hrouted

/-! ## 古い伝言の始末 -/

/-- 古い伝言の一つに起こること。 -/
inductive SettledFrom (surfaced : Bool) (now : Time) (r : PromptRow) : PromptRow → Prop where
  | delivered {r' : PromptRow} (hs : surfaced = true) (h : StampedBy .delivered r r') :
      SettledFrom surfaced now r r'
  | abandoned {reason : PendingReason} {detail : String} (hs : surfaced = false)
      (hr : reason = .recipientEndedUnread ∨ reason = .abandonedUnknownTarget)
      (hp : r.processedAt = none) : SettledFrom surfaced now r (abandonRow now reason detail r)
  | kept (hp : r.processedAt ≠ none) : SettledFrom surfaced now r r

theorem settledAsSurfaced_congr {db₀ : PromptDb} (h : db.seen = db₀.seen) (r : PromptRow) :
    db.settledAsSurfaced r = db₀.settledAsSurfaced r := by
  unfold settledAsSurfaced PromptDb.receipt?
  rw [h]

theorem touches_settleAgedRow {existed unresolved : String} {id : Nat}
    (h : settleAgedRow now w existed unresolved db id = .ok db') :
    Touches id (fun r r' => SettledFrom (db.settledAsSurfaced r) now r r') db db'
      ∧ db'.seen = db.seen := by
  unfold settleAgedRow at h
  split at h
  · next hnone =>
    cases h
    refine ⟨.of_eq fun r hr => ?_, rfl⟩
    rw [hnone] at hr
    cases hr
  · next r₀ hr₀ =>
    split at h
    · next hs =>
      refine ⟨(touches_stamp h).imp fun r r' hr hstamp => ?_, stampAt_seen h⟩
      rw [hr₀] at hr
      cases hr
      exact .delivered hs hstamp
    · next hs =>
      cases h
      refine ⟨touches_updateId fun r hr => ?_, rfl⟩
      rw [hr₀] at hr
      cases hr
      split
      · next hp =>
        have hs' : db.settledAsSurfaced r₀ = false := Bool.eq_false_iff.mpr hs
        split
        · exact .abandoned hs' (Or.inl rfl) (Option.isNone_iff_eq_none.mp hp)
        · exact .abandoned hs' (Or.inr rfl) (Option.isNone_iff_eq_none.mp hp)
      · next hp => exact .kept fun hnone => hp (Option.isNone_iff_eq_none.mpr hnone)

theorem moves_settleAgedRows {p : PromptRow → Bool} {existed unresolved : String}
    (hrefl : ∀ r, R r r)
    (hs : ∀ id r r', db.find? id = some r → p r = true →
      SettledFrom (db.settledAsSurfaced r) now r r' → R r r')
    (h : db.settleAgedRowsInTx now w ((db.rows.filter p).map PromptRow.id) existed unresolved
      = .ok db') : Moves R New db db' := by
  have hsweep : SweepsEach (fun id => id)
      (fun _ r r' => SettledFrom (db.settledAsSurfaced r) now r r')
      ((db.rows.filter p).map PromptRow.id) db db' := by
    refine foldlM_touches (I := fun db₁ => db₁.seen = db.seen) ?_ rfl ?_ h
    · rw [List.map_id']
      exact nodup_filter_ids db _
    · intro id _ db₁ db₂ hseen hstep
      obtain ⟨ht, hseen₂⟩ := touches_settleAgedRow hstep
      refine ⟨ht.imp fun r r' _ hsettled => ?_, hseen₂.trans hseen⟩
      rw [settledAsSurfaced_congr hseen] at hsettled
      exact hsettled
  exact hsweep.moves hrefl fun id hid r r' hr hsettled =>
    hs id r r' hr (selected_row hid hr) hsettled

/-- 期限を過ぎた伝言は未処理である。 -/
theorem processedAt_of_expired {r : PromptRow} {cutoff : Time} (h : expired cutoff r = true) :
    r.processedAt = none := by
  unfold expired at h
  rw [Bool.and_eq_true] at h
  exact Option.isNone_iff_eq_none.mp h.1

/-- 期限切れの掃除は、写しを閉じ、残りを始末してから、知らせを書く。 -/
theorem expireStalePending_cases {secs : Int} {notices : List AbandonNotice}
    (h : db.expireStalePending now w secs notices = .ok db') :
    ∃ db₁ existed unresolved,
      (db.update (fun r => expired (now - seconds secs) r && transcriptMirror r)
        (expireMirrorRow now)).settleAgedRowsInTx now w
        (((db.update (fun r => expired (now - seconds secs) r && transcriptMirror r)
          (expireMirrorRow now)).rows.filter fun r => expired (now - seconds secs) r
            && outsideOperatorLane r).map PromptRow.id) existed unresolved = .ok db₁
      ∧ db' = db₁.notifyAll notices := by
  unfold expireStalePending at h
  dsimp only at h
  obtain ⟨db₁, hsettle, h⟩ := bind_eq_ok.mp h
  exact ⟨db₁, _, _, hsettle, (pure_eq_ok.mp h).symm⟩

theorem abandonIneligible_cases {targets : List String} {session : String} {secs : Int}
    {notices : List AbandonNotice}
    (h : db.abandonIneligibleSessionTargets now w targets session secs notices = .ok db') :
    db' = db ∨ ∃ db₁ existed unresolved,
      db.settleAgedRowsInTx now w ((db.rows.filter
        (ineligible targets session (now - seconds secs))).map PromptRow.id) existed unresolved
          = .ok db₁
      ∧ db' = db₁.notifyAll notices := by
  unfold abandonIneligibleSessionTargets at h
  split at h
  · cases h
    exact Or.inl rfl
  · obtain ⟨db₁, hsettle, h⟩ := bind_eq_ok.mp h
    exact Or.inr ⟨db₁, _, _, hsettle, (pure_eq_ok.mp h).symm⟩

/-! ## 掃除の法則 -/

/-- `db` から行う、押印を通らない操作の書き込みを含む関係。 -/
structure SweepLaw (R : PromptRow → PromptRow → Prop) (db : PromptDb) : Prop where
  acked : ∀ (r : PromptRow) t via, via ≠ .inferredFromReply →
    R r { r with ackedAt := t, ackedVia := some via }
  confirmed : StampLaw R .confirmed
  cancelled : ∀ r now detail, R r (cancelRow now detail r)
  routed : ∀ r₀ r r', RoutedFrom r₀ r r' → R r r'
  abandoned : ∀ r now reason detail, r.processedAt = none → R r (abandonRow now reason detail r)
  mirror : ∀ r now, r.processedAt = none → R r (expireMirrorRow now r)
  settled : ∀ surfaced now r r', SettledFrom surfaced now r r' → R r r'
  demoted : ∀ id r r', db.find? id = some r → r.ackedVia = some .inferredFromReply → R r r'
  hydrated : ∀ r : PromptRow, r.processedAt.isSome →
    R r { r with highestStage := some (.stage .delivered), transportDeliveredAt := r.processedAt }

/-- 一つの操作。 -/
theorem moves_sweep {o : PromptOp} {out : PromptOutcome} (hR : OpLaw R New) (hS : SweepLaw R db)
    (h : o.body db = .ok (out, db')) : Moves R New db db' := by
  have hrel := hR.toRowRel
  have hrefl := hR.refl
  by_cases ho : o.ordinary = true
  · exact moves_op hR ho h
  have hhydrate : ∀ p, Moves R New db (db.hydrateProcessed p) := by
    refine fun p => moves_update hrefl fun id r _ hp => ?_
    simp only [Bool.and_eq_true] at hp
    exact hS.hydrated r hp.1.1
  cases o with
  | operatorTurn p ackId =>
    obtain ⟨n, h⟩ := quiet_eq_ok h
    have hinsert : Moves R New db (db.insert p) := moves_insert hrefl p (hrel.new p _)
    rcases insertCompleteOperatorTurn_cases h with rfl | rfl | ⟨ack, db₁, -, hstamp, rfl⟩
    · exact .refl hrefl
    · exact hinsert
    · have hset : Moves R New db₁ (db₁.setAcked p.createdAt ack .explicitAck) :=
        moves_updateId hrefl fun r _ _ => hS.acked r _ _ (by decide)
      rcases hstamp with ⟨rfl, -⟩ | hstamp
      · exact hinsert.trans hrel hset
      · exact (hinsert.trans hrel (moves_stamp hrel hS.confirmed hstamp)).trans hrel hset
  | settleRecipientMessage now id recipients reply =>
    rcases settleRecipientMessage_cases (onlyDb_eq_ok h) with rfl | rfl
    · obtain ⟨hp, hn⟩ := settleAcks_prompts now id reply recipients db
      exact .of_prompts_eq hrefl hp hn
    · exact moves_acknowledged hrel (fun r _ => hS.acked r _ _ (by decide))
        fun r r' _ hs => hS.confirmed r r' hs
  | cancelUnreadForShutdown now recipient session detail =>
    obtain ⟨ids, h⟩ := quiet_eq_ok h
    exact moves_cancel hrefl (fun r _ => hS.cancelled r _ _) h
  | refreshQaRejectionTargets now w session promptId =>
    exact moves_refresh hrefl (fun r r' _ => hS.routed r r r') (onlyDb_eq_ok h)
  | abandonPendingOlderThan now secs notices =>
    cases h
    refine (moves_update hrefl fun id r _ hexp => ?_).trans hrel (moves_notifyAll hrel notices)
    exact hS.abandoned r _ _ _ (processedAt_of_expired hexp)
  | expireStalePending now w secs notices =>
    obtain ⟨db₁, existed, unresolved, hsettle, rfl⟩ := expireStalePending_cases (onlyDb_eq_ok h)
    have hmirror : Moves R New db
        (db.update (fun r => expired (now - seconds secs) r && transcriptMirror r)
          (expireMirrorRow now)) := by
      refine moves_update hrefl fun id r _ hp => ?_
      obtain ⟨hexp, -⟩ := (Bool.and_eq_true _ _).mp hp
      exact hS.mirror r _ (processedAt_of_expired hexp)
    exact (hmirror.trans hrel (moves_settleAgedRows hrefl
      (fun _ r r' _ _ => hS.settled _ _ r r') hsettle)).trans hrel (moves_notifyAll hrel notices)
  | abandonIneligibleSessionTargets now w targets session secs notices =>
    rcases abandonIneligible_cases (onlyDb_eq_ok h) with rfl | ⟨db₁, existed, unresolved, hsettle, rfl⟩
    · exact .refl hrefl
    · exact (moves_settleAgedRows hrefl (fun _ r r' _ _ => hS.settled _ _ r r') hsettle).trans hrel
        (moves_notifyAll hrel notices)
  | demoteInferred =>
    cases h
    exact moves_update hrefl fun id r hr hp => hS.demoted id r _ hr (of_decide_eq_true hp)
  | hydrateLegacyProcessed snapshot =>
    cases h
    exact hhydrate _
  | hydrateProcessed =>
    cases h
    exact hhydrate _
  | _ => exact absurd rfl ho

end Sweeps

end Cassy
