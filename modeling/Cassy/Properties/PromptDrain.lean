import Cassy.Properties.PromptStamps

/-!
# 取り出しが行に起こすこと

取り出しの transaction は、用済みの中継を片付け（押印と確認）、見せた伝言に確認を書き、段階を進める。見せた伝言は
どれも、transaction の始めに選んだ行である（`drain_row_selected`）。

hook の取り出しは、確認を先に書いてから押印する。確認と押印の間の行を扱うため、確認の法則 `AckLaw` は、押印を
待つ番号 `D` を引数に持つ。
-/

namespace Cassy

open Infra PromptDb

/-- 確認の書き込みが `R` である。段階が順位 3 に届いているか、押印を待つ番号に限る。 -/
def AckLaw (R : PromptRow → PromptRow → Prop) (D : Nat → Prop) : Prop :=
  ∀ (r : PromptRow) (now : Time) (via : AckedVia), via ≠ .inferredFromReply → r.ackedAt = none →
    (D r.id ∨ ∃ s, r.stage? = some s ∧ 3 ≤ s.rank) →
    R r { r with ackedAt := some now, ackedVia := some via }

/-! ## 押印の後の段階 -/

/-- 通った移りの先は、提案の順位に届いている。 -/
theorem proposed_rank_le {current proposed next : DeliveryStage} {id : Nat}
    (h : resolveStageTransition current proposed id = .ok next) : proposed.rank ≤ next.rank := by
  unfold resolveStageTransition at h
  split at h
  · next he =>
    cases h
    rw [he]
  · split at h
    · cases h
      exact Nat.le_refl _
    · split at h
      · cases h
        exact Nat.le_refl _
      · split at h
        · next hlt =>
          cases h
          exact Nat.le_of_lt hlt
        · cases h

/-- 落ちた移りは、同じ順位の段階のあいだである。 -/
theorem rank_eq_of_resolve_error {current proposed : DeliveryStage} {id : Nat} {e : StoreError}
    (h : resolveStageTransition current proposed id = .error e) :
    current.rank = proposed.rank := by
  unfold resolveStageTransition at h
  split at h
  · cases h
  · split at h
    · cases h
    · split at h
      · cases h
      · split at h
        · cases h
        · omega

@[simp] theorem stage?_stampRow (now : Time) (current next : DeliveryStage) (opts : AtomicStampOpts)
    (r : PromptRow) : (stampRow now current next opts r).stage? = some next := rfl

/-- 押印された行は、順位 3 までの提案なら、その順位に届いている。 -/
theorem StampedBy.rank_le {proposed : DeliveryStage} {r r' : PromptRow} {s : DeliveryStage}
    (h : StampedBy proposed r r') (hp : proposed.rank ≤ 3 ∨ proposed = .confirmed)
    (hs : r'.stage? = some s) : proposed.rank ≤ s.rank := by
  cases h with
  | skipped hstage hc _ =>
    rw [hstage] at hs
    cases hs
    rcases hp with hp | hp
    · exact hp
    · exact absurd hp hc
  | stamped _ hn _ =>
    rw [stage?_stampRow] at hs
    cases hs
    exact proposed_rank_le hn

section AfterStamp

variable {db : PromptDb} {now : Time} {id : Nat} {opts : AtomicStampOpts} {r : PromptRow}
  {s : DeliveryStage} {proposed : DeliveryStage}

/-- 通った押印の後。 -/
theorem rank_le_of_stamp {db' : PromptDb} {notices : List AbandonNotice}
    (hp : proposed.rank ≤ 3 ∨ proposed = .confirmed)
    (h : db.atomicStageStampInTx now notices id proposed opts = .ok db')
    (hmiss : db.find? id = none → proposed ≠ .abandoned) (hr : db'.find? id = some r)
    (hs : r.stage? = some s) : proposed.rank ≤ s.rank := by
  obtain ⟨r₀, r₁, -, hstamp, hsame⟩ := stamp_row h hr hmiss
  exact hstamp.rank_le hp (hsame.stage? ▸ hs)

/-- 落ちた押印の行は、読めないか、既にその順位にある。 -/
theorem rank_le_of_stamp_error {notices : List AbandonNotice} {e : StoreError}
    (h : db.atomicStageStampInTx now notices id proposed opts = .error e)
    (hr : db.find? id = some r) (hs : r.stage? = some s) : proposed.rank ≤ s.rank := by
  unfold atomicStageStampInTx at h
  rw [(readHighestStage_eq_ok hr).mpr hs, ok_bind] at h
  split at h
  · cases h
  · cases hn : resolveStageTransition s proposed id with
    | ok next =>
      rw [hn, ok_bind] at h
      cases h
    | error e' => exact Nat.le_of_eq (rank_eq_of_resolve_error hn).symm

/-- 失敗を捨てる押印の後。 -/
theorem rank_le_of_stampIgnoringError (hp : proposed.rank ≤ 3 ∨ proposed = .confirmed)
    (hr : (db.stampIgnoringError now id proposed opts).find? id = some r)
    (hs : r.stage? = some s) : proposed.rank ≤ s.rank := by
  unfold stampIgnoringError at hr
  split at hr
  · next db' h =>
    obtain ⟨r₀, -, hstamp⟩ := (touches_stamp h).row r hr
    exact hstamp.rank_le hp hs
  · next e h => exact rank_le_of_stamp_error h hr hs

end AfterStamp

/-! ## 見せた伝言 -/

section Selected

variable {now : Time} {notices : Nat → List AbandonNotice} {w : Surroundings}

/-- 片付けの後に残った行は、元の行の要約を変えたものである。 -/
theorem expire_subset : ∀ {rows : List PromptRow} {db db' : PromptDb} {current : List PromptRow},
    expireSupervisorRelays now notices w rows db = .ok (current, db') →
    ∀ r ∈ current, ∃ r₀ ∈ rows, r.id = r₀.id ∧ r.target = r₀.target
  | [], db, db', current, h, r, hr => by
    cases h
    cases hr
  | r₁ :: rest, db, db', current, h, r, hr => by
    unfold expireSupervisorRelays at h
    split at h
    · obtain ⟨db₁, -, h⟩ := bind_eq_ok.mp h
      obtain ⟨r₀, hr₀, he⟩ := expire_subset h r hr
      exact ⟨r₀, List.mem_cons_of_mem _ hr₀, he⟩
    · obtain ⟨⟨current', db₁⟩, hrest, ⟨⟩⟩ := bind_pure_eq_ok.mp h
      rcases List.mem_cons.mp hr with rfl | hr
      · refine ⟨r₁, List.mem_cons_self, ?_⟩
        unfold withDelay
        dsimp only
        split
        · exact ⟨rfl, rfl⟩
        · exact ⟨rfl, rfl⟩
      · obtain ⟨r₀, hr₀, he⟩ := expire_subset hrest r hr
        exact ⟨r₀, List.mem_cons_of_mem _ hr₀, he⟩

/-- 予算に収まる伝言は、元の列の伝言である。 -/
theorem withinBudget_subset : ∀ (budget : Option Nat) (rows : List Rendered),
    ∀ p ∈ (withinBudget budget rows).1, p ∈ rows
  | none, rows, p, hp => by
    unfold withinBudget at hp
    exact hp
  | some _, [], p, hp => hp
  | some left, p₁ :: rest, p, hp => by
    unfold withinBudget at hp
    dsimp only at hp
    split at hp
    · rcases List.mem_cons.mp hp with rfl | hp
      · exact List.mem_cons_self
      · exact List.mem_cons_of_mem _ (withinBudget_subset _ rest p hp)
    · exact List.mem_cons_of_mem _ (withinBudget_subset _ rest p hp)

theorem recipientDelivery_row (db : PromptDb) (recipient : String) (named : Bool) (r : PromptRow) :
    (db.recipientDelivery w recipient named r).row.id = r.id
      ∧ (db.recipientDelivery w recipient named r).row.target = r.target := by
  unfold recipientDelivery
  split
  · exact ⟨rfl, rfl⟩
  · split
    · exact ⟨rfl, rfl⟩
    · exact ⟨rfl, rfl⟩

variable {db db' : PromptDb} {recoveryText : PromptRow → String} {q : DrainQuery} {d : Drained}

/-- 選んだ行は表の行で、問い合わせの条件を満たす。 -/
theorem mem_drainSelection {r : PromptRow} (h : r ∈ db.drainSelection w q) :
    r ∈ db.rows ∧ db.eligible w q r = true := by
  unfold drainSelection at h
  dsimp only at h
  have hmem := List.mem_of_mem_take h
  rw [List.mem_insertionSort] at hmem
  exact List.mem_filter.mp hmem

/-- 前半の、片付けの後の姿。 -/
theorem drainRender_ok (h : db.drainRender now notices w recoveryText q = .ok (d, db')) :
    ∃ current, expireSupervisorRelays now notices w (db.drainSelection w q) db = .ok (current, db')
      ∧ ∀ p ∈ d.rows, ∃ r, (∃ r₁ ∈ current, r.id = r₁.id ∧ r.target = r₁.target)
        ∧ p = db'.recipientDelivery w q.request.recipient (q.request.transport = .namedRead) r := by
  unfold drainRender at h
  dsimp only at h
  obtain ⟨⟨current, db₁⟩, hexp, ⟨⟩⟩ := bind_pure_eq_ok.mp h
  refine ⟨current, hexp, fun p hp => ?_⟩
  obtain ⟨r, hr, rfl⟩ := List.mem_map.mp (withinBudget_subset _ _ p hp)
  obtain ⟨r₁, hr₁, rfl⟩ := List.mem_map.mp hr
  refine ⟨_, ⟨r₁, ?_, ?_⟩, rfl⟩
  · split at hr₁
    · exact (List.mem_filter.mp hr₁).1
    · exact hr₁
  · split
    · exact ⟨rfl, rfl⟩
    · exact ⟨rfl, rfl⟩

/-- 見せた伝言は、始めに選んだ行である。 -/
theorem drain_row_selected (h : db.drainTx now notices w recoveryText q = .ok (d, db'))
    {p : Rendered} (hp : p ∈ d.rows) :
    ∃ r, db.find? p.row.id = some r ∧ r ∈ db.drainSelection w q ∧ p.row.target = r.target := by
  unfold drainTx at h
  obtain ⟨⟨d', db₁⟩, hrender, ⟨⟩⟩ := bind_pure_eq_ok.mp h
  obtain ⟨current, hexp, hrows⟩ := drainRender_ok hrender
  obtain ⟨r, ⟨r₁, hr₁, hid, htarget⟩, rfl⟩ := hrows p hp
  obtain ⟨r₀, hr₀, hid₀, htarget₀⟩ := expire_subset hexp r₁ hr₁
  obtain ⟨hmem, -⟩ := mem_drainSelection hr₀
  obtain ⟨hrow, hrowt⟩ := recipientDelivery_row (w := w) db₁ q.request.recipient
    (q.request.transport = .namedRead) r
  refine ⟨r₀, ?_, hr₀, ?_⟩
  · rw [hrow, hid, hid₀]
    exact Table.find?_of_mem hmem
  · rw [hrowt, htarget, htarget₀]

end Selected

/-! ## 合成 -/

section Moves

variable {R : PromptRow → PromptRow → Prop} {New : PromptRow → Prop} {D : Nat → Prop}
  {now : Time} {notices : Nat → List AbandonNotice} {w : Surroundings} {db db' : PromptDb}
  {recoveryText : PromptRow → String} {q : DrainQuery} {d : Drained}

/-- 用済みの中継の押印の後、段階は順位 3 に届いている。 -/
theorem expired_rank {db₁ : PromptDb} {ns : List AbandonNotice} {id : Nat} {stage : DeliveryStage}
    {opts : AtomicStampOpts} {r₁ : PromptRow} (hstage : db.readHighestStage id = .ok stage)
    (hstamp : db.atomicStageStampInTx now ns id
      (if DeliveryStage.suppressed.rank ≤ stage.rank then stage else .suppressed) opts = .ok db₁)
    (hr₁ : db₁.find? id = some r₁) : ∃ s, r₁.stage? = some s ∧ 3 ≤ s.rank := by
  have hmiss : db.find? id = none →
      (if DeliveryStage.suppressed.rank ≤ stage.rank then stage else .suppressed) ≠ .abandoned := by
    intro hnone
    have henq : stage = .enqueued := by
      unfold readHighestStage at hstage
      rw [hnone] at hstage
      exact (Except.ok.inj hstage).symm
    rw [henq]
    decide
  obtain ⟨r, r', hr, hs, hsame⟩ := stamp_row hstamp hr₁ hmiss
  have hcur := (readHighestStage_eq_ok hr).mp hstage
  rw [hsame.stage?]
  cases hs with
  | skipped hsup _ _ => exact ⟨.suppressed, hsup, by decide⟩
  | @stamped _ current next _ _ hs hn _ =>
    refine ⟨next, rfl, Nat.le_trans ?_ (proposed_rank_le hn)⟩
    split
    · next hle => exact hle
    · decide

/-- 見せた伝言の、受領と確認の記録。 -/
def drainMarks (db : PromptDb) (now : Time) (req : DrainRequest) (rows : List Rendered) : PromptDb :=
  if req.source = .hookSurfaced then
    rows.foldl (writeHookAck now) (rows.foldl (writeReceipt now req) db)
  else rows.foldl (writeReceipt now req) db

/-- 記録の後に、段階を進める。 -/
theorem drainRecord_eq (db : PromptDb) (now : Time) (req : DrainRequest) (rows : List Rendered) :
    db.drainRecord now req rows = rows.foldl (writeStage now req) (drainMarks db now req rows) := rfl

variable (hR : RowRel R New)
include hR

theorem moves_setAcked (hA : AckLaw R D) {id : Nat} {via : AckedVia}
    (hvia : via ≠ .inferredFromReply)
    (hD : ∀ r, db.find? id = some r → D id ∨ ∃ s, r.stage? = some s ∧ 3 ≤ s.rank) :
    Moves R New db (db.setAcked now id via) := by
  refine moves_updateId hR.refl fun r hr hnone => ?_
  have hid : r.id = id := Table.key_of_find? hr
  exact hA r now via hvia (Option.isNone_iff_eq_none.mp hnone) (hid.symm ▸ hD r hr)

theorem moves_drainMarks (hA : AckLaw R D) {req : DrainRequest} {rows : List Rendered}
    (hD : ∀ p ∈ rows, p.referenceOnly = false → p.row.target ≠ allWorkers → D p.row.id) :
    Moves R New db (drainMarks db now req rows) := by
  have hreceipt : Moves R New db (rows.foldl (writeReceipt now req) db) := by
    refine moves_foldl hR (fun db p _ => ?_) db
    unfold writeReceipt
    split
    · exact .refl hR.refl
    · exact .of_prompts_eq hR.refl rfl rfl
  have hack : ∀ db, Moves R New db (rows.foldl (writeHookAck now) db) := by
    refine moves_foldl hR fun db p hp => ?_
    unfold writeHookAck
    split
    · exact .refl hR.refl
    · next hne =>
      rw [not_or] at hne
      exact moves_setAcked hR hA (by simp) fun r _ =>
        Or.inl (hD p hp (by simpa using hne.2) hne.1)
  unfold drainMarks
  split
  · exact hreceipt.trans hR (hack _)
  · exact hreceipt

variable (hS : ∀ p, p.rank ≤ 3 → StampLaw R p)
include hS

/-- 用済みの中継を閉じる。 -/
theorem moves_expireRelay (hkeep : ∀ r r' s, r.stage? = some s → StampedBy s r r' → R r r')
    (hA : AckLaw R D) {r : PromptRow} {detail : String}
    (h : db.expireRelay now notices w r detail = .ok db') : Moves R New db db' := by
  unfold expireRelay at h
  dsimp only at h
  obtain ⟨stage, hstage, h⟩ := bind_eq_ok.mp h
  obtain ⟨db₁, hstamp, h⟩ := bind_eq_ok.mp h
  rw [← pure_eq_ok.mp h]
  have hm : Moves R New db db₁ := by
    refine moves_stampAt hR (fun r₀ r' hr₀ hs => ?_) hstamp
    split at hs
    · exact hkeep r₀ r' stage ((readHighestStage_eq_ok hr₀).mp hstage) hs
    · exact hS .suppressed (by decide) r₀ r' hs
  refine hm.trans hR (moves_setAcked hR hA (by split <;> simp) fun r₁ hr₁ => Or.inr ?_)
  exact expired_rank hstage hstamp hr₁

theorem moves_expireSupervisorRelays
    (hkeep : ∀ r r' s, r.stage? = some s → StampedBy s r r' → R r r') (hA : AckLaw R D) :
    ∀ {rows : List PromptRow} {db db' : PromptDb} {current : List PromptRow},
      expireSupervisorRelays now notices w rows db = .ok (current, db') → Moves R New db db'
  | [], db, db', current, h => by
    cases h
    exact .refl hR.refl
  | r :: rest, db, db', current, h => by
    unfold expireSupervisorRelays at h
    split at h
    · obtain ⟨db₁, hrelay, h⟩ := bind_eq_ok.mp h
      exact (moves_expireRelay hR hS hkeep hA hrelay).trans hR
        (moves_expireSupervisorRelays hkeep hA h)
    · obtain ⟨⟨current', db₁⟩, hrest, ⟨⟩⟩ := bind_pure_eq_ok.mp h
      exact moves_expireSupervisorRelays hkeep hA hrest

theorem moves_writeStage (hC : ∀ r r', D r.id → StampedBy .confirmed r r' → R r r')
    {req : DrainRequest} {p : Rendered}
    (hD : p.referenceOnly = false → p.row.target ≠ allWorkers → D p.row.id) :
    Moves R New db (writeStage now req db p) := by
  unfold writeStage
  split
  · exact .of_prompts_eq hR.refl rfl rfl
  · next href =>
    split
    · exact .refl hR.refl
    · next hall =>
      split
      · exact .refl hR.refl
      · next db₁ hstamp =>
        have hm := moves_stamp hR (hS .delivered (by decide)) hstamp
        split
        · refine hm.trans hR (moves_stampIgnoringError hR fun r r' hr hs => ?_)
          have hid : r.id = p.row.id := Table.key_of_find? hr
          exact hC r r' (hid ▸ hD (by simpa using href) hall) hs
        · exact hm

/-- 見せた伝言の記録。 -/
theorem moves_drainRecord (hA : AckLaw R D)
    (hC : ∀ r r', D r.id → StampedBy .confirmed r r' → R r r') {req : DrainRequest}
    {rows : List Rendered}
    (hD : ∀ p ∈ rows, p.referenceOnly = false → p.row.target ≠ allWorkers → D p.row.id) :
    Moves R New db (db.drainRecord now req rows) := by
  rw [drainRecord_eq]
  exact (moves_drainMarks hR hA hD).trans hR
    (moves_foldl hR (fun db p hp => moves_writeStage hR hS hC (hD p hp)) _)

/-- 取り出しの全体。 -/
theorem moves_drainTx (hkeep : ∀ r r' s, r.stage? = some s → StampedBy s r r' → R r r')
    (hA : AckLaw R D) (hC : ∀ r r', D r.id → StampedBy .confirmed r r' → R r r')
    (h : db.drainTx now notices w recoveryText q = .ok (d, db'))
    (hD : ∀ p ∈ d.rows, p.referenceOnly = false → p.row.target ≠ allWorkers → D p.row.id) :
    Moves R New db db' := by
  unfold drainTx at h
  obtain ⟨⟨d', db₁⟩, hrender, ⟨⟩⟩ := bind_pure_eq_ok.mp h
  obtain ⟨current, hexp, -⟩ := drainRender_ok hrender
  exact (moves_expireSupervisorRelays hR hS hkeep hA hexp).trans hR
    (moves_drainRecord hR hS hA hC hD)

end Moves

end Cassy
