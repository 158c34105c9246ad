import Cassy.Properties.PromptSweeps

/-!
# 段階は戻らない

押印を通る操作は、段階の順位を下げず、取り下げた伝言を確認の他では動かさず、確認のある伝言を打ち切らない
（`Advances`）。押印を通らない文については、次の三つが起きないかぎり同じことが言える。

* 返事からの推定が、候補を読んだ後に確認された伝言か、取り下げられた伝言を書く
* 打ち切りや写しの掃除が、確認された伝言や、確認の押印が済んで `acked_at` を待つ伝言を書く
* `acked_at` の文が、押印の届いていない伝言を書く

`stages_advance` が実行の全体についての主張である。三つの割り込みはどれも実際に起こり、
`acked_message_abandoned` はその一つである。
-/

namespace Cassy

open Infra PromptDb

/-! ## 段階の移り -/

/-- 順位は下がらず、取り下げは確認でしか動かず、打ち切りは順位 3 に届かない段階からに限る。 -/
structure StageMoves (confirm : Prop) (s s' : DeliveryStage) : Prop where
  rank : s.rank ≤ s'.rank
  suppressed : s = .suppressed → s' = .suppressed ∨ confirm
  abandoned : s' = .abandoned → s = .abandoned ∨ s.rank < 3

theorem StageMoves.refl {confirm : Prop} (s : DeliveryStage) : StageMoves confirm s s :=
  ⟨Nat.le_refl _, Or.inl, Or.inl⟩

theorem StageMoves.trans {confirm : Prop} {a b c : DeliveryStage} (h : StageMoves confirm a b)
    (h' : StageMoves confirm b c) : StageMoves confirm a c where
  rank := Nat.le_trans h.rank h'.rank
  suppressed := by
    intro ha
    rcases h.suppressed ha with hb | hc
    · exact h'.suppressed hb
    · exact Or.inr hc
  abandoned := by
    intro hc
    rcases h'.abandoned hc with hb | hb
    · exact h.abandoned hb
    · exact Or.inr (Nat.lt_of_le_of_lt h.rank hb)

theorem stageMoves_of_resolve {confirm : Prop} {current proposed next : DeliveryStage} {id : Nat}
    (h : resolveStageTransition current proposed id = .ok next)
    (hp : proposed.rank ≤ 3 ∨ (current = .suppressed → confirm)) :
    StageMoves confirm current next where
  rank := rank_le_of_resolve h
  suppressed := by
    rintro rfl
    by_cases hne : next = .suppressed
    · exact Or.inl hne
    · refine Or.inr ?_
      rcases hp with hp | hp
      · exfalso
        rcases resolve_suppressed h hne with rfl | rfl
        · exact absurd hp (by decide)
        · exact absurd hp (by decide)
      · exact hp rfl
  abandoned := by
    rintro rfl
    exact resolve_abandoned h

/-! ## 行の移り -/

/-- 押印を通る書き込みの後の行。`confirm` は確認の相手、`due` は確認を書いて押印を待つ番号。 -/
structure Advances (confirm due : Nat → Prop) (r r' : PromptRow) : Prop where
  id : r'.id = r.id
  processed : r.processedAt.isSome → r'.processedAt.isSome
  via : r'.ackedVia = some .inferredFromReply → r.ackedVia = some .inferredFromReply
  stage : ∀ s, r.stage? = some s → ∃ s', r'.stage? = some s' ∧ StageMoves (confirm r.id) s s'
  acked : r'.ackedAt.isSome →
    r.ackedAt.isSome ∨ due r.id ∨ ∃ s', r'.stage? = some s' ∧ 3 ≤ s'.rank

/-- 段階が読め、確認のある行は順位 3 に届いている。`due` は押印を待つ番号。 -/
structure RowOk (due : Nat → Prop) (r : PromptRow) : Prop where
  stage : ∃ s, r.stage? = some s
  via : r.ackedVia ≠ some .inferredFromReply
  acked : r.ackedAt.isSome → due r.id ∨ ∃ s, r.stage? = some s ∧ 3 ≤ s.rank

section Advances

variable {confirm due : Nat → Prop} {r r' r'' : PromptRow}

/-- 段階に触れず、確認も処理の印も変えない書き換え。 -/
theorem Advances.of_eq (hid : r'.id = r.id) (hstage : r'.highestStage = r.highestStage)
    (hacked : r'.ackedAt = r.ackedAt) (hvia : r'.ackedVia = r.ackedVia)
    (hproc : r.processedAt.isSome → r'.processedAt.isSome) : Advances confirm due r r' where
  id := hid
  processed := hproc
  via := by rw [hvia]; exact fun h => h
  stage := by
    intro s hs
    refine ⟨s, ?_, .refl s⟩
    unfold PromptRow.stage? at hs ⊢
    rw [hstage]
    exact hs
  acked := by
    rw [hacked]
    exact Or.inl

theorem Advances.refl (r : PromptRow) : Advances confirm due r r :=
  .of_eq rfl rfl rfl rfl fun h => h

theorem Advances.trans (h : Advances confirm due r r') (h' : Advances confirm due r' r'') :
    Advances confirm due r r'' where
  id := h'.id.trans h.id
  processed := fun hp => h'.processed (h.processed hp)
  via := fun hv => h.via (h'.via hv)
  stage := by
    intro s hs
    obtain ⟨s', hs', hm⟩ := h.stage s hs
    obtain ⟨s'', hs'', hm'⟩ := h'.stage s' hs'
    rw [h.id] at hm'
    exact ⟨s'', hs'', hm.trans hm'⟩
  acked := by
    intro ha
    rcases h'.acked ha with ha' | hd | hr
    · rcases h.acked ha' with ha | hd | ⟨s', hs', hrank⟩
      · exact Or.inl ha
      · exact Or.inr (Or.inl hd)
      · obtain ⟨s'', hs'', hm⟩ := h'.stage s' hs'
        exact Or.inr (Or.inr ⟨s'', hs'', Nat.le_trans hrank hm.rank⟩)
    · exact Or.inr (Or.inl (h.id ▸ hd))
    · exact Or.inr (Or.inr hr)

/-- 行の条件は移りで保たれる。 -/
theorem RowOk.step (h : RowOk due r) (hstep : Advances confirm due r r') : RowOk due r' where
  stage := by
    obtain ⟨s, hs⟩ := h.stage
    obtain ⟨s', hs', -⟩ := hstep.stage s hs
    exact ⟨s', hs'⟩
  via := fun hv => h.via (hstep.via hv)
  acked := by
    intro ha
    rcases hstep.acked ha with ha | hd | hr
    · rcases h.acked ha with hd | ⟨s, hs, hrank⟩
      · exact Or.inl (hstep.id.symm ▸ hd)
      · obtain ⟨s', hs', hm⟩ := hstep.stage s hs
        exact Or.inr ⟨s', hs', Nat.le_trans hrank hm.rank⟩
    · exact Or.inl (hstep.id.symm ▸ hd)
    · exact Or.inr hr

/-- 押印の一回。確認の押印は、確認の相手に限る。 -/
theorem StampedBy.advances {proposed : DeliveryStage} (h : StampedBy proposed r r')
    (hp : proposed.rank ≤ 3 ∨ confirm r.id ∨ r.stage? = some proposed) :
    Advances confirm due r r' := by
  cases h with
  | skipped => exact .refl r
  | @stamped now current next opts id hs hn hlive =>
    have hmoves : StageMoves (confirm r.id) current next := by
      rcases hp with hp | hp | hp
      · exact stageMoves_of_resolve hn (Or.inl hp)
      · exact stageMoves_of_resolve hn (Or.inr fun _ => hp)
      · rw [hs] at hp
        cases hp
        have hnext : next = proposed := by
          rcases resolveStageTransition_cases hn with he | ⟨he, -⟩
          · exact he
          · exact he
        rw [hnext]
        exact .refl proposed
    refine ⟨rfl, ?_, fun hv => hv, ?_, Or.inl⟩
    · intro hproc
      show (if _ then r.processedAt.or (some now) else r.processedAt).isSome = true
      split
      · rw [Option.isSome_or, hproc]
        rfl
      · exact hproc
    · intro s hs'
      rw [hs] at hs'
      cases hs'
      exact ⟨next, rfl, hmoves⟩

/-- 足したばかりの伝言。 -/
theorem newRow_ok (p : NewPrompt) (id : Nat) : RowOk due (p.toRow id) :=
  ⟨⟨.enqueued, rfl⟩, by simp [NewPrompt.toRow], by simp [NewPrompt.toRow]⟩

theorem advances_ackLaw : AckLaw (Advances confirm due) due := by
  intro r now via hvia hnone hD
  refine ⟨rfl, fun h => h, ?_, fun s hs => ⟨s, hs, .refl s⟩, ?_⟩
  · intro hv
    exact absurd (Option.some.inj hv) hvia
  · intro _
    rcases hD with hd | hr
    · exact Or.inr (Or.inl hd)
    · exact Or.inr (Or.inr hr)

theorem advances_rowLaw : RowLaw (Advances confirm due) (RowOk due) where
  refl := .refl
  trans := .trans
  new := newRow_ok
  newStep := fun h hstep => h.step hstep
  text := fun _ _ _ => .of_eq rfl rfl rfl rfl fun h => h
  same := by
    intro r r' h
    refine .of_eq h.id h.highestStage h.ackedAt h.ackedVia ?_
    rw [h.processedAt]
    exact fun h => h

/-- 確認を待つ番号の無い関係は、操作の法則を満たす。 -/
theorem advances_opLaw :
    OpLaw (Advances confirm fun _ => False) (RowOk fun _ => False) where
  toRowLaw := advances_rowLaw
  stamp := fun p hp r r' hs => hs.advances (Or.inl hp)
  ack := advances_ackLaw
  edit := by
    intro e r
    cases e <;> exact .of_eq rfl rfl rfl rfl fun h => h
  processed := fun r t => .of_eq rfl rfl rfl rfl fun _ => rfl
  retarget := fun _ _ _ _ _ => .of_eq rfl rfl rfl rfl fun h => h

/-- 押印を待つ番号の行が順位 3 に届いたなら、待つ番号は無くなる。 -/
theorem Advances.settle (h : Advances confirm due r r')
    (hdue : due r'.id → ∃ s, r'.stage? = some s ∧ 3 ≤ s.rank) :
    Advances confirm (fun _ => False) r r' :=
  { h with
    acked := by
      intro ha
      rcases h.acked ha with ha | hd | hr
      · exact Or.inl ha
      · exact Or.inr (Or.inr (hdue (h.id.symm ▸ hd)))
      · exact Or.inr (Or.inr hr) }

theorem moves_settle {db db' : PromptDb} (h : Moves (Advances confirm due) (RowOk due) db db')
    (hok : ∀ id r, db.find? id = some r → RowOk due r)
    (hdue : ∀ id r s, db'.find? id = some r → due id → r.stage? = some s → 3 ≤ s.rank) :
    Moves (Advances confirm fun _ => False) (RowOk fun _ => False) db db' where
  nextId := h.nextId
  row := by
    intro id r' hr'
    have hok' : RowOk due r' := h.forall (fun _ _ h hstep => h.step hstep) (fun _ h => h) hok id r' hr'
    have hsettled : due r'.id → ∃ s, r'.stage? = some s ∧ 3 ≤ s.rank := by
      intro hd
      obtain ⟨s, hs⟩ := hok'.stage
      rw [Table.key_of_find? hr'] at hd
      exact ⟨s, hs, hdue id r' s hr' hd hs⟩
    rcases h.row id r' hr' with ⟨r, hr, hstep⟩ | ⟨hid, hnew⟩
    · exact Or.inl ⟨r, hr, hstep.settle hsettled⟩
    · refine Or.inr ⟨hid, hnew.stage, hnew.via, fun ha => Or.inr ?_⟩
      rcases hnew.acked ha with hd | hr
      · exact hsettled hd
      · exact hr

end Advances

/-! ## 条件 -/

/-- 段階が順位 3 に届いている。 -/
def settledRank (r : PromptRow) : Bool := r.stage?.any fun s => 3 ≤ s.rank

/-- 段階が順位 3 を越えていない。 -/
def unconfirmedRank (r : PromptRow) : Bool := r.stage?.all fun s => s.rank ≤ 3

/--
押印を通らない文の条件。

`acked_at` の文は、押印が順位 3 に届いた行だけを書く。推定の文は、確認の押印の済んだ行も取り下げた行も書かない。
打ち切りと写しの掃除は、推定や確認の押印のある行を書かず、`abandon_pending_older_than` は `acked_at` のある行も
書かない。
-/
def stageGuard (s : PromptState) : PromptAct → Bool
  | .next pid _ _ _ _ _ =>
    match s.pc pid with
    | .ackSet id => (s.db.find? id).all fun r => r.ackedAt.isSome || settledRank r
    | .infer (id :: _) => (s.db.find? id).all fun r => r.ackedAt.isSome || r.assumedSeenAt.isSome
      || (r.stage? ≠ some .confirmed && !s.withdrawn.contains id)
    | _ => true
  | .op (.abandonPendingOlderThan now secs _) => s.db.rows.all fun r =>
    !expired (now - seconds secs) r || (r.ackedAt.isNone && unconfirmedRank r)
  | .op (.expireStalePending now _ secs _) => s.db.rows.all fun r =>
    !expired (now - seconds secs) r
      || ((!transcriptMirror r || unconfirmedRank r)
        && (!outsideOperatorLane r || s.db.settledAsSurfaced r || unconfirmedRank r))
  | .op (.abandonIneligibleSessionTargets now _ targets session secs _) => s.db.rows.all fun r =>
    !ineligible targets session (now - seconds secs) r || s.db.settledAsSurfaced r
      || unconfirmedRank r
  | _ => true

/-! ## 一歩 -/

/-- 取り下げの操作。 -/
def PromptAct.cancels : PromptAct → Bool
  | .op (.cancelUnreadForShutdown ..) => true
  | _ => false

/-- 宛て直しの操作。 -/
def PromptAct.readdresses : PromptAct → Bool
  | .op (.refreshQaRejectionTargets ..) => true
  | _ => false

/--
一歩の前後の行。

順位は、取り下げと宛て直しの他では下がらない。取り下げた伝言の段階は、その伝言への確認でしか変わらない。確認のある
伝言は、打ち切りにならない。
-/
structure StagesAdvance (s : PromptState) (act : PromptAct) (r r' : PromptRow) : Prop where
  rank : ∃ a b, r.stage? = some a ∧ r'.stage? = some b ∧ (a.rank ≤ b.rank
    ∨ (act.cancels = true ∧ b = .suppressed ∧ r'.lastPendingReason = some .shutdownCancelled)
    ∨ (act.readdresses = true ∧ b = .enqueued ∧ r'.target ≠ r.target))
  withdrawn : r.id ∈ s.withdrawn → r'.stage? = r.stage? ∨ Acknowledges s r.id act
  abandoned : r.ackedAt.isSome → r'.stage? = some .abandoned → r.stage? = some .abandoned

/-- 次の一歩のために、行について覚えておくこと。 -/
structure StageStep (s : PromptState) (act : PromptAct) (r r' : PromptRow) : Prop extends
    StagesAdvance s act r r' where
  ok : RowOk (fun _ => False) r'
  processed : r.processedAt.isSome → r'.processedAt.isSome

/-- 一歩の前の行が満たすこと。取り下げた伝言は、処理済みで、取り下げられたままである。 -/
structure SoundRow (withdrawn : List Nat) (r : PromptRow) : Prop where
  ok : RowOk (fun _ => False) r
  withdrawn : r.id ∈ withdrawn → r.stage? = some .suppressed ∧ r.processedAt.isSome

/-- 保たれること。 -/
structure Consistent (s : PromptState) : Prop where
  row : ∀ id r, s.db.find? id = some r → SoundRow s.withdrawn r
  withdrawn : ∀ id ∈ s.withdrawn, id < s.db.nextId

section Step

variable {s : PromptState} {act : PromptAct} {r r' : PromptRow} {db' : PromptDb}
variable {db : PromptDb} {now : Time} {w : Surroundings}

theorem settledRank_iff : settledRank r = true ↔ ∃ a, r.stage? = some a ∧ 3 ≤ a.rank := by
  unfold settledRank
  cases r.stage? <;> simp

theorem rank_of_unconfirmed (h : unconfirmedRank r = true) {a : DeliveryStage}
    (ha : r.stage? = some a) : a.rank ≤ 3 := by
  unfold unconfirmedRank at h
  rw [ha] at h
  simpa using h

/-- 押印を通る書き込みは、一歩の主張を満たす。 -/
theorem Advances.stageStep {confirm : Nat → Prop} (h : Advances confirm (fun _ => False) r r')
    (hr : SoundRow s.withdrawn r)
    (hc : r.stage? = some .suppressed → confirm r.id → Acknowledges s r.id act) :
    StageStep s act r r' where
  rank := by
    obtain ⟨a, ha⟩ := hr.ok.stage
    obtain ⟨b, hb, hm⟩ := h.stage a ha
    exact ⟨a, b, ha, hb, Or.inl hm.rank⟩
  withdrawn := by
    intro hw
    obtain ⟨hs, -⟩ := hr.withdrawn hw
    obtain ⟨b, hb, hm⟩ := h.stage _ hs
    rcases hm.suppressed rfl with rfl | hcon
    · exact Or.inl (hb.trans hs.symm)
    · exact Or.inr (hc hs hcon)
  abandoned := by
    intro hacked hab
    rcases hr.ok.acked hacked with hd | ⟨a, ha, hrank⟩
    · exact hd.elim
    · obtain ⟨b, hb, hm⟩ := h.stage a ha
      rw [hab] at hb
      rcases hm.abandoned (Option.some.inj hb).symm with rfl | hlt
      · exact ha
      · exact absurd hrank (Nat.not_le.mpr hlt)
  ok := hr.ok.step h
  processed := h.processed

/-- 行の条件のもとでの一歩。反射的なので、掃除の補題に渡せる。 -/
def StepFrom (s : PromptState) (act : PromptAct) (r r' : PromptRow) : Prop :=
  SoundRow s.withdrawn r → StageStep s act r r'

theorem Advances.stepFrom (h : Advances (fun _ => False) (fun _ => False) r r') :
    StepFrom s act r r' :=
  fun hr => h.stageStep hr fun _ h => h.elim

theorem stepFrom_refl (r : PromptRow) : StepFrom s act r r := (Advances.refl r).stepFrom

/-- 文面だけの書き換え。 -/
def TextOnly (r r' : PromptRow) : Prop := ∃ prompt summary, r' = { r with prompt, summary }

theorem TextOnly.advances (h : TextOnly r r') : Advances (fun _ => False) (fun _ => False) r r' := by
  obtain ⟨prompt, summary, rfl⟩ := h
  exact .of_eq rfl rfl rfl rfl fun h => h

theorem textOnly_rel : RowRel TextOnly (RowOk fun _ => False) where
  refl := fun r => ⟨r.prompt, r.summary, rfl⟩
  trans := by
    rintro a b c ⟨p, u, rfl⟩ ⟨p', u', rfl⟩
    exact ⟨p', u', rfl⟩
  new := newRow_ok
  newStep := fun h hstep => h.step hstep.advances
  text := fun _ prompt summary => ⟨prompt, summary, rfl⟩

/-- 一歩の後に文面の書き換えが続く。 -/
theorem StepFrom.andThen {r'' : PromptRow} (h : StepFrom s act r r') (ht : TextOnly r' r'') :
    StepFrom s act r r'' := by
  intro hr
  have hstep := h hr
  have hok := hstep.ok.step ht.advances
  obtain ⟨prompt, summary, rfl⟩ := ht
  exact ⟨⟨hstep.rank, hstep.withdrawn, hstep.abandoned⟩, hok, hstep.processed⟩

/-- 掃除の後に知らせが続く。 -/
theorem moves_thenNotify {db₁ : PromptDb} (h : Moves (StepFrom s act) (RowOk fun _ => False) db db₁)
    (notices : List AbandonNotice) :
    Moves (StepFrom s act) (RowOk fun _ => False) db (db₁.notifyAll notices) :=
  h.comp (moves_notifyAll textOnly_rel notices) (fun h ht => h.andThen ht)
    (fun h ht => h.step ht.advances)

/-! ### 押印を通らない書き込み -/

/-- 打ち切りの書き込み。確認が無く、推定や確認の押印も無い行に限る。 -/
theorem stepFrom_abandonRow {reason : PendingReason} {detail : String}
    (hproc : r.processedAt = none) (hacked : r.ackedAt = none) (hrank : unconfirmedRank r = true) :
    StepFrom s act r (abandonRow now reason detail r) := by
  intro hr
  refine ⟨⟨?_, ?_, ?_⟩, ⟨⟨.abandoned, rfl⟩, hr.ok.via, ?_⟩, ?_⟩
  · obtain ⟨a, ha⟩ := hr.ok.stage
    exact ⟨a, .abandoned, ha, rfl, Or.inl (rank_of_unconfirmed hrank ha)⟩
  · intro hw
    obtain ⟨-, hp⟩ := hr.withdrawn hw
    rw [hproc] at hp
    cases hp
  · intro ha
    rw [hacked] at ha
    cases ha
  · exact fun _ => Or.inr ⟨.abandoned, rfl, by decide⟩
  · exact fun _ => by simp [abandonRow]

/-- 写しを閉じる書き込み。 -/
theorem stepFrom_expireMirrorRow (hproc : r.processedAt = none) (hrank : unconfirmedRank r = true) :
    StepFrom s act r (expireMirrorRow now r) := by
  intro hr
  refine ⟨⟨?_, ?_, ?_⟩, ⟨⟨.suppressed, rfl⟩, hr.ok.via, ?_⟩, ?_⟩
  · obtain ⟨a, ha⟩ := hr.ok.stage
    exact ⟨a, .suppressed, ha, rfl, Or.inl (rank_of_unconfirmed hrank ha)⟩
  · intro hw
    obtain ⟨-, hp⟩ := hr.withdrawn hw
    rw [hproc] at hp
    cases hp
  · intro _ hab
    cases hab
  · exact fun _ => Or.inr ⟨.suppressed, rfl, by decide⟩
  · exact fun _ => rfl

/-- 古い伝言の始末。 -/
theorem SettledFrom.stepFrom {surfaced : Bool} (h : SettledFrom surfaced now r r')
    (hacked : surfaced = false → r.ackedAt = none)
    (hrank : surfaced = false → unconfirmedRank r = true) : StepFrom s act r r' := by
  cases h with
  | delivered _ h => exact (h.advances (Or.inl (Nat.le_refl 3))).stepFrom
  | abandoned hs _ hp => exact stepFrom_abandonRow hp (hacked hs) (hrank hs)
  | kept => exact stepFrom_refl r

/-- 確認のある伝言は、見せたものとして扱われる。 -/
theorem ackedAt_of_not_settled (h : db.settledAsSurfaced r = false) : r.ackedAt = none := by
  unfold settledAsSurfaced at h
  rw [Bool.or_eq_false_iff] at h
  exact Option.not_isSome_iff_eq_none.mp (by simp [h.1])

/-- 取り下げの書き込み。 -/
theorem stepFrom_cancelRow {recipient detail : String} {session : Option String}
    (hact : act.cancels = true) (hsel : db.shutdownUnread recipient session r = true) :
    StepFrom s act r (cancelRow now detail r) := by
  intro hr
  unfold shutdownUnread at hsel
  simp only [Bool.and_eq_true, Option.isNone_iff_eq_none] at hsel
  obtain ⟨⟨⟨⟨-, hacked⟩, -⟩, -⟩, -⟩ := hsel
  refine ⟨⟨?_, ?_, ?_⟩, ⟨⟨.suppressed, rfl⟩, hr.ok.via, ?_⟩, ?_⟩
  · obtain ⟨a, ha⟩ := hr.ok.stage
    exact ⟨a, .suppressed, ha, rfl, Or.inr (Or.inl ⟨hact, rfl, rfl⟩)⟩
  · -- 取り下げた伝言は、もう取り下げの相手にならない
    intro hw
    exact Or.inl (hr.withdrawn hw).1.symm
  · intro ha
    rw [hacked] at ha
    cases ha
  · exact fun _ => Or.inr ⟨.suppressed, rfl, by decide⟩
  · exact fun _ => by simp [cancelRow]

/-- 宛て直しの書き込み。 -/
theorem RoutedFrom.stepFrom {session : String} {promptId : Option Nat}
    (hact : act.readdresses = true) (hsel : db.qaRejection w session promptId r = true)
    (h : RoutedFrom r r r') : StepFrom s act r r' := by
  unfold qaRejection at hsel
  simp only [Bool.and_eq_true, Option.isNone_iff_eq_none] at hsel
  obtain ⟨⟨⟨⟨-, hproc⟩, hacked⟩, -⟩, -⟩ := hsel
  cases h with
  | kept => exact stepFrom_refl r
  | withdrawn h => exact (h.advances (Or.inl (Nat.le_refl 3))).stepFrom
  | @readdressed owner hne =>
    intro hr
    refine ⟨⟨?_, ?_, ?_⟩, ⟨⟨.enqueued, rfl⟩, hr.ok.via, ?_⟩, fun h => h⟩
    · obtain ⟨a, ha⟩ := hr.ok.stage
      exact ⟨a, .enqueued, ha, rfl, Or.inr (Or.inr ⟨hact, rfl, hne⟩)⟩
    · intro hw
      obtain ⟨-, hp⟩ := hr.withdrawn hw
      rw [hproc] at hp
      cases hp
    · intro ha
      rw [hacked] at ha
      cases ha
    · intro ha
      rw [show (readdressRow owner r).ackedAt = r.ackedAt from rfl, hacked] at ha
      cases ha

/-- 推定の書き込み。 -/
theorem stepFrom_assumeSeenRow (hstage : r.stage? ≠ some .confirmed) (hw : r.id ∉ s.withdrawn) :
    StepFrom s act r (assumeSeenRow now r) := by
  intro hr
  refine ⟨⟨?_, fun h => absurd h hw, ?_⟩, ⟨⟨.assumedSeen, rfl⟩, hr.ok.via, ?_⟩, fun h => h⟩
  · obtain ⟨a, ha⟩ := hr.ok.stage
    refine ⟨a, .assumedSeen, ha, rfl, Or.inl ?_⟩
    cases a with
    | confirmed => exact absurd ha hstage
    | _ => decide
  · intro _ hab
    cases hab
  · exact fun _ => Or.inr ⟨.assumedSeen, rfl, by decide⟩

/-! ### 取り出し -/

/-- 段階の書かれた行の列。 -/
theorem highestStage_of_stage? {a : DeliveryStage} (h : r.stage? = some a) (hne : a ≠ .enqueued) :
    r.highestStage = some (.stage a) := by
  unfold PromptRow.stage? at h
  split at h
  · exact absurd (Option.some.inj h).symm hne
  · next hs =>
    rw [hs, Option.some.inj h]
  · cases h

/-- 見せた直接の伝言の押印の後。 -/
theorem writeStage_rank {req : DrainRequest} {p : Rendered} {a : DeliveryStage}
    (href : p.referenceOnly = false) (hall : p.row.target ≠ allWorkers)
    (hr : (writeStage now req db p).find? p.row.id = some r) (ha : r.stage? = some a) :
    3 ≤ a.rank := by
  unfold writeStage at hr
  rw [if_neg (by simp [href]), if_neg hall] at hr
  split at hr
  · next h => exact rank_le_of_stamp_error h hr ha
  · next h =>
    split at hr
    · exact Nat.le_trans (by decide)
        (rank_le_of_stampIgnoringError (Or.inr rfl) hr ha)
    · exact rank_le_of_stamp (Or.inl (by decide)) h (by simp) hr ha

/-- 本文を見せた直接の伝言。 -/
def shownDirect (rows : List Rendered) (id : Nat) : Prop :=
  ∃ p ∈ rows, p.referenceOnly = false ∧ p.row.target ≠ allWorkers ∧ p.row.id = id

theorem writeStages_rank {due : Nat → Prop} {req : DrainRequest} :
    ∀ {rows : List Rendered} {db : PromptDb} {id : Nat} {r : PromptRow} {a : DeliveryStage},
      (∀ id r, db.find? id = some r → RowOk due r) →
      (∀ id, shownDirect rows id → due id ∧ id < db.nextId) → shownDirect rows id →
      (rows.foldl (writeStage now req) db).find? id = some r → r.stage? = some a → 3 ≤ a.rank
  | [], db, id, r, a, _, _, hshown, _, _ => by
    obtain ⟨p, hp, -⟩ := hshown
    cases hp
  | p :: rows, db, id, r, a, hok, hdue, hshown, hr, ha => by
    have hlaw : RowLaw (Advances due due) (RowOk due) := advances_rowLaw
    have hS : ∀ p : DeliveryStage, p.rank ≤ 3 → StampLaw (Advances due due) p :=
      fun p hp r r' hs => hs.advances (Or.inl hp)
    have hC : ∀ r r', due r.id → StampedBy .confirmed r r' → Advances due due r r' :=
      fun r r' hd hs => hs.advances (Or.inr (Or.inl hd))
    have hmove : ∀ q ∈ p :: rows, ∀ db,
        Moves (Advances due due) (RowOk due) db (writeStage now req db q) := fun q hq db =>
      moves_writeStage hlaw.toRowRel hS hC fun href hall => (hdue _ ⟨q, hq, href, hall, rfl⟩).1
    have hhead := hmove p List.mem_cons_self db
    have hok₁ := hhead.forall (fun _ _ h hstep => h.step hstep) (fun _ h => h) hok
    obtain ⟨q, hq, href, hall, rfl⟩ := hshown
    rcases List.mem_cons.mp hq with rfl | hq
    · -- 先頭の伝言は、ここで順位 3 に届き、残りの押印は順位を下げない
      have htail : Moves (Advances due due) (RowOk due) (writeStage now req db q)
          (rows.foldl (writeStage now req) (writeStage now req db q)) :=
        moves_foldl hlaw.toRowRel (fun db x hx => hmove x (List.mem_cons_of_mem _ hx) db) _
      rcases htail.row _ r hr with ⟨r₁, hr₁, hstep⟩ | ⟨hid, hnew⟩
      · obtain ⟨b, hb⟩ := (hok₁ _ r₁ hr₁).stage
        obtain ⟨a', ha', hm⟩ := hstep.stage b hb
        rw [ha] at ha'
        cases ha'
        exact Nat.le_trans (writeStage_rank href hall hr₁ hb) hm.rank
      · have hlt := (hdue _ ⟨q, List.mem_cons_self, href, hall, rfl⟩).2
        exact absurd (Nat.lt_of_lt_of_le hlt hhead.nextId) (Nat.not_lt.mpr hid)
    · refine writeStages_rank hok₁ (fun id ⟨x, hx, h⟩ => ?_) ⟨q, hq, href, hall, rfl⟩ hr ha
      obtain ⟨hd, hlt⟩ := hdue id ⟨x, List.mem_cons_of_mem _ hx, h⟩
      exact ⟨hd, Nat.lt_of_lt_of_le hlt hhead.nextId⟩

/-- 取り出しの一歩。 -/
theorem moves_drain {db' : PromptDb} {notices : Nat → List AbandonNotice}
    {recoveryText : PromptRow → String} {q : DrainQuery} {d : Drained}
    (hok : ∀ id r, db.find? id = some r → RowOk (fun _ => False) r)
    (h : db.drainTx now notices w recoveryText q = .ok (d, db')) :
    Moves (Advances (shownDirect d.rows) fun _ => False) (RowOk fun _ => False) db db' := by
  have hlaw : RowLaw (Advances (shownDirect d.rows) (shownDirect d.rows))
    (RowOk (shownDirect d.rows)) := advances_rowLaw
  have hS : ∀ p : DeliveryStage, p.rank ≤ 3 →
      StampLaw (Advances (shownDirect d.rows) (shownDirect d.rows)) p :=
    fun p hp r r' hs => hs.advances (Or.inl hp)
  have hkeep : ∀ r r' a, r.stage? = some a → StampedBy a r r' →
      Advances (shownDirect d.rows) (shownDirect d.rows) r r' :=
    fun r r' a ha hs => hs.advances (Or.inr (Or.inr ha))
  have hC : ∀ r r', shownDirect d.rows r.id → StampedBy .confirmed r r' →
      Advances (shownDirect d.rows) (shownDirect d.rows) r r' :=
    fun r r' hd hs => hs.advances (Or.inr (Or.inl hd))
  have hok' : ∀ id r, db.find? id = some r → RowOk (shownDirect d.rows) r := by
    intro id r hr
    have h := hok id r hr
    exact ⟨h.stage, h.via, fun ha => Or.inr ((h.acked ha).resolve_left fun hf => hf)⟩
  refine moves_settle (moves_drainTx hlaw.toRowRel hS hkeep advances_ackLaw hC h
    fun p hp href hall => ⟨p, hp, href, hall, rfl⟩) hok' ?_
  -- 残るのは、見せた伝言の段階が transaction の終わりに順位 3 に届いていること
  intro id r a hr hshown ha
  have hselected : ∀ id, shownDirect d.rows id → id < db.nextId := by
    rintro id ⟨p, hp, -, -, rfl⟩
    obtain ⟨r₀, hr₀, -⟩ := drain_row_selected h hp
    exact lt_nextId hr₀
  unfold drainTx at h
  obtain ⟨⟨d, db₁⟩, hrender, ⟨⟩⟩ := bind_pure_eq_ok.mp h
  obtain ⟨current, hexp, -⟩ := drainRender_ok hrender
  have hm : Moves (Advances (shownDirect d.rows) (shownDirect d.rows)) (RowOk (shownDirect d.rows))
      db (drainMarks db₁ now q.request d.rows) :=
    (moves_expireSupervisorRelays hlaw.toRowRel hS hkeep advances_ackLaw hexp).trans hlaw.toRowRel
      (moves_drainMarks hlaw.toRowRel advances_ackLaw fun p hp href hall => ⟨p, hp, href, hall, rfl⟩)
  rw [drainRecord_eq] at hr
  refine writeStages_rank (hm.forall (fun _ _ h hstep => h.step hstep) (fun _ h => h) hok')
    (fun id hshown => ⟨hshown, ?_⟩) hshown hr ha
  exact Nat.lt_of_lt_of_le (hselected id hshown) hm.nextId

/-! ### 操作ごと -/

/-- 押印を通る操作の移りから、一歩の主張へ。 -/
theorem moves_stepFrom {db' : PromptDb} {confirm : Nat → Prop}
    (h : Moves (Advances confirm fun _ => False) (RowOk fun _ => False) db db')
    (hc : ∀ id r, db.find? id = some r → r.stage? = some .suppressed → confirm id →
      Acknowledges s id act) :
    Moves (StepFrom s act) (RowOk fun _ => False) db db' where
  nextId := h.nextId
  row := by
    intro id r' hr'
    rcases h.row id r' hr' with ⟨r, hr, hstep⟩ | hnew
    · refine Or.inl ⟨r, hr, fun hsound => hstep.stageStep hsound fun hs hcon => ?_⟩
      rw [Table.key_of_find? hr] at hcon ⊢
      exact hc id r hr hs hcon
    · exact Or.inr hnew

/-- 返事の turn。答えた伝言だけが確認される。 -/
theorem moves_operatorTurn {db' : PromptDb} {p : NewPrompt} {ackId : Option Nat}
    {out : EnqueueOutcome} (h : db.insertCompleteOperatorTurn p ackId = .ok (out, db')) :
    Moves (Advances (fun id => ackId = some id) fun _ => False) (RowOk fun _ => False) db db' := by
  have hrel : RowRel (Advances (fun id => ackId = some id) fun _ => False)
    (RowOk fun _ => False) := advances_rowLaw.toRowRel
  have hinsert : Moves _ _ db (db.insert p) := moves_insert hrel.refl p (hrel.new p _)
  rcases insertCompleteOperatorTurn_cases h with rfl | rfl | ⟨ack, db₁, rfl, hstamp, rfl⟩
  · exact .refl hrel.refl
  · exact hinsert
  · rcases hstamp with ⟨rfl, hnone⟩ | hstamp
    · refine hinsert.trans hrel (moves_setAcked hrel advances_ackLaw (by simp) fun r hr => ?_)
      rw [hnone] at hr
      cases hr
    · have hm := moves_stampAt hrel
        (fun r r' hr hs => hs.advances (Or.inr (Or.inl (congrArg some (Table.key_of_find? hr).symm))))
        hstamp
      refine (hinsert.trans hrel hm).trans hrel
        (moves_setAcked hrel advances_ackLaw (by simp) fun r hr => Or.inr ?_)
      obtain ⟨r₀, r₁, -, hs, hsame⟩ := stamp_row hstamp hr (by simp)
      rw [hsame.stage?]
      cases hs with
      | skipped _ hne => exact absurd rfl hne
      | @stamped _ _ next _ _ _ hn _ =>
        exact ⟨next, rfl, Nat.le_trans (by decide) (proposed_rank_le hn)⟩

/-- 宛先の確認。 -/
theorem moves_settled {db' : PromptDb} {id : Nat} {recipients : List String} {reply : Option Nat}
    (hok : ∀ id r, db.find? id = some r → RowOk (fun _ => False) r)
    (h : db.settleRecipientMessage now id recipients reply = .ok db') :
    Moves (Advances (fun j => j = id) fun _ => False) (RowOk fun _ => False) db db' := by
  have hrel : RowRel (Advances (fun j => j = id) fun j => j = id) (RowOk fun j => j = id) :=
    advances_rowLaw.toRowRel
  rcases settleRecipientMessage_cases h with rfl | rfl
  · obtain ⟨hp, hn⟩ := settleAcks_prompts now id reply recipients db
    exact .of_prompts_eq .refl hp hn
  · refine moves_settle (moves_acknowledged hrel ?_ ?_) ?_ ?_
    · intro r hid
      refine ⟨rfl, fun h => h, ?_, fun a ha => ⟨a, ha, .refl a⟩, fun _ => Or.inr (Or.inl hid)⟩
      intro hv
      cases hv
    · exact fun r r' hid hs => hs.advances (Or.inr (Or.inl hid))
    · intro j r hr
      have h := hok j r hr
      exact ⟨h.stage, h.via, fun ha => Or.inr ((h.acked ha).resolve_left fun hf => hf)⟩
    · rintro j r a hr rfl ha
      exact Nat.le_trans (by decide) (rank_le_of_stampIgnoringError (Or.inr rfl) hr ha)

/-- 段階の列が無かった頃の行の補い。 -/
theorem moves_hydrateProcessed (p : PromptRow → Bool) :
    Moves (Advances (fun _ => False) fun _ => False) (RowOk fun _ => False) db
      (db.hydrateProcessed p) := by
  refine moves_update .refl fun id r _ hp => ?_
  simp only [Bool.and_eq_true, Option.isNone_iff_eq_none] at hp
  refine ⟨rfl, fun h => h, fun h => h, ?_, Or.inl⟩
  intro a ha
  have henq : a = .enqueued := by
    unfold PromptRow.stage? at ha
    rw [hp.1.2] at ha
    exact (Option.some.inj ha).symm
  subst henq
  refine ⟨.delivered, rfl, by decide, ?_, ?_⟩
  · intro hs
    cases hs
  · intro hd
    cases hd

/--
期限切れの掃除。

写しを閉じた行は処理済みになるので、続く始末に選ばれない。始末に選ばれる行は、元の表の行のままである。
-/
theorem moves_expireStale {secs : Int} {notices : List AbandonNotice}
    (hg : stageGuard s (.op (.expireStalePending now w secs notices)) = true)
    (h : s.db.expireStalePending now w secs notices = .ok db') :
    Moves (StepFrom s act) (RowOk fun _ => False) s.db db' := by
  obtain ⟨db₁, existed, unresolved, hsettle, rfl⟩ := expireStalePending_cases h
  refine moves_thenNotify ?_ notices
  have hrow : ∀ id r, s.db.find? id = some r → expired (now - seconds secs) r = true →
      (transcriptMirror r = true → unconfirmedRank r = true)
        ∧ (outsideOperatorLane r = true → s.db.settledAsSurfaced r = false →
          unconfirmedRank r = true) := by
    intro id r hr hexp
    have hgr := List.all_eq_true.mp hg r (Table.mem_of_find? hr)
    rw [hexp] at hgr
    simp only [Bool.not_true, Bool.false_or, Bool.and_eq_true, Bool.or_eq_true,
      Bool.not_eq_true'] at hgr
    refine ⟨fun hm => hgr.1.resolve_left (by simp [hm]), fun hlane hs => ?_⟩
    exact hgr.2.resolve_left (by simp [hlane, hs])
  have hmirror : Moves (fun r r₁ => r₁ = r ∨ (r₁.processedAt ≠ none ∧ StepFrom s act r r₁))
      (fun _ => False) s.db
      (s.db.update (fun r => expired (now - seconds secs) r && transcriptMirror r)
        (expireMirrorRow now)) := by
    refine moves_update (fun _ => Or.inl rfl) fun id r hr hp => Or.inr ?_
    obtain ⟨hexp, hm⟩ := (Bool.and_eq_true _ _).mp hp
    refine ⟨by simp [expireMirrorRow], ?_⟩
    exact stepFrom_expireMirrorRow (processedAt_of_expired hexp) ((hrow id r hr hexp).1 hm)
  have haged : Moves (fun r₁ r₂ => r₂ = r₁ ∨ (r₁.processedAt = none ∧ StepFrom s act r₁ r₂))
      (RowOk fun _ => False)
      (s.db.update (fun r => expired (now - seconds secs) r && transcriptMirror r)
        (expireMirrorRow now)) db₁ := by
    refine moves_settleAgedRows (fun _ => Or.inl rfl) (fun id r₁ r₂ hr₁ hp hsettled => Or.inr ?_)
      hsettle
    obtain ⟨hexp, hlane⟩ := (Bool.and_eq_true _ _).mp hp
    have hproc := processedAt_of_expired hexp
    rcases hmirror.row id r₁ hr₁ with ⟨r, hr, rfl | ⟨hne, -⟩⟩ | ⟨-, hf⟩
    · exact ⟨hproc, hsettled.stepFrom (fun hs => ackedAt_of_not_settled hs)
        ((hrow id r₁ hr hexp).2 hlane)⟩
    · exact absurd hproc hne
    · exact hf.elim
  refine hmirror.comp haged ?_ ?_
  · rintro a b c (rfl | ⟨hproc, hab⟩) (rfl | ⟨hnone, hbc⟩)
    · exact stepFrom_refl c
    · exact hbc
    · exact hab
    · exact absurd hnone hproc
  · exact fun hf _ => hf.elim

/-- 操作の一歩。 -/
theorem moves_promptOp {o : PromptOp} {out : PromptOutcome} (hcon : Consistent s)
    (hg : stageGuard s (.op o) = true) (h : o.body s.db = .ok (out, db')) :
    Moves (StepFrom s (.op o)) (RowOk fun _ => False) s.db db' := by
  have hok : ∀ id r, s.db.find? id = some r → RowOk (fun _ => False) r :=
    fun id r hr => (hcon.row id r hr).ok
  by_cases ho : o.ordinary = true
  · exact moves_stepFrom (moves_op advances_opLaw ho h) fun _ _ _ _ hf => (hf : False).elim
  cases o with
  | operatorTurn p ackId =>
    obtain ⟨n, h⟩ := quiet_eq_ok h
    refine moves_stepFrom (moves_operatorTurn h) ?_
    rintro id r - - rfl
    rfl
  | settleRecipientMessage now id recipients reply =>
    refine moves_stepFrom (moves_settled hok (onlyDb_eq_ok h)) ?_
    rintro j r - - rfl
    rfl
  | cancelUnreadForShutdown now recipient session detail =>
    obtain ⟨ids, h⟩ := quiet_eq_ok h
    exact moves_cancel stepFrom_refl (fun r hsel => stepFrom_cancelRow rfl hsel) h
  | refreshQaRejectionTargets now w session promptId =>
    exact moves_refresh stepFrom_refl (fun r r' hsel hrouted => hrouted.stepFrom rfl hsel)
      (onlyDb_eq_ok h)
  | abandonPendingOlderThan now secs notices =>
    cases h
    refine moves_thenNotify (moves_update stepFrom_refl fun id r hr hexp => ?_) notices
    have hgr := List.all_eq_true.mp hg r (Table.mem_of_find? hr)
    rw [hexp] at hgr
    simp only [Bool.not_true, Bool.false_or, Bool.and_eq_true, Option.isNone_iff_eq_none] at hgr
    exact stepFrom_abandonRow (processedAt_of_expired hexp) hgr.1 hgr.2
  | expireStalePending now w secs notices =>
    exact moves_expireStale hg (onlyDb_eq_ok h)
  | abandonIneligibleSessionTargets now w targets session secs notices =>
    rcases abandonIneligible_cases (onlyDb_eq_ok h) with rfl | ⟨db₁, existed, unresolved, hsettle, rfl⟩
    · exact .refl stepFrom_refl
    · refine moves_thenNotify (moves_settleAgedRows stepFrom_refl ?_ hsettle) notices
      intro id r r' hr hp hsettled
      refine hsettled.stepFrom (fun hs => ackedAt_of_not_settled hs) fun hs => ?_
      have hgr := List.all_eq_true.mp hg r (Table.mem_of_find? hr)
      rw [hp, hs] at hgr
      exact hgr
  | demoteInferred =>
    cases h
    refine moves_update stepFrom_refl fun id r hr hp => ?_
    exact absurd (of_decide_eq_true hp) (hok id r hr).via
  | hydrateLegacyProcessed snapshot =>
    cases h
    exact moves_stepFrom (moves_hydrateProcessed _) fun _ _ _ _ hf => (hf : False).elim
  | hydrateProcessed =>
    cases h
    exact moves_stepFrom (moves_hydrateProcessed _) fun _ _ _ _ hf => (hf : False).elim
  | _ => exact absurd rfl ho

/-- 割り込める操作の最初の文は、伝言に触れない。 -/
theorem start_prompts {db' : PromptDb} {call : PromptCall} {pc : PromptPc}
    (h : call.start db now w = .ok (pc, db')) :
    db'.prompts = db.prompts ∧ db'.nextId = db.nextId := by
  cases call with
  | recordTransportDelivered id recipient =>
    simp only [PromptCall.start] at h
    split at h
    · cases h
      exact recordRecipientSurfaced_prompts db now id recipient _
    · cases h
      exact ⟨rfl, rfl⟩
  | drain c =>
    simp only [PromptCall.start, bind_eq_ok] at h
    obtain ⟨q, -, h⟩ := h
    split at h
    · cases pure_eq_ok.mp h
      exact ⟨rfl, rfl⟩
    · cases pure_eq_ok.mp h
      exact ⟨rfl, rfl⟩
  | _ =>
    cases h
    exact ⟨rfl, rfl⟩

/-- 割り込める操作の次の文。 -/
theorem moves_advance {pid : Nat} {ok : Bool} {notices : Nat → List AbandonNotice}
    {recoveryText : PromptRow → String} (hcon : Consistent s)
    (hact : act = .next pid now ok w notices recoveryText) (hg : stageGuard s act = true) :
    Moves (StepFrom s act) (RowOk fun _ => False) s.db
      ((s.pc pid).advance s.db now ok w notices recoveryText).2.2 := by
  subst hact
  have hok : ∀ id r, s.db.find? id = some r → RowOk (fun _ => False) r :=
    fun id r hr => (hcon.row id r hr).ok
  have hrefl : Moves (StepFrom s (.next pid now ok w notices recoveryText))
    (RowOk fun _ => False) s.db s.db := .refl stepFrom_refl
  simp only [stageGuard] at hg
  cases hpc : s.pc pid with
  | idle => exact hrefl
  | ackStamp id =>
    simp only [PromptPc.advance]
    split
    · have hrel : RowRel (Advances (fun j => j = id) fun _ => False) (RowOk fun _ => False) :=
        advances_rowLaw.toRowRel
      refine moves_stepFrom (moves_stampIgnoringError hrel fun r r' hr hs => ?_) ?_
      · exact hs.advances (Or.inr (Or.inl (Table.key_of_find? hr)))
      · rintro j r - - rfl
        exact hpc
    · exact hrefl
  | ackSet id =>
    rw [hpc] at hg
    dsimp only at hg
    have hrel : RowRel (Advances (fun _ => False) fun _ => False) (RowOk fun _ => False) :=
      advances_rowLaw.toRowRel
    refine moves_stepFrom (moves_updateId hrel.refl fun r hr hnone => ?_)
      fun _ _ _ _ hf => (hf : False).elim
    rw [hr] at hg
    simp only [Option.all_some, Bool.or_eq_true] at hg
    have hnone' := Option.isNone_iff_eq_none.mp hnone
    refine advances_ackLaw r now .explicitAck (by decide) hnone' (Or.inr ?_)
    exact settledRank_iff.mp (hg.resolve_left (by simp [hnone']))
  | infer ids =>
    cases ids with
    | nil => exact hrefl
    | cons id ids =>
      rw [hpc] at hg
      dsimp only at hg
      refine moves_updateId stepFrom_refl fun r hr hnone => ?_
      rw [hr] at hg
      simp only [Option.all_some, Bool.or_eq_true, Bool.and_eq_true, Option.isNone_iff_eq_none] at hg hnone
      have hfree := hg.resolve_left (by simp [hnone.1, hnone.2])
      refine stepFrom_assumeSeenRow (of_decide_eq_true hfree.1) ?_
      rw [Table.key_of_find? hr]
      simpa using hfree.2
  | poll ids =>
    refine moves_stepFrom (moves_update .refl fun id r _ _ => ?_) fun _ _ _ _ hf => (hf : False).elim
    exact .of_eq rfl rfl rfl rfl fun _ => rfl
  | claimDelivered id recipient => exact .of_prompts_eq stepFrom_refl rfl rfl
  | drain q =>
    simp only [PromptPc.advance]
    split
    · next d db₁ h =>
      refine moves_stepFrom (moves_drain hok h) fun id r hr hs hshown => ?_
      -- 取り下げた伝言は、取り出しに選ばれない
      obtain ⟨p, hp, -, -, rfl⟩ := hshown
      obtain ⟨r₀, hr₀, hsel, -⟩ := drain_row_selected h hp
      rw [hr] at hr₀
      cases hr₀
      have helig := (mem_drainSelection hsel).2
      exfalso
      unfold eligible stageReadable at helig
      rw [highestStage_of_stage? hs (by decide)] at helig
      simp [stageDeliverable, DeliveryStage.isTerminalNonDelivery, stageIs] at helig
    · exact hrefl

/-- 一歩。 -/
theorem moves_promptStep (hcon : Consistent s) (hg : stageGuard s act = true) :
    Moves (StepFrom s act) (RowOk fun _ => False) s.db (promptStep s act).2.db := by
  cases act with
  | op o =>
    simp only [promptStep]
    split
    · next h => exact moves_promptOp hcon hg h
    · exact .refl stepFrom_refl
  | begin pid now w call =>
    simp only [promptStep]
    split
    · split
      · next h =>
        obtain ⟨hp, hn⟩ := start_prompts h
        exact .of_prompts_eq stepFrom_refl hp hn
      · exact .refl stepFrom_refl
    · exact .refl stepFrom_refl
  | next pid now ok w notices recoveryText => exact moves_advance hcon rfl hg
  | crash pid => exact .refl stepFrom_refl

/-- 取り下げの控えは、取り下げられたままの番号である。 -/
theorem mem_keepWithdrawn {ids : List Nat} {id : Nat} (h : id ∈ keepWithdrawn db ids)
    (hr : db.find? id = some r) : id ∈ ids ∧ r.stage? = some .suppressed := by
  obtain ⟨hmem, hs⟩ := List.mem_filter.mp h
  refine ⟨hmem, ?_⟩
  rw [hr, Option.all_some] at hs
  unfold PromptRow.stage?
  rw [of_decide_eq_true hs]

/-- 新しく取り下げた番号が処理済みなら、保たれる。 -/
theorem consistent_of_moves {pc : Nat → PromptPc} {l : List Nat} (hcon : Consistent s)
    (h : Moves (StepFrom s act) (RowOk fun _ => False) s.db db')
    (hl : ∀ id ∈ l, id < db'.nextId ∧ ∀ r, db'.find? id = some r → r.processedAt.isSome) :
    Consistent ⟨db', pc, keepWithdrawn db' (l ++ s.withdrawn)⟩ where
  row := by
    intro id r' hr'
    have hid : r'.id = id := Table.key_of_find? hr'
    rcases h.row id r' hr' with ⟨r, hr, hstep⟩ | ⟨hnew, hok⟩
    · have hstep := hstep (hcon.row id r hr)
      refine ⟨hstep.ok, fun hw => ?_⟩
      rw [hid] at hw
      obtain ⟨hmem, hs⟩ := mem_keepWithdrawn hw hr'
      refine ⟨hs, ?_⟩
      rcases List.mem_append.mp hmem with hmem | hmem
      · exact (hl id hmem).2 r' hr'
      · exact hstep.processed ((hcon.row id r hr).withdrawn (Table.key_of_find? hr ▸ hmem)).2
    · refine ⟨hok, fun hw => ?_⟩
      rw [hid] at hw
      obtain ⟨hmem, hs⟩ := mem_keepWithdrawn hw hr'
      refine ⟨hs, ?_⟩
      rcases List.mem_append.mp hmem with hmem | hmem
      · exact (hl id hmem).2 r' hr'
      · exact absurd (hcon.withdrawn id hmem) (Nat.not_lt.mpr hnew)
  withdrawn := by
    intro id hw
    rcases List.mem_append.mp (List.mem_filter.mp hw).1 with hmem | hmem
    · exact (hl id hmem).1
    · exact Nat.lt_of_lt_of_le (hcon.withdrawn id hmem) h.nextId

/-- 取り下げた番号は、処理済みになる。 -/
theorem withdraws_processed {o : PromptOp} {out : PromptOutcome} (h : o.body db = .ok (out, db')) :
    ∀ id ∈ o.withdraws db, id < db'.nextId ∧ ∀ r, db'.find? id = some r → r.processedAt.isSome := by
  intro id hid
  unfold PromptOp.withdraws at hid
  split at hid
  · next now recipient session detail =>
    obtain ⟨ids, h⟩ := quiet_eq_ok h
    rw [h] at hid
    obtain ⟨rfl, hsweep⟩ := cancel_sweeps h
    obtain ⟨r₀, hr₀, rfl⟩ := List.mem_map.mp hid
    refine ⟨?_, fun r hr => ?_⟩
    · rw [hsweep.nextId]
      exact db.fresh r₀ (List.mem_filter.mp hr₀).1
    · obtain ⟨r₁, -, rfl⟩ := hsweep.row r₀.id hid r hr
      simp [cancelRow]
  · cases hid

theorem consistent_step (hcon : Consistent s) (hg : stageGuard s act = true) :
    Consistent (promptStep s act).2 := by
  have hm := moves_promptStep hcon hg
  cases act with
  | op o =>
    simp only [promptStep] at hm ⊢
    split at hm
    · next h => exact consistent_of_moves hcon hm (withdraws_processed h)
    · exact hcon
  | begin pid now w call =>
    simp only [promptStep] at hm ⊢
    split at hm
    · split at hm
      · exact consistent_of_moves (l := []) hcon hm (by simp)
      · exact hcon
    · exact hcon
  | next pid now ok w notices recoveryText => exact consistent_of_moves (l := []) hcon hm (by simp)
  | crash pid => exact ⟨hcon.row, hcon.withdrawn⟩

end Step

/-! ## 実行の全体 -/

theorem consistent_empty : Consistent .empty where
  row := by
    intro id r hr
    cases hr
  withdrawn := by
    intro id hid
    cases hid

/--
どの一歩も条件を満たす実行では、どの一歩の前後でも、段階は戻らず、取り下げた伝言は確認でしか動かず、確認のある伝言は
打ち切られない。
-/
theorem stages_advance {acts : List PromptAct}
    (h : Guarded promptStep (fun s act => stageGuard s act = true) .empty acts) :
    ∀ e ∈ trace promptStep .empty acts, ∀ id r r', e.before.db.find? id = some r →
      (promptStep e.before e.op).2.db.find? id = some r' → StagesAdvance e.before e.op r r' := by
  intro e he id r r' hr hr'
  obtain ⟨pre, post, rfl, hbefore, -⟩ := exists_split_of_mem_trace he
  obtain ⟨hpre, hpost⟩ := guarded_append.mp h
  have hcon : Consistent e.before := by
    rw [hbefore]
    exact run_invariant (fun s a hi hg => consistent_step hi hg) consistent_empty hpre
  rw [← hbefore] at hpost
  exact ((moves_promptStep hcon hpost.1).old hr hr' (hcon.row id r hr)).toStagesAdvance

/-- 割り込める操作の次の文。 -/
def continueAt (pid : Nat) (now : Time) : PromptAct :=
  .next pid now true {} (fun _ => []) fun r => r.prompt

/-- 伝言を足し、宛先が確認し、shutdown が別の伝言を取り下げる実行。 -/
def ackThenCancel : List PromptAct :=
  [.op (.enqueue { source := "supervisor", target := "ada", prompt := "first", createdAt := 0 }),
    .op (.enqueue { source := "supervisor", target := "ada", prompt := "second", createdAt := 1 }),
    .op (.stamp 2 (.transportDelivered 2) []),
    .begin 0 3 {} (.ack 1), continueAt 0 3, continueAt 0 4,
    .op (.cancelUnreadForShutdown 5 "ada" none "session ended")]

theorem stages_advance_ackThenCancel :
    (run promptStep .empty ackThenCancel).withdrawn = [2]
      ∧ ∀ e ∈ trace promptStep .empty ackThenCancel, ∀ id r r', e.before.db.find? id = some r →
        (promptStep e.before e.op).2.db.find? id = some r' → StagesAdvance e.before e.op r r' :=
  ⟨by decide, stages_advance (by decide)⟩

/-- 確認された未処理の伝言を、掃除が打ち切る。順位は 5 から 3 に下がる。 -/
theorem acked_message_abandoned :
    ¬ ∀ acts, ∀ e ∈ trace promptStep .empty acts, ∀ id r r', e.before.db.find? id = some r →
      (promptStep e.before e.op).2.db.find? id = some r' → StagesAdvance e.before e.op r r' := by
  intro h
  have hmem : ⟨run promptStep .empty ackThenCancel, .op (.abandonPendingOlderThan 6 0 []), .done⟩
      ∈ trace promptStep .empty (ackThenCancel ++ [.op (.abandonPendingOlderThan 6 0 [])]) := by
    rw [trace_append]
    exact List.mem_append_right _ (List.mem_singleton.mpr rfl)
  obtain ⟨r, hr, hacked, hstage⟩ : ∃ r, (run promptStep .empty ackThenCancel).db.find? 1 = some r
      ∧ r.ackedAt.isSome ∧ r.stage? = some .confirmed := by
    refine ⟨_, rfl, ?_, ?_⟩ <;> decide
  obtain ⟨r', hr', hstage'⟩ : ∃ r', (promptStep (run promptStep .empty ackThenCancel)
      (.op (.abandonPendingOlderThan 6 0 []))).2.db.find? 1 = some r'
      ∧ r'.stage? = some .abandoned := by
    refine ⟨_, rfl, ?_⟩
    decide
  have habandoned := (h _ _ hmem 1 r r' hr hr').abandoned hacked hstage'
  rw [hstage] at habandoned
  cases habandoned

end Cassy
