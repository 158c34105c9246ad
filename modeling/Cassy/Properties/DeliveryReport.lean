import Cassy.Prompt.Report
import Cassy.Properties.PromptSweeps

/-!
# 報告はいつでも作れる

空の表から操作を順に行って届くどの状態でも、どの行も報告の検査を通る（`delivery_reports_readable`）。段階、理由、
渡した時刻を書く操作は二十ほどあるが、どれも次の条件（`Reportable`）を保つ。

* 渡した時刻のある行は処理済みで、段階は `delivered`、`assumed_seen`、`confirmed` のどれかか、shutdown で
  取り下げた `suppressed` である
* `delivered` と `assumed_seen` の行には、渡した時刻がある

処理済みであることは検査に現れないが、掃除と poll が渡した伝言を書かないことはここから出る。
-/

namespace Cassy

open Infra PromptDb

/-- 段階と、渡した時刻と、理由の釣り合い。 -/
structure Reportable (r : PromptRow) : Prop where
  via : r.ackedVia ≠ some .inferredFromReply
  stage : ∃ s, r.stage? = some s
  delivered : r.stage? = some .delivered ∨ r.stage? = some .assumedSeen →
    r.transportDeliveredAt.isSome
  processed : r.transportDeliveredAt.isSome → r.processedAt.isSome
  transport : r.transportDeliveredAt.isSome →
    r.stage? = some .delivered ∨ r.stage? = some .assumedSeen ∨ r.stage? = some .confirmed
      ∨ (r.stage? = some .suppressed ∧ r.lastPendingReason = some .shutdownCancelled)

/-- 条件を保つ書き換え。 -/
def KeepsReport (r r' : PromptRow) : Prop := Reportable r → Reportable r'

section Rows

variable {r r' : PromptRow}
variable {now : Time}

/-- 渡していない行に、渡したことにならない段階を書く。 -/
theorem Reportable.of_undelivered {s : DeliveryStage} (hvia : r'.ackedVia ≠ some .inferredFromReply)
    (hnone : r'.transportDeliveredAt = none) (hs : r'.stage? = some s)
    (hd : s ≠ .delivered ∧ s ≠ .assumedSeen) : Reportable r' := by
  refine ⟨hvia, ⟨s, hs⟩, ?_, ?_, ?_⟩
  · rw [hs]
    rintro (h | h)
    · exact absurd (Option.some.inj h) hd.1
    · exact absurd (Option.some.inj h) hd.2
  · rw [hnone]
    intro h
    cases h
  · rw [hnone]
    intro h
    cases h

/-- 未処理の行は渡していない。 -/
theorem Reportable.undelivered (h : Reportable r) (hp : r.processedAt = none) :
    r.transportDeliveredAt = none := by
  cases ht : r.transportDeliveredAt with
  | none => rfl
  | some t =>
    have hproc := h.processed (by rw [ht]; rfl)
    rw [hp] at hproc
    cases hproc

/-- 未処理の行では、理由も処理の印も書き換えてよい。 -/
theorem Reportable.of_unprocessed (h : Reportable r) (hp : r.processedAt = none)
    (hvia : r'.ackedVia = r.ackedVia) (hstage : r'.highestStage = r.highestStage)
    (ht : r'.transportDeliveredAt = r.transportDeliveredAt) : Reportable r' := by
  have hs' : r'.stage? = r.stage? := by
    unfold PromptRow.stage?
    rw [hstage]
  have hnone := h.undelivered hp
  obtain ⟨s, hs⟩ := h.stage
  have hfree : ∀ s', r.stage? = some s' → s' = .delivered ∨ s' = .assumedSeen → False := by
    intro s' hs' hd
    have hsome : r.transportDeliveredAt.isSome := by
      rcases hd with rfl | rfl
      · exact h.delivered (Or.inl hs')
      · exact h.delivered (Or.inr hs')
    rw [hnone] at hsome
    cases hsome
  refine .of_undelivered (hvia ▸ h.via) (ht.trans hnone) (hs'.trans hs) ⟨?_, ?_⟩
  · exact fun he => hfree s hs (Or.inl he)
  · exact fun he => hfree s hs (Or.inr he)

/-- 検査に現れる列を変えない書き換え。 -/
theorem keepsReport_of_eq (hvia : r'.ackedVia = r.ackedVia) (hstage : r'.highestStage = r.highestStage)
    (ht : r'.transportDeliveredAt = r.transportDeliveredAt)
    (hproc : r.processedAt.isSome → r'.processedAt.isSome)
    (hreason : r'.lastPendingReason = r.lastPendingReason) : KeepsReport r r' := by
  intro h
  have hs : r'.stage? = r.stage? := by
    unfold PromptRow.stage?
    rw [hstage]
  refine ⟨hvia ▸ h.via, hs ▸ h.stage, ?_, ?_, ?_⟩
  · rw [hs, ht]
    exact h.delivered
  · rw [ht]
    exact fun hd => hproc (h.processed hd)
  · rw [ht, hs, hreason]
    exact h.transport

/-- 確認の押印は、渡した時刻に触れない。 -/
theorem Reportable.confirmed (h : Reportable r) (hvia : r'.ackedVia = r.ackedVia)
    (hs : r'.stage? = some .confirmed) (ht : r'.transportDeliveredAt = r.transportDeliveredAt)
    (hproc : r.processedAt.isSome → r'.processedAt.isSome) : Reportable r' := by
  refine ⟨hvia ▸ h.via, ⟨_, hs⟩, ?_, ?_, ?_⟩
  · rw [hs]
    rintro (h | h) <;> cases h
  · rw [ht]
    exact fun hd => hproc (h.processed hd)
  · exact fun _ => Or.inr (Or.inr (Or.inl hs))

/-- 押印は処理の印を消さない。 -/
theorem stampRow_processed {current next : DeliveryStage} {opts : AtomicStampOpts}
    (h : r.processedAt.isSome) : (stampRow now current next opts r).processedAt.isSome := by
  show (if _ then r.processedAt.or (some now) else r.processedAt).isSome = true
  split
  · rw [Option.isSome_or, h]
    rfl
  · exact h

/-- `delivered` の押印。 -/
theorem reportable_stampDelivered {current : DeliveryStage} {opts : AtomicStampOpts}
    (h : Reportable r) : Reportable (stampRow now current .delivered opts r) := by
  have ht : (stampRow now current .delivered opts r).transportDeliveredAt
      = r.transportDeliveredAt.or (some now) := rfl
  have hp : (stampRow now current .delivered opts r).processedAt
      = r.processedAt.or (some now) := by
    show (if _ then _ else _) = _
    rw [if_pos]
    simp
  refine ⟨h.via, ⟨_, rfl⟩, fun _ => ?_, fun _ => ?_, fun _ => Or.inl rfl⟩
  · rw [ht]
    cases r.transportDeliveredAt <;> rfl
  · rw [hp]
    cases r.processedAt <;> rfl

/-- 段階を動かさない押印。 -/
theorem reportable_stampSame {current : DeliveryStage} {opts : AtomicStampOpts} (h : Reportable r)
    (hs : r.stage? = some current)
    (hlive : current = .suppressed → r.lastPendingReason ≠ some .shutdownCancelled) :
    Reportable (stampRow now current current opts r) := by
  by_cases hd : current = .delivered
  · subst hd
    exact reportable_stampDelivered h
  · have ht : (stampRow now current current opts r).transportDeliveredAt
        = r.transportDeliveredAt := if_neg (by simpa using hd)
    refine ⟨h.via, ⟨current, rfl⟩, ?_, ?_, ?_⟩
    · rw [ht, stage?_stampRow, ← hs]
      exact h.delivered
    · rw [ht]
      exact fun hd => stampRow_processed (h.processed hd)
    · rw [ht, stage?_stampRow]
      intro hd
      rcases h.transport hd with h | h | h | ⟨h, hr⟩
      · exact Or.inl (hs.symm.trans h)
      · exact Or.inr (Or.inl (hs.symm.trans h))
      · exact Or.inr (Or.inr (Or.inl (hs.symm.trans h)))
      · rw [hs] at h
        exact absurd hr (hlive (Option.some.inj h))

/-- 押印の一回。 -/
theorem StampedBy.keepsReport {proposed : DeliveryStage} (h : StampedBy proposed r r')
    (hp : proposed.rank ≤ 3 ∨ proposed = .confirmed ∨ r.stage? = some proposed) :
    KeepsReport r r' := by
  intro hr
  cases h with
  | skipped => exact hr
  | @stamped now current next opts id hs hn hlive =>
    by_cases hsame : next = current
    · -- 段階は動かない。取り下げた伝言への押印なら確認だが、確認は段階を動かす
      subst hsame
      refine reportable_stampSame hr hs fun hsup hreason => hlive ⟨hsup, ?_, hreason⟩
      rintro rfl
      rw [resolve_confirmed, hsup] at hn
      cases hn
    · rcases resolveStageTransition_cases hn with he | ⟨rfl, hlt⟩
      · exact absurd he hsame
      · by_cases hd : next = .delivered
        · subst hd
          exact reportable_stampDelivered hr
        by_cases hc : next = .confirmed
        · subst hc
          exact hr.confirmed rfl rfl rfl stampRow_processed
        have hrank : next.rank ≤ 3 := by
          rcases hp with hp | hp | hp
          · exact hp
          · exact absurd hp hc
          · rw [hs] at hp
            exact absurd (Option.some.inj hp).symm hsame
        have hlow : current.rank < 3 := by
          rcases hlt with hlt | ⟨-, hdel⟩
          · exact Nat.lt_of_lt_of_le hlt hrank
          · exact absurd hdel hd
        have hnone : r.transportDeliveredAt = none := by
          cases ht : r.transportDeliveredAt with
          | none => rfl
          | some t =>
            exfalso
            rcases hr.transport (by rw [ht]; rfl) with h | h | h | ⟨h, -⟩
            all_goals
              rw [hs] at h
              cases h
              exact absurd hlow (by decide)
        refine Reportable.of_undelivered hr.via ?_ (stage?_stampRow ..) ⟨hd, ?_⟩
        · rw [show (stampRow now current next opts r).transportDeliveredAt = r.transportDeliveredAt
            from if_neg (by simpa using hd)]
          exact hnone
        · rintro rfl
          exact absurd hrank (by decide)

theorem reportable_toRow (p : NewPrompt) (id : Nat) : Reportable (p.toRow id) :=
  .of_undelivered (by simp [NewPrompt.toRow]) rfl rfl (by decide)

/-- 確認の書き込み。 -/
theorem keepsReport_acked {via : AckedVia} {acked : Option Time} (hvia : via ≠ .inferredFromReply) :
    KeepsReport r { r with ackedAt := acked, ackedVia := some via } := by
  intro h
  refine ⟨fun he => hvia (Option.some.inj he), h.stage, h.delivered, h.processed, h.transport⟩

/-- 報告の条件は、操作の法則を満たす。 -/
theorem keepsReport_opLaw : OpLaw KeepsReport Reportable where
  refl := fun _ h => h
  trans := fun hab hbc h => hbc (hab h)
  new := reportable_toRow
  newStep := fun h hstep => hstep h
  text := fun _ _ _ => keepsReport_of_eq rfl rfl rfl (fun h => h) rfl
  same := by
    intro r r' h
    refine keepsReport_of_eq h.ackedVia h.highestStage h.transportDeliveredAt ?_ h.lastPendingReason
    rw [h.processedAt]
    exact fun h => h
  stamp := fun p hp r r' hs => hs.keepsReport (Or.inl hp)
  ack := fun r now via hvia _ _ => keepsReport_acked hvia
  edit := by
    intro e r
    cases e <;> exact keepsReport_of_eq rfl rfl rfl (fun h => h) rfl
  processed := fun r t => keepsReport_of_eq rfl rfl rfl (fun _ => rfl) rfl
  retarget := by
    intro successor session detail r hp h
    exact h.of_unprocessed hp rfl rfl rfl

/-! ## 押印を通らない書き込み -/

theorem keepsReport_abandonRow {reason : PendingReason} {detail : String}
    (hp : r.processedAt = none) : KeepsReport r (abandonRow now reason detail r) :=
  fun h => .of_undelivered h.via (h.undelivered hp) rfl (by decide)

theorem keepsReport_expireMirrorRow (hp : r.processedAt = none) :
    KeepsReport r (expireMirrorRow now r) :=
  fun h => .of_undelivered h.via (h.undelivered hp) rfl (by decide)

theorem SettledFrom.keepsReport {surfaced : Bool} (h : SettledFrom surfaced now r r') :
    KeepsReport r r' := by
  cases h with
  | delivered _ h => exact h.keepsReport (Or.inl (Nat.le_refl 3))
  | abandoned _ _ hp => exact keepsReport_abandonRow hp
  | kept => exact fun h => h

/-- 取り下げ。渡した時刻は残り、理由がそれを許す。 -/
theorem keepsReport_cancelRow {detail : String} : KeepsReport r (cancelRow now detail r) := by
  intro h
  refine ⟨h.via, ⟨_, rfl⟩, ?_, fun _ => ?_, fun _ => Or.inr (Or.inr (Or.inr ⟨rfl, rfl⟩))⟩
  · rintro (h | h) <;> cases h
  · show (r.processedAt.or (some now)).isSome = true
    cases r.processedAt <;> rfl

theorem RoutedFrom.keepsReport {r₀ : PromptRow} (h : RoutedFrom r₀ r r') : KeepsReport r r' := by
  cases h with
  | kept => exact fun h => h
  | readdressed => exact fun h => .of_undelivered h.via rfl rfl (by decide)
  | withdrawn h => exact h.keepsReport (Or.inl (Nat.le_refl 3))

/-- 旧い行の補い。 -/
theorem keepsReport_hydrate (hp : r.processedAt.isSome) :
    KeepsReport r { r with highestStage := some (.stage .delivered), transportDeliveredAt := r.processedAt } :=
  fun h => ⟨h.via, ⟨_, rfl⟩, fun _ => hp, fun _ => hp, fun _ => Or.inl rfl⟩

/-- 推定。渡した伝言に限る。 -/
theorem keepsReport_assumeSeenRow (ht : r.transportDeliveredAt.isSome) :
    KeepsReport r (assumeSeenRow now r) :=
  fun h => ⟨h.via, ⟨_, rfl⟩, fun _ => ht, h.processed, fun _ => Or.inr (Or.inl rfl)⟩

end Rows

/-! ## 操作ごと -/

section Ops

variable {db db' : PromptDb}

/-- 表のどの行も、報告の検査を通る。 -/
def AllReportable (db : PromptDb) : Prop := ∀ id r, db.find? id = some r → Reportable r

theorem AllReportable.step (h : AllReportable db) (hm : Moves KeepsReport Reportable db db') :
    AllReportable db' :=
  hm.forall (fun _ _ hr hstep => hstep hr) (fun _ h => h) h

/-- 確認の押印。 -/
theorem stampedBy_confirmed_keepsReport {r r' : PromptRow} (h : StampedBy .confirmed r r') :
    KeepsReport r r' :=
  h.keepsReport (Or.inr (Or.inl rfl))

/-- 一つの操作。推定の確認を取り消す行は、条件を満たす表には無い。 -/
theorem moves_report {o : PromptOp} {out : PromptOutcome} (hok : AllReportable db)
    (h : o.body db = .ok (out, db')) : Moves KeepsReport Reportable db db' := by
  refine moves_sweep keepsReport_opLaw ?_ h
  exact {
    acked := fun _ _ _ => keepsReport_acked
    confirmed := fun _ _ => stampedBy_confirmed_keepsReport
    cancelled := fun _ _ _ => keepsReport_cancelRow
    routed := fun _ _ _ => RoutedFrom.keepsReport
    abandoned := fun _ _ _ _ => keepsReport_abandonRow
    mirror := fun _ _ => keepsReport_expireMirrorRow
    settled := fun _ _ _ _ => SettledFrom.keepsReport
    demoted := fun id r _ hr hvia => absurd hvia (hok id r hr).via
    hydrated := fun _ => keepsReport_hydrate }

/-! ## 呼び出し -/

/-- 呼び出しの途中で成り立つこと。推定の候補は渡した伝言、poll の候補は未処理の伝言である。 -/
def PendingCall (db : PromptDb) : PromptPc → Prop
  | .infer ids => ∀ id ∈ ids, ∀ r, db.find? id = some r → r.transportDeliveredAt.isSome
  | .poll ids => ∀ id ∈ ids, ∀ r, db.find? id = some r → r.processedAt = none
  | _ => True

/-- poll の候補は、候補の条件を満たす。 -/
theorem polled_row {target session : Option String} {limit id : Nat} {r : PromptRow}
    (hid : id ∈ db.pollCandidates target session limit) (hr : db.find? id = some r) :
    (r.processedAt.isNone && target.all r.addressedTo
      && (session.isNone || r.factorySession.isNone || r.factorySession = session)) = true := by
  unfold pollCandidates at hid
  dsimp only at hid
  obtain ⟨r₀, hr₀, rfl⟩ := List.mem_map.mp hid
  have hmem := List.mem_of_mem_take hr₀
  rw [List.mem_insertionSort] at hmem
  exact selected_row (List.mem_map.mpr ⟨r₀, hmem, rfl⟩) hr

theorem start_pendingCall {now : Time} {w : Surroundings} {call : PromptCall} {pc : PromptPc}
    (hok : AllReportable db) (h : call.start db now w = .ok (pc, db')) :
    AllReportable db' ∧ PendingCall db' pc := by
  cases call with
  | ack id =>
    cases h
    exact ⟨hok, trivial⟩
  | ackByDedupeKey key =>
    cases h
    refine ⟨hok, ?_⟩
    split <;> trivial
  | ackDelivered recipients senders session replyAt =>
    cases h
    refine ⟨hok, ?_⟩
    split
    · trivial
    · intro id hid r hr
      have hp := selected_row hid hr
      simp only [Bool.and_eq_true] at hp
      exact hp.1.1.1.1.1.2
  | poll target session limit =>
    cases h
    refine ⟨hok, fun id hid r hr => ?_⟩
    have hp := polled_row hid hr
    simp only [Bool.and_eq_true] at hp
    exact Option.isNone_iff_eq_none.mp hp.1.1
  | recordTransportDelivered id recipient =>
    simp only [PromptCall.start] at h
    split at h
    · cases h
      refine ⟨?_, trivial⟩
      obtain ⟨hp, hn⟩ := recordRecipientSurfaced_prompts db now id recipient .transportClaimed
      exact hok.step (.of_prompts_eq keepsReport_opLaw.refl hp hn)
    · cases h
      exact ⟨hok, trivial⟩
  | drain c =>
    simp only [PromptCall.start, bind_eq_ok] at h
    obtain ⟨q, -, h⟩ := h
    split at h
    · cases pure_eq_ok.mp h
      exact ⟨hok, trivial⟩
    · cases pure_eq_ok.mp h
      exact ⟨hok, trivial⟩

theorem advance_pendingCall (now : Time) (ok : Bool) (w : Surroundings)
    (notices : Nat → List AbandonNotice) (recoveryText : PromptRow → String) {pc : PromptPc}
    (hok : AllReportable db) (hpc : PendingCall db pc) :
    AllReportable (pc.advance db now ok w notices recoveryText).2.2
      ∧ PendingCall (pc.advance db now ok w notices recoveryText).2.2
        (pc.advance db now ok w notices recoveryText).2.1 := by
  have hrel := keepsReport_opLaw.toRowRel
  have hrefl := keepsReport_opLaw.refl
  cases pc with
  | idle => exact ⟨hok, trivial⟩
  | ackStamp id =>
    refine ⟨?_, trivial⟩
    simp only [PromptPc.advance]
    split
    · exact hok.step (moves_stampIgnoringError hrel fun r r' _ hs => stampedBy_confirmed_keepsReport hs)
    · exact hok
  | ackSet id =>
    exact ⟨hok.step (moves_updateId hrefl fun r _ _ => keepsReport_acked (by decide)), trivial⟩
  | infer ids =>
    cases ids with
    | nil => exact ⟨hok, trivial⟩
    | cons id ids =>
      refine ⟨hok.step (moves_updateId hrefl fun r hr _ => ?_), ?_⟩
      · exact keepsReport_assumeSeenRow (hpc id List.mem_cons_self r hr)
      · intro j hj r' hr'
        have hm : Moves (fun r r' => r'.transportDeliveredAt = r.transportDeliveredAt)
            (fun _ => False) db (db.assumeSeen now id) := by
          refine moves_updateId ?_ ?_
          · exact fun _ => rfl
          · exact fun _ _ _ => rfl
        rcases hm.row j r' hr' with ⟨r, hr, he⟩ | ⟨-, hf⟩
        · rw [he]
          exact hpc j (List.mem_cons_of_mem _ hj) r hr
        · exact hf.elim
  | poll ids =>
    refine ⟨hok.step (moves_update hrefl fun id r hr hp => ?_), trivial⟩
    intro h
    have hnone : r.processedAt = none := by
      refine hpc id ?_ r hr
      rw [← Table.key_of_find? hr]
      simpa using hp
    exact h.of_unprocessed hnone rfl rfl rfl
  | claimDelivered id recipient => exact ⟨hok, trivial⟩
  | drain q =>
    simp only [PromptPc.advance]
    split
    · next htx =>
      refine ⟨hok.step ?_, trivial⟩
      exact moves_drainTx (D := fun _ => True) hrel keepsReport_opLaw.stamp
        (fun r r' s hs hstamp => hstamp.keepsReport (Or.inr (Or.inr hs)))
        (fun r now via hvia _ _ => keepsReport_acked hvia)
        (fun r r' _ hs => stampedBy_confirmed_keepsReport hs) htx fun _ _ _ _ => trivial
    · exact ⟨hok, trivial⟩

/-- 割り込まれない呼び出しの間、どの行も検査を通る。 -/
theorem finish_allReportable {clock : Nat → Time} {ok : Bool} {w : Surroundings}
    {notices : Nat → List AbandonNotice} {recoveryText : PromptRow → String} :
    ∀ {n : Nat} {pc : PromptPc} {db : PromptDb}, AllReportable db → PendingCall db pc →
      AllReportable (pc.finish clock ok w notices recoveryText n db).2
  | 0, pc, db, hok, _ => hok
  | n + 1, pc, db, hok, hpc => by
    obtain ⟨hok', hpc'⟩ := advance_pendingCall (clock n) ok w notices recoveryText hok hpc
    show AllReportable ((pc.advance db (clock n) ok w notices recoveryText).2.1.finish clock ok w
      notices recoveryText n (pc.advance db (clock n) ok w notices recoveryText).2.2).2
    exact finish_allReportable hok' hpc'

theorem serialStep_allReportable (hok : AllReportable db) (o : SerialOp) :
    AllReportable (serialStep db o) := by
  cases o with
  | op o =>
    simp only [serialStep]
    split
    · next h => exact hok.step (moves_report hok h)
    · exact hok
  | call c now clock ok w notices recoveryText =>
    simp only [serialStep]
    split
    · next h =>
      obtain ⟨hok', hpc⟩ := start_pendingCall hok h
      exact finish_allReportable hok' hpc
    · exact hok

end Ops

/-! ## 実行の全体 -/

/-- 報告の検査する釣り合い。 -/
structure StageInvariants (r : PromptRow) : Prop where
  delivered : r.stage? = some .delivered ∨ r.stage? = some .assumedSeen →
    r.transportDeliveredAt.isSome
  partially : r.stage? = some .partiallyDelivered → r.transportDeliveredAt = none
  undelivered : r.stage? = some .dropped ∨ r.stage? = some .suppressed ∨ r.stage? = some .abandoned →
    r.transportDeliveredAt.isSome →
    r.stage? = some .suppressed ∧ r.lastPendingReason = some .shutdownCancelled

theorem Reportable.stageInvariants {r : PromptRow} (h : Reportable r) : StageInvariants r := by
  refine ⟨h.delivered, fun hs => ?_, fun hs ht => ?_⟩
  · cases ht : r.transportDeliveredAt with
    | none => rfl
    | some t =>
      exfalso
      have hstages := h.transport (by rw [ht]; rfl)
      simp [hs] at hstages
  · rcases h.transport ht with h | h | h | h
    · simp [h] at hs
    · simp [h] at hs
    · simp [h] at hs
    · exact h

/-- 検査を通る行の報告は、回数が `u32` に収まるかぎり作れる。 -/
theorem messageDeliveryReport_ok {db : PromptDb} (hok : AllReportable db) (id : Nat) :
    (∃ report, db.messageDeliveryReport id = .ok report)
      ∨ ∃ r, db.find? id = some r ∧ 2 ^ 32 ≤ r.deliveryAttempts
        ∧ db.messageDeliveryReport id
          = .error (.database s!"Integer {r.deliveryAttempts} out of range at index 0") := by
  unfold messageDeliveryReport
  cases hr : db.find? id with
  | none => exact Or.inl ⟨none, rfl⟩
  | some r =>
    have hrow := hok id r hr
    obtain ⟨s, hs⟩ := hrow.stage
    have hinv := hrow.stageInvariants
    have hcheck : checkStage id s r = .ok () := by
      unfold checkStage
      rw [ensure_of, ok_bind]
      · dsimp only
        rw [ensure_of, ok_bind, ensure_of]
        · rintro ⟨rfl, ht⟩
          rw [hinv.partially hs] at ht
          cases ht
        · rintro ⟨hterm, ht, hshut⟩
          have hkind : r.stage? = some .dropped ∨ r.stage? = some .suppressed
              ∨ r.stage? = some .abandoned := by
            rw [hs]
            cases s with
            | dropped => exact Or.inl rfl
            | suppressed => exact Or.inr (Or.inl rfl)
            | abandoned => exact Or.inr (Or.inr rfl)
            | _ => cases hterm
          obtain ⟨hsup, hreason⟩ := hinv.undelivered hkind ht
          exact hshut ⟨Option.some.inj (hs.symm.trans hsup), hreason⟩
      · rintro ⟨hd, hnone⟩
        have hsome := hinv.delivered (by rw [hs]; simpa using hd)
        rw [Option.isNone_iff_eq_none.mp hnone] at hsome
        cases hsome
    dsimp only
    rw [(readHighestStage_eq_ok hr).mpr hs, ok_bind, hcheck, ok_bind]
    by_cases hn : r.deliveryAttempts < 2 ^ 32
    · refine Or.inl ?_
      unfold deliveryRetry
      rw [ensure_of hn]
      exact ⟨_, rfl⟩
    · refine Or.inr ⟨r, rfl, Nat.le_of_not_lt hn, ?_⟩
      unfold deliveryRetry ensure
      rw [if_neg hn]
      rfl

/--
空の表から操作を順に行って届くどの状態でも、どの行も報告の検査を通り、報告が食い違いの誤りになることはない。
-/
theorem delivery_reports_readable (ops : List SerialOp) :
    (∀ id r, (ops.foldl serialStep .empty).find? id = some r → StageInvariants r)
      ∧ ∀ id e, (ops.foldl serialStep .empty).messageDeliveryReport id = .error e →
        ∀ detail, e ≠ invariantViolated id detail := by
  have hok : AllReportable (ops.foldl serialStep .empty) := by
    have hfold : ∀ (ops : List SerialOp) db, AllReportable db →
        AllReportable (ops.foldl serialStep db) := by
      intro ops
      induction ops with
      | nil => exact fun db h => h
      | cons o ops ih => exact fun db h => ih _ (serialStep_allReportable h o)
    refine hfold ops _ fun id r hr => ?_
    cases hr
  refine ⟨fun id r hr => (hok id r hr).stageInvariants, fun id e he detail hinv => ?_⟩
  rcases messageDeliveryReport_ok hok id with ⟨report, h⟩ | ⟨r, -, -, h⟩
  · rw [he] at h
    cases h
  · rw [he, hinv] at h
    cases h

end Cassy
