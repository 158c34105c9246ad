import Cassy.Properties.PromptReceipts

/-!
# 本文が見えるのは一度だけ

どの順に取り出し、予約、受領の記録、確認が割り込んでも、本文の見えた証拠は伝言があるかぎり残り、証拠のある伝言の
予約は取れず、名指しの読み出しと poll の再掲を除く取り出しが同じ宛先に同じ本文を二度返すことはない。

ただ一つ、digest の取り出しは、据え置かれた予約のある行を拾いながら予約を引き取らない。受領は予約のまま残り、放せば
次の取り出しが同じ本文をまた返す。`surfaced_at_most_once` は、digest の取り出しがそのような行を拾わない実行についての
主張で、`digest_body_returned_twice` が拾ったときの例である。
-/

namespace Cassy

open Infra PromptDb

/-! ## 取り出しと証拠 -/

section Drain

variable {db db' : PromptDb} {now : Time} {notices : Nat → List AbandonNotice} {w : Surroundings}
  {recoveryText : PromptRow → String} {q : DrainQuery} {d : Drained} {req : DrainRequest}

theorem expireSupervisorRelays_seen : ∀ {rows : List PromptRow} {db db' : PromptDb}
    {current : List PromptRow},
    expireSupervisorRelays now notices w rows db = .ok (current, db') → db'.seen = db.seen
  | [], db, db', current, h => by
    cases h
    rfl
  | r :: rest, db, db', current, h => by
    unfold expireSupervisorRelays at h
    split at h
    · obtain ⟨db₁, hrelay, h⟩ := bind_eq_ok.mp h
      have hseen : db₁.seen = db.seen := by
        unfold expireRelay at hrelay
        dsimp only at hrelay
        obtain ⟨stage, -, hrelay⟩ := bind_eq_ok.mp hrelay
        obtain ⟨db₂, hstamp, hrelay⟩ := bind_eq_ok.mp hrelay
        rw [← pure_eq_ok.mp hrelay]
        show db₂.seen = db.seen
        exact stampAt_seen hstamp
      exact (expireSupervisorRelays_seen h).trans hseen
    · obtain ⟨⟨current', db₁⟩, hrest, ⟨⟩⟩ := bind_pure_eq_ok.mp h
      exact expireSupervisorRelays_seen hrest

/-- 受領の上書きが証拠に及ぶのは、poll の再掲だけである。 -/
theorem keeps_writeReceipt (hsrc : resurfacesPoll req.transport = true → req.source = .hookSurfaced)
    (p : Rendered) : Keeps db (writeReceipt now req db p) := by
  unfold writeReceipt
  split
  · exact .refl
  · refine keeps_upsertSeen fun x hp hsurf => ?_
    unfold drainOverwrites at hp
    simp only [Bool.or_eq_true, Bool.and_eq_true, decide_eq_true_eq] at hp
    unfold SeenRow.surfaced at hsurf
    rcases hp with (hx | ⟨-, hx⟩) | ⟨ht, hx⟩
    · rw [hx] at hsurf
      cases hsurf
    · rw [hx] at hsurf
      cases hsurf
    · exact ⟨hx, congrArg some (hsrc ht)⟩

theorem keeps_writeHookAck (p : Rendered) : Keeps db (writeHookAck now db p) := by
  unfold writeHookAck
  split
  · exact .refl
  · exact .of_seen_eq (moves_updateId (fun _ => trivial) fun _ _ _ => trivial) rfl

theorem keeps_stampIgnoringError {id : Nat} {proposed : DeliveryStage} {opts : AtomicStampOpts} :
    Keeps db (db.stampIgnoringError now id proposed opts) :=
  .of_seen_eq (moves_stampIgnoringError true_opLaw.toRowRel fun _ _ _ _ => trivial)
    (stampIgnoringError_seen ..)

theorem keeps_writeStage (p : Rendered) : Keeps db (writeStage now req db p) := by
  unfold writeStage
  split
  · exact keeps_updateSeen fun _ => rfl
  · split
    · exact .refl
    · split
      · exact .refl
      · next hstamp =>
        have hk : Keeps db _ := .of_seen_eq
          (moves_stamp true_opLaw.toRowRel (fun _ _ _ => trivial) hstamp) (stampAt_seen hstamp)
        split
        · exact hk.trans keeps_stampIgnoringError
        · exact hk

/-- 受領の後の記録。 -/
theorem keeps_afterReceipts (rows : List Rendered) :
    Keeps (rows.foldl (writeReceipt now req) db) (db.drainRecord now req rows) := by
  have hack : ∀ db, Keeps db (rows.foldl (writeHookAck now) db) := fun db =>
    Keeps.foldl (I := fun _ => True) trivial fun p _ db _ => ⟨keeps_writeHookAck p, trivial⟩
  have hstage : ∀ db, Keeps db (rows.foldl (writeStage now req) db) := fun db =>
    Keeps.foldl (I := fun _ => True) trivial fun p _ db _ => ⟨keeps_writeStage p, trivial⟩
  unfold drainRecord
  dsimp only
  split
  · exact (hack _).trans (hstage _)
  · exact hstage _

/-- 取り出しの前半は、受領に触れない。 -/
theorem keeps_drainRender (h : db.drainRender now notices w recoveryText q = .ok (d, db')) :
    Keeps db db' ∧ db'.seen = db.seen := by
  obtain ⟨current, hexp, -⟩ := drainRender_ok h
  have hseen := expireSupervisorRelays_seen hexp
  refine ⟨.of_seen_eq ?_ hseen, hseen⟩
  exact moves_expireSupervisorRelays true_opLaw.toRowRel (fun _ _ _ _ _ => trivial)
    (fun _ _ _ _ _ => trivial) true_opLaw.ack hexp

/-- 取り出しの全体。 -/
theorem keeps_drainTx
    (hsrc : resurfacesPoll q.request.transport = true → q.request.source = .hookSurfaced)
    (h : db.drainTx now notices w recoveryText q = .ok (d, db')) : Keeps db db' := by
  unfold drainTx at h
  obtain ⟨⟨d, db₁⟩, hrender, ⟨⟩⟩ := bind_pure_eq_ok.mp h
  have hreceipts : Keeps db₁ (d.rows.foldl (writeReceipt now q.request) db₁) :=
    Keeps.foldl (I := fun _ => True) trivial fun p _ db _ => ⟨keeps_writeReceipt hsrc p, trivial⟩
  exact ((keeps_drainRender hrender).1.trans hreceipts).trans (keeps_afterReceipts d.rows)

/-- 受領を書けば証拠になる。今の受領は無いか、証拠か、上書きできる行である。 -/
def Writable (req : DrainRequest) (db : PromptDb) (id : Nat) : Prop :=
  ∀ x, db.receipt? id req.recipient = some x → x.surfaced = true ∨ drainOverwrites req.transport x = true

/-- 証拠のある受領。 -/
def SurfacedTo (db : PromptDb) (id : Nat) (recipient : String) : Prop :=
  (db.receipt? id recipient).any SeenRow.surfaced = true

instance (db : PromptDb) (id : Nat) (recipient : String) : Decidable (SurfacedTo db id recipient) :=
  inferInstanceAs (Decidable (_ = true))

theorem surfacedTo_iff {id : Nat} {recipient : String} : SurfacedTo db id recipient ↔
    ∃ x, db.receipt? id recipient = some x ∧ x.surfaced = true := by
  unfold SurfacedTo
  rw [Option.any_eq_true]

/-- もう返されない伝言。消えたか、証拠がある。 -/
structure Spent (db : PromptDb) (id : Nat) (recipient : String) : Prop where
  issued : id < db.nextId
  surfaced : (db.find? id).isSome → SurfacedTo db id recipient

/-- 一度もう返されないとなった伝言は、以後も返されない。 -/
theorem Spent.keep {id : Nat} {recipient : String} (h : Spent db id recipient) (hk : Keeps db db') : Spent db' id recipient where
  issued := Nat.lt_of_lt_of_le h.issued hk.moves.nextId
  surfaced := by
    intro hnew
    obtain ⟨r', hr'⟩ := Option.isSome_iff_exists.mp hnew
    rcases hk.moves.row id r' hr' with ⟨r, hr, -⟩ | ⟨hid, -⟩
    · have hold : (db.find? id).isSome := by
        rw [hr]
        rfl
      obtain ⟨x, hx, hsurf⟩ := surfacedTo_iff.mp (h.surfaced hold)
      obtain ⟨x', hx', hup⟩ := hk.receipt id recipient x hold hnew hx hsurf
      exact surfacedTo_iff.mpr ⟨x', hx', hup.surfaced hsurf⟩
    · exact absurd h.issued (Nat.not_lt.mpr hid)

/-- 他の伝言の受領は変わらない。 -/
theorem receipt?_writeReceipt_of_ne {p : Rendered} {id : Nat}
    (h : ¬ (p.row.id = id ∧ p.referenceOnly = false)) :
    (writeReceipt now req db p).receipt? id req.recipient = db.receipt? id req.recipient := by
  unfold writeReceipt
  split
  · rfl
  · next href =>
    unfold PromptDb.receipt?
    rw [receipt?_upsertSeen, if_neg]
    intro hk
    exact h ⟨congrArg Prod.fst hk, by simpa using href⟩

/-- 見せた伝言の受領は、書いた行か、上書きできなかった元の行である。 -/
theorem receipt?_writeReceipt_self (req : DrainRequest) (db : PromptDb) (now : Time)
    {p : Rendered} (href : p.referenceOnly = false) :
    ∃ x, (writeReceipt now req db p).receipt? p.row.id req.recipient = some x
      ∧ (x.source = some req.source ∨ db.receipt? p.row.id req.recipient = some x
        ∧ drainOverwrites req.transport x = false) := by
  unfold writeReceipt PromptDb.receipt?
  rw [if_neg (by simp [href]), receipt?_upsertSeen, if_pos (by rfl)]
  refine ⟨_, rfl, ?_⟩
  cases db.seen.find? (p.row.id, req.recipient) with
  | none => exact Or.inl rfl
  | some x =>
    rw [Option.elim_some]
    cases hp : drainOverwrites req.transport x with
    | true => exact Or.inl rfl
    | false => exact Or.inr ⟨rfl, hp⟩

section Written

variable (hsrc : req.source = .inboxPoll ∨ req.source = .hookSurfaced)
include hsrc

theorem surfaced_of_source {x : SeenRow} (h : x.source = some req.source) : x.surfaced = true := by
  unfold SeenRow.surfaced
  rw [h]
  rcases hsrc with h | h
  · rw [h]
    rfl
  · rw [h]
    rfl

/-- 受領を書いた伝言には、証拠がある。 -/
theorem surfaced_writeReceipt (now : Time) {p : Rendered} (href : p.referenceOnly = false)
    (hw : Writable req db p.row.id) : SurfacedTo (writeReceipt now req db p) p.row.id req.recipient := by
  obtain ⟨x, hx, hs | ⟨hold, hp⟩⟩ := receipt?_writeReceipt_self req db now href
  · exact surfacedTo_iff.mpr ⟨x, hx, surfaced_of_source hsrc hs⟩
  · refine surfacedTo_iff.mpr ⟨x, hx, (hw x hold).resolve_right ?_⟩
    rw [hp]
    exact Bool.false_ne_true

/-- 書ける行は書けるままである。 -/
theorem Writable.step (now : Time) {id : Nat} (h : Writable req db id) (p : Rendered) :
    Writable req (writeReceipt now req db p) id := by
  intro x hx
  by_cases hself : p.row.id = id ∧ p.referenceOnly = false
  · obtain ⟨rfl, href⟩ := hself
    obtain ⟨x', hx', hsurf⟩ := surfacedTo_iff.mp (surfaced_writeReceipt hsrc now href h)
    rw [hx] at hx'
    cases hx'
    exact Or.inl hsurf
  · rw [receipt?_writeReceipt_of_ne hself] at hx
    exact h x hx

/-- 証拠は証拠のままである。 -/
theorem SurfacedTo.step (now : Time) {id : Nat} (h : SurfacedTo db id req.recipient) (p : Rendered) :
    SurfacedTo (writeReceipt now req db p) id req.recipient := by
  by_cases hself : p.row.id = id ∧ p.referenceOnly = false
  · obtain ⟨rfl, href⟩ := hself
    refine surfaced_writeReceipt hsrc now href fun x hx => Or.inl ?_
    obtain ⟨x', hx', hsurf⟩ := surfacedTo_iff.mp h
    rw [hx] at hx'
    cases hx'
    exact hsurf
  · unfold SurfacedTo
    rw [receipt?_writeReceipt_of_ne hself]
    exact h

/-- 受領を書き終えたとき、本文を見せた伝言には証拠がある。 -/
theorem surfaced_receipts (now : Time) : ∀ {rows : List Rendered} {db : PromptDb} {p : Rendered},
    p ∈ rows → p.referenceOnly = false → Writable req db p.row.id →
    SurfacedTo (rows.foldl (writeReceipt now req) db) p.row.id req.recipient
  | [], db, p, hp, _, _ => by cases hp
  | q :: rows, db, p, hp, href, hw => by
    rcases List.mem_cons.mp hp with rfl | hp
    · have hkept : ∀ (rows : List Rendered) db, SurfacedTo db p.row.id req.recipient →
          SurfacedTo (rows.foldl (writeReceipt now req) db) p.row.id req.recipient := by
        intro rows
        induction rows with
        | nil => exact fun _ h => h
        | cons x rows ih => exact fun db h => ih _ (h.step hsrc now x)
      exact hkept rows _ (surfaced_writeReceipt hsrc now href hw)
    · show SurfacedTo (rows.foldl (writeReceipt now req) (writeReceipt now req db q)) _ _
      exact surfaced_receipts now hp href (hw.step hsrc now q)

end Written

/-! ## 取り出せる行 -/

/-- 予約を引き取らない digest の取り出しが、予約のある行を拾う。 -/
def digestTakesHeldClaim (db : PromptDb) (w : Surroundings) (q : DrainQuery) : Bool :=
  q.request.transport = .noticeDigest && (db.drainSelection w q).any fun r =>
    (db.receipt? r.id q.request.recipient).any fun x => x.source = some .transportClaimed

/-- 取り出せる行の受領は、書けば証拠になる。 -/
theorem writable_of_allowed {t : TransportEligibility} {r : PromptRow} {x : SeenRow}
    (h : t.receiptAllows r (some x) = true)
    (hd : t = .noticeDigest → x.source ≠ some .transportClaimed) :
    x.surfaced = true ∨ drainOverwrites t x = true := by
  unfold TransportEligibility.receiptAllows heldTeamsClaim at h
  unfold drainOverwrites SeenRow.surfaced
  cases t with
  | any =>
    simp only [Option.all_some, decide_eq_true_eq] at h
    simp [h]
  | noneRecorded =>
    simp only [Option.isNone_some, Bool.false_and, Bool.false_or, Option.any_some, Bool.and_eq_true,
      decide_eq_true_eq] at h
    simp [h.1.1.1, takesClaim]
  | noticeDigest =>
    simp only [Option.isNone_some, Bool.false_and, Bool.false_or, Option.any_some, Bool.and_eq_true,
      decide_eq_true_eq] at h
    exact absurd h.1.1.1 (hd rfl)
  | after t =>
    simp only [Option.all_some, Option.any_some, Bool.or_eq_true, Bool.and_eq_true,
      decide_eq_true_eq] at h
    rcases h with ⟨hx, -⟩ | hx
    · simp [hx]
    · simp [hx.1.1.1, takesClaim]
  | wakeNamed =>
    simp only [Option.all_some, Bool.or_eq_true, decide_eq_true_eq] at h
    rcases h with hx | hx
    · simp [hx]
    · simp [hx, takesClaim]
  | polledBefore t =>
    simp only [Option.any_some, Bool.and_eq_true, decide_eq_true_eq] at h
    simp [h.1.1.1.1.1, SurfacingSource.isSurfaced]
  | namedRead =>
    simp only [Option.all_some] at h
    obtain ⟨source, hs⟩ := Option.isSome_iff_exists.mp h
    rw [hs]
    cases source <;> simp [SurfacingSource.isSurfaced, takesClaim]

/-- 名指しの読み出しと poll の再掲の他。 -/
def DrainRequest.automatic (req : DrainRequest) : Bool :=
  match req.transport with
  | .namedRead | .polledBefore _ => false
  | _ => true

/-- 証拠のある行は、自動の取り出しには選ばれない。 -/
theorem not_allowed_of_surfaced {r : PromptRow} {x : SeenRow} (ha : req.automatic = true)
    (hx : x.surfaced = true) : req.transport.receiptAllows r (some x) = false := by
  unfold DrainRequest.automatic at ha
  unfold SeenRow.surfaced at hx
  obtain ⟨source, hs, hsurf⟩ := (Option.any_eq_true _ _).mp hx
  unfold TransportEligibility.receiptAllows heldTeamsClaim
  cases ht : req.transport with
  | namedRead =>
    rw [ht] at ha
    cases ha
  | polledBefore t =>
    rw [ht] at ha
    cases ha
  | _ => cases source <;> simp_all [SurfacingSource.isSurfaced]

theorem receiptAllows_of_eligible {r : PromptRow} (h : db.eligible w q r = true) :
    q.request.transport.receiptAllows r (db.receipt? r.id q.request.recipient) = true := by
  unfold eligible at h
  simp only [Bool.and_eq_true] at h
  exact h.1.1.1.1.1.1.1.1.1.1.1.1.1

/-- 本文を見せた伝言は、取り出しの後には返されない。 -/
theorem spent_drainTx (hsrc : q.request.source = .inboxPoll ∨ q.request.source = .hookSurfaced)
    (hdigest : digestTakesHeldClaim db w q = false)
    (h : db.drainTx now notices w recoveryText q = .ok (d, db')) {p : Rendered} (hp : p ∈ d.rows)
    (href : p.referenceOnly = false) : Spent db' p.row.id q.request.recipient := by
  obtain ⟨r₀, hr₀, hsel, -⟩ := drain_row_selected h hp
  have hid : r₀.id = p.row.id := Table.key_of_find? hr₀
  unfold drainTx at h
  obtain ⟨⟨d, db₁⟩, hrender, ⟨⟩⟩ := bind_pure_eq_ok.mp h
  obtain ⟨hkeep, hseen⟩ := keeps_drainRender hrender
  have hw : Writable q.request db₁ p.row.id := by
    intro x hx
    rw [PromptDb.receipt?, hseen, ← hid] at hx
    have hallow := receiptAllows_of_eligible (mem_drainSelection hsel).2
    rw [PromptDb.receipt?, hx] at hallow
    refine writable_of_allowed hallow fun ht hclaimed => ?_
    unfold digestTakesHeldClaim at hdigest
    rw [ht, decide_eq_true rfl, Bool.true_and, List.any_eq_false] at hdigest
    have hnone := hdigest r₀ hsel
    rw [PromptDb.receipt?, hx] at hnone
    exact hnone (decide_eq_true hclaimed)
  have hspent : Spent (d.rows.foldl (writeReceipt now q.request) db₁) p.row.id q.request.recipient := by
    refine ⟨?_, fun _ => surfaced_receipts hsrc now hp href hw⟩
    have hnext : (d.rows.foldl (writeReceipt now q.request) db₁).nextId = db₁.nextId := by
      refine foldl_fixed (p := PromptDb.nextId) (fun db x => ?_) d.rows db₁
      unfold writeReceipt
      split <;> rfl
    rw [hnext]
    exact Nat.lt_of_lt_of_le (lt_nextId hr₀) hkeep.moves.nextId
  exact hspent.keep (keeps_afterReceipts d.rows)

end Drain

/-! ## 一歩 -/

/-- 取り出しの途中の位置は、公開の関数の引数を持つ。 -/
def RequestsPublic (s : PromptState) : Prop :=
  ∀ pid q, s.pc pid = .drain q → ∃ c : DrainCall, q.request = c.request

/-- digest の取り出しが、予約のある行を拾わない。 -/
def surfaceGuard (s : PromptState) : PromptAct → Bool
  | .next pid _ _ w _ _ =>
    match s.pc pid with
    | .drain q => !digestTakesHeldClaim s.db w q
    | _ => true
  | _ => true

section Step

variable {s : PromptState} {act : PromptAct} {id : Nat} {recipient : String} {db db' : PromptDb}

/-- poll の再掲は hook の取り出しである。 -/
theorem DrainCall.source_of_resurfaces (c : DrainCall)
    (h : resurfacesPoll c.request.transport = true) : c.request.source = .hookSurfaced := by
  cases c with
  | pollUnseen => cases h
  | pollNamed => cases h
  | surfaceWithinBudget recipient session drain limit budget => cases drain <;> rfl
  | _ => rfl

theorem requestsPublic_update {pc : PromptPc} {pid : Nat} (h : RequestsPublic s)
    (hpc : ∀ q, pc = .drain q → ∃ c : DrainCall, q.request = c.request) (db : PromptDb)
    (withdrawn : List Nat) : RequestsPublic ⟨db, Function.update s.pc pid pc, withdrawn⟩ := by
  intro i q hq
  by_cases hi : i = pid
  · subst hi
    dsimp only at hq
    rw [Function.update_self] at hq
    exact hpc q hq
  · dsimp only at hq
    rw [Function.update_of_ne hi] at hq
    exact h i q hq

/-- 最初の文が置く位置は、呼び出しの引数を持つ。 -/
theorem start_request {now : Time} {w : Surroundings} {call : PromptCall} {q : DrainQuery}
    (h : call.start db now w = .ok (.drain q, db')) : ∃ c : DrainCall, q.request = c.request := by
  cases call with
  | drain c =>
    simp only [PromptCall.start, bind_eq_ok] at h
    obtain ⟨o, hprobe, h⟩ := h
    split at h
    · cases pure_eq_ok.mp h
    · cases pure_eq_ok.mp h
      refine ⟨c, ?_⟩
      unfold drainProbe at hprobe
      obtain ⟨-, -, hprobe⟩ := bind_eq_ok.mp hprobe
      have hq := pure_eq_ok.mp hprobe
      split at hq
      · cases hq
      · cases hq
        rfl
  | ackByDedupeKey key =>
    simp only [PromptCall.start] at h
    split at h <;> cases h
  | ackDelivered recipients senders session replyAt =>
    simp only [PromptCall.start] at h
    split at h <;> cases h
  | recordTransportDelivered id recipient =>
    simp only [PromptCall.start] at h
    split at h <;> cases h
  | ack => cases h
  | poll => cases h

/-- 続きの文は、取り出しの途中の位置を置かない。 -/
theorem advance_ne_drain (pc : PromptPc) (now : Time) (ok : Bool) (w : Surroundings)
    (notices : Nat → List AbandonNotice) (recoveryText : PromptRow → String) (q : DrainQuery) :
    (pc.advance db now ok w notices recoveryText).2.1 ≠ .drain q := by
  intro h
  cases pc with
  | infer ids => cases ids <;> cases h
  | drain q =>
    simp only [PromptPc.advance] at h
    split at h <;> cases h
  | _ => cases h

theorem requestsPublic_step (h : RequestsPublic s) : RequestsPublic (promptStep s act).2 := by
  cases act with
  | op o =>
    simp only [promptStep]
    split
    · exact h
    · exact h
  | begin pid now w call =>
    simp only [promptStep]
    split
    · split
      · next hstart =>
        refine requestsPublic_update h ?_ _ _
        rintro q rfl
        exact start_request hstart
      · exact h
    · exact h
  | next pid now ok w notices recoveryText =>
    refine requestsPublic_update h ?_ _ _
    intro q hq
    exact absurd hq (advance_ne_drain _ _ _ _ _ _ q)
  | crash pid =>
    refine requestsPublic_update h ?_ _ _
    intro q hq
    cases hq

/-- どの一歩も、本文の見えた証拠を残す。 -/
theorem keeps_promptStep (h : RequestsPublic s) : Keeps s.db (promptStep s act).2.db := by
  cases act with
  | op o =>
    simp only [promptStep]
    split
    · next hbody => exact keeps_op hbody
    · exact .refl
  | begin pid now w call =>
    simp only [promptStep]
    split
    · split
      · next hstart =>
        cases call with
        | recordTransportDelivered id recipient =>
          simp only [PromptCall.start] at hstart
          split at hstart
          · cases hstart
            exact keeps_recordRecipientSurfaced s.db now id recipient _
          · cases hstart
            exact .refl
        | drain c =>
          simp only [PromptCall.start, bind_eq_ok] at hstart
          obtain ⟨q, -, hstart⟩ := hstart
          split at hstart
          · cases pure_eq_ok.mp hstart
            exact .refl
          · cases pure_eq_ok.mp hstart
            exact .refl
        | _ =>
          cases hstart
          exact .refl
      · exact .refl
    · exact .refl
  | next pid now ok w notices recoveryText =>
    show Keeps s.db ((s.pc pid).advance s.db now ok w notices recoveryText).2.2
    have hrow : ∀ {p f hf}, Keeps s.db (s.db.update p f hf) := fun {p f hf} =>
      .of_seen_eq (moves_update (fun _ => trivial) fun _ _ _ _ => trivial) rfl
    cases hpc : s.pc pid with
    | idle => exact .refl
    | ackStamp id =>
      simp only [PromptPc.advance]
      split
      · exact keeps_stampIgnoringError
      · exact .refl
    | ackSet id => exact hrow
    | infer ids =>
      cases ids with
      | nil => exact .refl
      | cons id ids => exact hrow
    | poll ids => exact hrow
    | claimDelivered id recipient => exact keeps_updateSeen fun _ => rfl
    | drain q =>
      simp only [PromptPc.advance]
      split
      · next htx =>
        obtain ⟨c, hc⟩ := h pid q hpc
        refine keeps_drainTx ?_ htx
        rw [hc]
        exact c.source_of_resurfaces
      · exact .refl
  | crash pid => exact .refl

/-- 操作は取り出しの答えを返さない。 -/
theorem body_ne_drained {o : PromptOp} {req : DrainRequest} {d : Drained}
    (h : o.body db = .ok (.drained req d, db')) : False := by
  have hquiet : ∀ {α : Type} {body : Except StoreError (α × PromptDb)},
      quiet body ≠ .ok (.drained req d, db') := by
    intro α body hq
    obtain ⟨x, -, hx⟩ := mapResult_eq_ok.mp hq
    cases hx
  have honly : ∀ {body : Except StoreError PromptDb}, onlyDb body ≠ .ok (.drained req d, db') := by
    intro body hq
    unfold onlyDb at hq
    cases body <;> cases hq
  cases o with
  | claimRecipientTransport id recipient token =>
    obtain ⟨x, -, hx⟩ := mapResult_eq_ok.mp h
    cases hx
  | _ => first
    | exact hquiet h
    | exact honly h
    | cases h

/-- 取り出しの答えは、取り出しの transaction の結果である。 -/
theorem drained_event {req : DrainRequest} {d : Drained} (h : (promptStep s act).1 = .drained req d) :
    ∃ pid now ok w notices recoveryText q, act = .next pid now ok w notices recoveryText
      ∧ s.pc pid = .drain q ∧ req = q.request
      ∧ s.db.drainTx now notices w recoveryText q = .ok (d, (promptStep s act).2.db) := by
  cases act with
  | op o =>
    simp only [promptStep] at h
    split at h
    · next hbody =>
      dsimp only at h
      rw [h] at hbody
      exact (body_ne_drained hbody).elim
    · cases h
  | begin pid now w call =>
    simp only [promptStep] at h
    split at h
    · split at h
      · cases h
      · cases h
    · cases h
  | crash pid => cases h
  | next pid now ok w notices recoveryText =>
    have h' : ((s.pc pid).advance s.db now ok w notices recoveryText).1 = .drained req d := h
    have hdb : (promptStep s (.next pid now ok w notices recoveryText)).2.db
      = ((s.pc pid).advance s.db now ok w notices recoveryText).2.2 := rfl
    rw [hdb]
    cases hpc : s.pc pid with
    | drain q =>
      refine ⟨pid, now, ok, w, notices, recoveryText, q, rfl, hpc, ?_⟩
      rw [hpc] at h'
      simp only [PromptPc.advance] at h' ⊢
      split at h'
      · next htx =>
        cases h'
        exact ⟨rfl, htx⟩
      · cases h'
    | infer ids =>
      rw [hpc] at h'
      cases ids <;> cases h'
    | _ =>
      rw [hpc] at h'
      cases h'

/-- もう返されない伝言の予約は取れない。 -/
theorem Spent.not_claimed {token : Time} (h : Spent s.db id recipient) (t : Time) :
    (promptStep s (.op (.claimRecipientTransport id recipient token))).1 ≠ .claimed (some t) := by
  intro hclaim
  simp only [promptStep, PromptOp.body] at hclaim
  split at hclaim
  · next hbody =>
    obtain ⟨granted, hbody, hout⟩ := mapResult_eq_ok.mp hbody
    rw [← hout] at hclaim
    cases hclaim
    unfold claimRecipientTransport at hbody
    dsimp only at hbody
    obtain ⟨-, -, hbody⟩ := bind_eq_ok.mp hbody
    split at hbody
    · next hcan =>
      rw [Bool.and_eq_true] at hcan
      have hrow : (s.db.find? id).isSome := by
        cases hr : s.db.find? id with
        | none =>
          rw [hr] at hcan
          cases hcan.1
        | some r => rfl
      obtain ⟨x, hx, hsurf⟩ := surfacedTo_iff.mp (h.surfaced hrow)
      have hfree := hcan.2
      unfold upsertSeenChanges at hfree
      rw [show SeenRow.key _ = (id, recipient) from rfl] at hfree
      rw [PromptDb.receipt?] at hx
      rw [hx, Option.all_some] at hfree
      unfold SeenRow.surfaced at hsurf
      rw [of_decide_eq_true hfree] at hsurf
      cases hsurf
    · cases pure_eq_ok.mp hbody
  · cases hclaim

theorem mem_fullIds {d : Drained} (h : id ∈ d.fullIds) :
    ∃ p ∈ d.rows, p.referenceOnly = false ∧ p.row.id = id := by
  obtain ⟨p, hp, rfl⟩ := List.mem_map.mp h
  obtain ⟨hmem, href⟩ := List.mem_filter.mp hp
  exact ⟨p, hmem, by simpa using href, rfl⟩

/-- もう返されない伝言は、自動の取り出しに現れない。 -/
theorem Spent.not_drained {req : DrainRequest} {d : Drained} (h : Spent s.db id req.recipient)
    (ha : req.automatic = true) (hd : (promptStep s act).1 = .drained req d) : id ∉ d.fullIds := by
  intro hid
  obtain ⟨pid, now, ok, w, notices, recoveryText, q, -, -, rfl, htx⟩ := drained_event hd
  obtain ⟨p, hp, -, rfl⟩ := mem_fullIds hid
  obtain ⟨r, hr, hsel, -⟩ := drain_row_selected htx hp
  have hrow : (s.db.find? p.row.id).isSome := by
    rw [hr]
    rfl
  obtain ⟨x, hx, hsurf⟩ := surfacedTo_iff.mp (h.surfaced hrow)
  have hallow := receiptAllows_of_eligible (mem_drainSelection hsel).2
  rw [show r.id = p.row.id from Table.key_of_find? hr, hx, not_allowed_of_surfaced ha hsurf] at hallow
  cases hallow

/-- 本文を見せた伝言は、もう返されない。 -/
theorem spent_of_drained {req : DrainRequest} {d : Drained} (hpub : RequestsPublic s)
    (hg : surfaceGuard s act = true) (hd : (promptStep s act).1 = .drained req d)
    (hid : id ∈ d.fullIds) : Spent (promptStep s act).2.db id req.recipient := by
  obtain ⟨pid, now, ok, w, notices, recoveryText, q, rfl, hpc, rfl, htx⟩ := drained_event hd
  obtain ⟨p, hp, href, rfl⟩ := mem_fullIds hid
  obtain ⟨c, hc⟩ := hpub pid q hpc
  refine spent_drainTx ?_ ?_ htx hp href
  · rw [hc]
    exact c.source_request
  · simp only [surfaceGuard, hpc, Bool.not_eq_true'] at hg
    exact hg

end Step

/-! ## 実行の全体 -/

/-- 一歩の前後の受領。伝言があるかぎり、証拠は消えず、弱くならない。 -/
def ReceiptsKept (s s' : PromptState) : Prop :=
  ∀ id recipient x, (s.db.find? id).isSome → (s'.db.find? id).isSome →
    s.db.receipt? id recipient = some x → x.surfaced = true →
    ∃ x', s'.db.receipt? id recipient = some x' ∧ x.upgradesTo x'

/-- 後の出来事 `e'` についての約束。 -/
structure OnceBefore (e e' : Event PromptState PromptAct PromptOutcome) : Prop where
  /-- 証拠のあった伝言の予約は、後から取れない。 -/
  claim : ∀ id recipient token t, (e.before.db.find? id).isSome →
    SurfacedTo e.before.db id recipient →
    e'.op = .op (.claimRecipientTransport id recipient token) → e'.result ≠ .claimed (some t)
  /-- 自動の取り出しが返した本文は、後の自動の取り出しが同じ宛先に返さない。 -/
  drain : ∀ id req d req' d', e.result = .drained req d → e'.result = .drained req' d' →
    req.automatic = true → req'.automatic = true → req'.recipient = req.recipient →
    id ∈ d.fullIds → id ∉ d'.fullIds

/-- 出来事が残す痕跡。 -/
def SpentAfter (e : Event PromptState PromptAct PromptOutcome) (s : PromptState) : Prop :=
  (∀ id recipient, (e.before.db.find? id).isSome → SurfacedTo e.before.db id recipient →
      Spent s.db id recipient)
    ∧ ∀ id req d, e.result = .drained req d → id ∈ d.fullIds → Spent s.db id req.recipient

/-- 実行の全体についての約束。 -/
structure SurfacesOnce (acts : List PromptAct) : Prop where
  /-- どの一歩も、本文の見えた証拠を残す。 -/
  kept : ∀ e ∈ trace promptStep .empty acts, ReceiptsKept e.before (promptStep e.before e.op).2
  /-- 証拠のある伝言の予約は取れない。 -/
  claim : ∀ e ∈ trace promptStep .empty acts, ∀ id recipient token t,
    (e.before.db.find? id).isSome → SurfacedTo e.before.db id recipient →
    e.op = .op (.claimRecipientTransport id recipient token) → e.result ≠ .claimed (some t)
  /-- 自動の取り出しが本文を返すのは、高々一度である。 -/
  once : (trace promptStep .empty acts).Pairwise OnceBefore

/-- 証拠のある伝言は、もう返されない。 -/
theorem spent_of_surfaced {s : PromptState} {id : Nat} {recipient : String}
    (hrow : (s.db.find? id).isSome) (hsurf : SurfacedTo s.db id recipient) :
    Spent s.db id recipient := by
  obtain ⟨r, hr⟩ := Option.isSome_iff_exists.mp hrow
  exact ⟨lt_nextId hr, fun _ => hsurf⟩

/-- digest の取り出しが予約のある行を拾わない実行では、本文が見えるのは一度だけである。 -/
theorem surfaced_at_most_once {acts : List PromptAct}
    (h : Guarded promptStep (fun s act => surfaceGuard s act = true) .empty acts) :
    SurfacesOnce acts := by
  have hempty : RequestsPublic .empty := by
    intro pid q hq
    cases hq
  have hpub : ∀ e ∈ trace promptStep .empty acts, RequestsPublic e.before
      ∧ e.result = (promptStep e.before e.op).1 := by
    intro e he
    obtain ⟨pre, post, rfl, hbefore, hresult⟩ := exists_split_of_mem_trace he
    refine ⟨?_, hresult⟩
    rw [hbefore]
    exact run_invariant' (fun s a hi => requestsPublic_step hi) hempty
  refine ⟨fun e he => (keeps_promptStep (hpub e he).1).receipt, ?_, ?_⟩
  · intro e he id recipient token t hrow hsurf hop
    rw [(hpub e he).2, hop]
    exact (spent_of_surfaced hrow hsurf).not_claimed t
  · refine trace_pairwise (P := SpentAfter) (fun s a hi _ => requestsPublic_step hi) ?_ ?_ ?_ hempty h
    · intro s a hi hg
      refine ⟨fun id recipient hrow hsurf => ?_, fun id req d hd hid => spent_of_drained hi hg hd hid⟩
      exact (spent_of_surfaced hrow hsurf).keep (keeps_promptStep hi)
    · intro e s a hi _ hP
      refine ⟨fun id recipient hrow hsurf => ?_, fun id req d hd hid => ?_⟩
      · exact (hP.1 id recipient hrow hsurf).keep (keeps_promptStep hi)
      · exact (hP.2 id req d hd hid).keep (keeps_promptStep hi)
    · intro e s a hi _ hP
      refine ⟨?_, ?_⟩
      · intro id recipient token t hrow hsurf hop
        dsimp only at hop ⊢
        rw [hop]
        exact (hP.1 id recipient hrow hsurf).not_claimed t
      · intro id req d req' d' hd hd' _ ha' hrec hid
        refine Spent.not_drained ?_ ha' hd'
        rw [hrec]
        exact hP.2 id req d hd hid

/-- 取り出しの呼び出しと、その transaction。 -/
def drainNow (now : Time) (c : DrainCall) : List PromptAct :=
  [.begin 0 now {} (.drain c), .next 0 now true {} (fun _ => []) fun r => r.prompt]

/-- 据え置かれた予約のある報告を、digest に替えて取り出す。 -/
def digestHeldReport : List PromptAct :=
  [.op (.enqueue { source := "ada", target := "lead", prompt := "ready to merge", createdAt := 0
                   kind := some (.mergeReady "tip") }),
    .op (.claimRecipientTransport 1 "lead" 1),
    .op (.edit (.recordDeferredInbox 1 2)),
    .op (.edit (.digestMergedReadiness fun _ => true))]
    ++ drainNow 3 (.surfaceWithinBudget "lead" none .noticeDigest 10 0)

/-- 予約を放した後の poll。 -/
def pollAfterRelease : List PromptAct :=
  .op (.releaseRecipientTransport 1 "lead") :: drainNow 4 (.pollUnseen "lead" none 10)

/-- hook の取り出しと、その後の poll。二度目は何も返さない。 -/
theorem surfaced_at_most_once_hook_then_poll :
    (run promptStep .empty ([.op (.enqueue { source := "ada", target := "lead", prompt := "done"
                                             createdAt := 0 })]
        ++ drainNow 1 (.surfaceUnseen "lead" none 10))).db.receipt? 1 "lead"
      = some { promptId := 1, recipient := "lead", seenAt := 1, source := some .hookSurfaced }
      ∧ SurfacesOnce ([.op (.enqueue { source := "ada", target := "lead", prompt := "done"
                                       createdAt := 0 })]
        ++ drainNow 1 (.surfaceUnseen "lead" none 10) ++ drainNow 2 (.pollUnseen "lead" none 10)) :=
  ⟨by decide, surfaced_at_most_once (by decide)⟩

/-- 自動の取り出しが返した番号。 -/
def returnedTo (recipient : String) : PromptOutcome → List Nat
  | .drained req d => if req.automatic && req.recipient = recipient then d.fullIds else []
  | _ => []

theorem drained_of_returnedTo {recipient : String} {out : PromptOutcome} {id : Nat}
    (h : id ∈ returnedTo recipient out) : ∃ req d, out = .drained req d ∧ req.automatic = true
      ∧ req.recipient = recipient ∧ id ∈ d.fullIds := by
  unfold returnedTo at h
  split at h
  · next req d =>
    split at h
    · next hr =>
      rw [Bool.and_eq_true, decide_eq_true_eq] at hr
      exact ⟨req, d, rfl, hr.1, hr.2, h⟩
    · cases h
  · cases h

/-- digest の取り出しと、後の poll が、同じ本文を返す。 -/
theorem digest_body_returned_twice : ¬ ∀ acts, SurfacesOnce acts := by
  intro h
  have honce := (h (digestHeldReport ++ pollAfterRelease)).once
  rw [trace_append, List.pairwise_append] at honce
  have hfirst : (trace promptStep .empty digestHeldReport).any
      (fun e => decide (1 ∈ returnedTo "lead" e.result)) = true := by
    decide
  have hsecond : (trace promptStep (run promptStep .empty digestHeldReport) pollAfterRelease).any
      (fun e => decide (1 ∈ returnedTo "lead" e.result)) = true := by
    decide
  obtain ⟨e, he, hid⟩ := List.any_eq_true.mp hfirst
  obtain ⟨e', he', hid'⟩ := List.any_eq_true.mp hsecond
  obtain ⟨req, d, hd, ha, hr, hmem⟩ := drained_of_returnedTo (of_decide_eq_true hid)
  obtain ⟨req', d', hd', ha', hr', hmem'⟩ := drained_of_returnedTo (of_decide_eq_true hid')
  exact (honce.2.2 e he e' he').drain 1 req d req' d' hd hd' ha ha' (hr'.trans hr.symm) hmem hmem'

end Cassy
