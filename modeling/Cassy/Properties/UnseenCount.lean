import Cassy.Properties.PromptDrain
import Cassy.Prompt.Drain

/-!
# 未読の数と、poll の取り出し

未読の条件と poll の問い合わせの条件は、二つの文だけが違う（`eligible_poll`）。宛先が自分で返した確認のある行と、
project を止めている間の中継を、poll は取り出さないが、未読はどちらも数える。

poll が取り出した行は、返されるか、用済みの中継として閉じられる。閉じる中継の段階が読めなければ poll の全体が落ち、
一行も返らない。
-/

namespace Cassy

open Infra PromptDb

section Inbox

variable {db : PromptDb} {now : Time} {notices : Nat → List AbandonNotice} {w : Surroundings}
  {recoveryText : PromptRow → String} {recipient : String} {session : Option String} {limit : Nat}

/-! ## 取り出す行 -/

/-- poll の問い合わせ。 -/
def pollQuery (now : Time) (w : Surroundings) (recipient : String) (session : Option String)
    (limit : Nat) : DrainQuery where
  request := pollUnseenForRecipient recipient session limit
  staleCutoff := now - seconds promptQueueStaleTtlSecs
  held := w.projectHeld

/-- poll だけが除く行。 -/
def hiddenFromPoll (db : PromptDb) (w : Surroundings) (recipient : String) (r : PromptRow) : Bool :=
  (db.acks.find? (r.id, recipient)).isSome || (w.projectHeld && isActionRelay r.prompt)

/-- poll の問い合わせは、未読の行から二種類の行を除く。 -/
theorem eligible_poll (r : PromptRow) :
    db.eligible w (pollQuery now w recipient session limit) r
      = (db.unseenForRecipient now w recipient session r && !hiddenFromPoll db w recipient r) := by
  have hack : (!(db.acks.find? (r.id, recipient)).isSome)
      = (db.acks.find? (r.id, recipient)).isNone := Option.not_isSome _
  unfold eligible unseenForRecipient hiddenFromPoll pollQuery pollUnseenForRecipient
  rw [Bool.not_or, hack]
  simp [TransportEligibility.receiptAllows, stageReadable, renders]
  ac_rfl

/-- 切られていない問い合わせの取り出す行。 -/
theorem drainSelection_poll_perm (hlimit : db.rows.length ≤ limit) :
    (db.drainSelection w (pollQuery now w recipient session limit)).Perm
      ((db.rows.filter (db.unseenForRecipient now w recipient session)).filter fun r =>
        !hiddenFromPoll db w recipient r) := by
  have hfilter : db.rows.filter (db.eligible w (pollQuery now w recipient session limit))
      = (db.rows.filter (db.unseenForRecipient now w recipient session)).filter fun r =>
        !hiddenFromPoll db w recipient r := by
    rw [List.filter_filter]
    exact List.filter_congr fun r _ => (eligible_poll r).trans (Bool.and_comm _ _)
  unfold drainSelection
  rw [hfilter, List.take_of_length_le]
  · exact List.perm_insertionSort _ _
  · rw [List.length_insertionSort]
    refine Nat.le_trans (List.length_filter_le _ _) (Nat.le_trans (List.length_filter_le _ _) hlimit)

/-! ## 中継を片付ける -/

/-- 未読の行の段階は、不達の終わりではない。 -/
theorem stage_of_deliverable {r : PromptRow} {s : DeliveryStage} (hs : r.stage? = some s)
    (hdeliv : stageDeliverable r.highestStage = true) : s.isTerminalNonDelivery = false := by
  unfold PromptRow.stage? at hs
  unfold stageDeliverable at hdeliv
  split at hs
  · cases hs
    rfl
  · next heq =>
    cases hs
    rw [heq] at hdeliv
    simpa using hdeliv
  · cases hs

theorem find?_updateId_of_ne {id id' : Nat} {p : PromptRow → Bool} {f : PromptRow → PromptRow}
    (hf : ∀ r, (f r).id = r.id) (hid : id' ≠ id) :
    (db.updateId id p f hf).find? id' = db.find? id' := by
  refine (find?_update db id' _ f hf).trans ?_
  cases hfind : db.find? id' with
  | none => rfl
  | some x =>
    have hx : x.id ≠ id := (Table.key_of_find? hfind).trans_ne hid
    simp [hx]

/-- 読める段階の行への押印は、他の行に触れない。 -/
theorem stamp_frame {id : Nat} {r : PromptRow} {s proposed : DeliveryStage} {opts : AtomicStampOpts}
    {ns : List AbandonNotice} (hr : db.find? id = some r) (hs : r.stage? = some s)
    (hlive : s.isTerminalNonDelivery = false) (hnext : resolveStageTransition s proposed id = .ok proposed)
    (hne : proposed ≠ .abandoned) :
    ∃ db', db.atomicStageStampInTx now ns id proposed opts = .ok db'
      ∧ ∀ id' ≠ id, db'.find? id' = db.find? id' := by
  unfold atomicStageStampInTx
  have hcancel : ¬(s = .suppressed ∧ proposed ≠ .confirmed ∧ db.shutdownCancelled id) := by
    rintro ⟨rfl, -, -⟩
    cases hlive
  rw [(readHighestStage_eq_ok hr).mpr hs, ok_bind, if_neg hcancel, hnext, ok_bind]
  refine ⟨_, rfl, fun id' hid => ?_⟩
  rw [if_neg hne]
  have hupdate := @find?_updateId_of_ne db id id' (fun _ => true) (stampRow now s proposed opts)
    (fun _ => rfl) hid
  split
  · rw [← hupdate]
    unfold stampRecipientTransport
    split
    · rfl
    · dsimp only
      split <;> rfl
  · exact hupdate

/-- 中継を閉じるのは、その行だけを書き換える。段階が読めなければ落ちる。 -/
theorem expireRelay_cases {r : PromptRow} (hr : db.find? r.id = some r)
    (hdeliv : stageDeliverable r.highestStage = true) (detail : String) :
    (r.stage?.isSome = true ∧ ∃ db', db.expireRelay now notices w r detail = .ok db'
        ∧ ∀ id' ≠ r.id, db'.find? id' = db.find? id')
      ∨ (r.stage? = none ∧ ∃ e, db.expireRelay now notices w r detail = .error e) := by
  cases hs : r.stage? with
  | none =>
    refine .inr ⟨rfl, ?_⟩
    cases hread : db.readHighestStage r.id with
    | ok s => exact absurd (((readHighestStage_eq_ok hr).mp hread).symm.trans hs) (by simp)
    | error e =>
      refine ⟨e, ?_⟩
      unfold expireRelay
      rw [hread]
      rfl
  | some s =>
    refine .inl ⟨rfl, ?_⟩
    have hlive := stage_of_deliverable hs hdeliv
    have hsuppressed : s ≠ .suppressed := by
      rintro rfl
      cases hlive
    unfold expireRelay
    rw [(readHighestStage_eq_ok hr).mpr hs, ok_bind]
    dsimp only
    by_cases hrank : DeliveryStage.suppressed.rank ≤ s.rank
    · have hnext : resolveStageTransition s s r.id = .ok s := if_pos rfl
      have hne : s ≠ .abandoned := by
        rintro rfl
        cases hlive
      rw [if_pos hrank]
      obtain ⟨db₁, hstamp, hframe⟩ := stamp_frame hr hs hlive hnext hne
      rw [hstamp, ok_bind]
      exact ⟨_, rfl, fun id' hid => (find?_updateId_of_ne _ hid).trans (hframe id' hid)⟩
    · have hnext : resolveStageTransition s .suppressed r.id = .ok .suppressed := by
        unfold resolveStageTransition
        rw [if_neg hsuppressed, if_pos (Nat.lt_of_not_le hrank)]
      rw [if_neg hrank]
      obtain ⟨db₁, hstamp, hframe⟩ := stamp_frame hr hs hlive hnext (by decide)
      rw [hstamp, ok_bind]
      exact ⟨_, rfl, fun id' hid => (find?_updateId_of_ne _ hid).trans (hframe id' hid)⟩

/-- 閉じる中継の段階は、どれも読める。 -/
def RelaysReadable (w : Surroundings) (rows : List PromptRow) : Prop :=
  ∀ r ∈ rows, (w.relayExpiryReason r).isSome = true → r.stage?.isSome = true

/-- 片付けが通るのは、閉じる中継の段階がどれも読めるときである。通れば、閉じない行がそのまま残る。 -/
theorem expireSupervisorRelays_cases : ∀ {rows : List PromptRow} {db : PromptDb},
    (rows.map PromptRow.id).Nodup → (∀ r ∈ rows, db.find? r.id = some r) →
    (∀ r ∈ rows, stageDeliverable r.highestStage = true) →
    (RelaysReadable w rows ∧ ∃ db', expireSupervisorRelays now notices w rows db
        = .ok ((rows.filter fun r => (w.relayExpiryReason r).isNone).map (withDelay now w), db'))
      ∨ (¬RelaysReadable w rows ∧ ∃ e, expireSupervisorRelays now notices w rows db = .error e)
  | [], db, _, _, _ => .inl ⟨fun r hr => absurd hr List.not_mem_nil, db, rfl⟩
  | r :: rest, db, hids, hfind, hdeliv => by
    obtain ⟨hid, hids⟩ := List.nodup_cons.mp hids
    have hsplit : RelaysReadable w (r :: rest)
        ↔ ((w.relayExpiryReason r).isSome = true → r.stage?.isSome = true)
          ∧ RelaysReadable w rest := List.forall_mem_cons
    have hdeliv' := fun x hx => hdeliv x (List.mem_cons_of_mem _ hx)
    rw [hsplit, expireSupervisorRelays]
    cases hreason : w.relayExpiryReason r with
    | some detail =>
      dsimp only
      rcases @expireRelay_cases db now notices w r (hfind r List.mem_cons_self)
        (hdeliv r List.mem_cons_self) detail with ⟨hread, db₁, hok, hframe⟩ | ⟨hread, e, herr⟩
      · have hfind₁ : ∀ x ∈ rest, db₁.find? x.id = some x := fun x hx => by
          rw [hframe x.id fun he => hid (he ▸ List.mem_map_of_mem hx)]
          exact hfind x (List.mem_cons_of_mem _ hx)
        rw [hok, ok_bind, List.filter_cons_of_neg (by simp [hreason])]
        exact (expireSupervisorRelays_cases hids hfind₁ hdeliv').imp
          (fun h => ⟨⟨fun _ => hread, h.1⟩, h.2⟩) fun h => ⟨fun h' => h.1 h'.2, h.2⟩
      · refine .inr ⟨fun h => ?_, e, ?_⟩
        · rw [hread] at h
          exact absurd (h.1 rfl) (by decide)
        · rw [herr]
          rfl
    | none =>
      dsimp only
      have hfind' := fun x hx => hfind x (List.mem_cons_of_mem _ hx)
      rw [List.filter_cons_of_pos (by simp [hreason])]
      rcases expireSupervisorRelays_cases hids hfind' hdeliv' with
        ⟨hread, db₁, hok⟩ | ⟨hread, e, herr⟩
      · refine .inl ⟨⟨fun h => absurd h (by decide), hread⟩, db₁, ?_⟩
        rw [hok]
        rfl
      · refine .inr ⟨fun h => hread h.2, e, ?_⟩
        rw [herr]
        rfl

/-! ## poll の結果 -/

@[simp] theorem withDelay_id (r : PromptRow) : (withDelay now w r).id = r.id := by
  unfold withDelay
  dsimp only
  split <;> rfl

@[simp] theorem withDelay_prompt (r : PromptRow) : (withDelay now w r).prompt = r.prompt := by
  unfold withDelay
  dsimp only
  split <;> rfl

/-- 本文を番号に替えても、行の番号は変わらない。 -/
@[simp] theorem recipientDelivery_id (named : Bool) (r : PromptRow) :
    (db.recipientDelivery w recipient named r).row.id = r.id := by
  unfold recipientDelivery
  split
  · rfl
  · split <;> rfl

/-- poll の問い合わせが取り出す行は、未読である。 -/
theorem unseen_of_selected {r : PromptRow}
    (h : r ∈ db.drainSelection w (pollQuery now w recipient session limit)) :
    db.unseenForRecipient now w recipient session r = true
      ∧ hiddenFromPoll db w recipient r = false := by
  have helig := (mem_drainSelection h).2
  rw [eligible_poll, Bool.and_eq_true, Bool.not_eq_true'] at helig
  exact helig

theorem drainSelection_ids_nodup (q : DrainQuery) :
    ((db.drainSelection w q).map PromptRow.id).Nodup := by
  unfold drainSelection
  refine List.Nodup.sublist ((List.take_sublist _ _).map _) ?_
  refine ((List.perm_insertionSort _ _).map _).nodup_iff.mpr ?_
  exact db.prompts.nodup.sublist (List.filter_sublist.map _)

/-- 取り出した行から返る番号は、閉じない行の番号である。 -/
theorem drainRender_poll {q : DrainQuery} (hq : q = pollQuery now w recipient session limit) :
    (RelaysReadable w (db.drainSelection w q)
        ∧ ∃ d db', db.drainRender now notices w recoveryText q = .ok (d, db')
          ∧ d.rows.map (fun p => p.row.id)
            = ((db.drainSelection w q).filter fun r => (w.relayExpiryReason r).isNone).map
              PromptRow.id)
      ∨ (¬RelaysReadable w (db.drainSelection w q)
        ∧ ∃ e, db.drainRender now notices w recoveryText q = .error e) := by
  have hfind : ∀ r ∈ db.drainSelection w q, db.find? r.id = some r := fun r hr =>
    Table.find?_of_mem (mem_drainSelection hr).1
  have hdeliv : ∀ r ∈ db.drainSelection w q, stageDeliverable r.highestStage = true := by
    intro r hr
    have hunseen := (unseen_of_selected (hq ▸ hr)).1
    unfold unseenForRecipient at hunseen
    simp only [Bool.and_eq_true] at hunseen
    exact hunseen.1.1.1.2
  rcases @expireSupervisorRelays_cases now notices w _ db (drainSelection_ids_nodup q) hfind hdeliv
    with ⟨hread, db', hok⟩ | ⟨hread, e, herr⟩
  · refine .inl ⟨hread, ?_⟩
    unfold drainRender
    rw [hok, ok_bind]
    refine ⟨_, _, rfl, ?_⟩
    -- 止めている間の中継は、問い合わせが既に除いている。
    have hkeep : (if w.projectHeld then
          (((db.drainSelection w q).filter fun r => (w.relayExpiryReason r).isNone).map
            (withDelay now w)).filter fun r => !isActionRelay r.prompt
        else ((db.drainSelection w q).filter fun r => (w.relayExpiryReason r).isNone).map
          (withDelay now w))
        = ((db.drainSelection w q).filter fun r => (w.relayExpiryReason r).isNone).map
          (withDelay now w) := by
      split
      · next hheld =>
        refine List.filter_eq_self.mpr fun r hr => ?_
        obtain ⟨r₀, hr₀, rfl⟩ := List.mem_map.mp hr
        have hhidden := (unseen_of_selected (hq ▸ (List.mem_filter.mp hr₀).1)).2
        unfold hiddenFromPoll at hhidden
        rw [hheld, Bool.true_and, Bool.or_eq_false_iff] at hhidden
        rw [withDelay_prompt, hhidden.2]
        rfl
      · rfl
    subst hq
    dsimp only
    rw [hkeep]
    simp [pollQuery, pollUnseenForRecipient, withinBudget, Function.comp_def]
  · refine .inr ⟨hread, e, ?_⟩
    unfold drainRender
    rw [herr]
    rfl

/-- poll が返す番号と、閉じる中継の番号。落ちた poll は、transaction ごと無かったことになる。 -/
def pollTakes (db : PromptDb) (now : Time) (notices : Nat → List AbandonNotice) (w : Surroundings)
    (recoveryText : PromptRow → String) (recipient : String) (session : Option String)
    (limit : Nat) : List Nat :=
  match db.pollUnseen now notices w recoveryText recipient session limit with
  | .error _ => []
  | .ok (d, _) =>
    d.rows.map (fun p => p.row.id)
      ++ ((db.drainSelection w (pollQuery now w recipient session limit)).filter fun r =>
        (w.relayExpiryReason r).isSome).map PromptRow.id

/-- 通った poll の取り出した行は、返るか閉じるかである。落ちた poll は何もしない。 -/
theorem pollTakes_cases (hrecipient : nonBlank recipient = true) :
    (RelaysReadable w (db.drainSelection w (pollQuery now w recipient session limit))
        ∧ (pollTakes db now notices w recoveryText recipient session limit).Perm
          ((db.drainSelection w (pollQuery now w recipient session limit)).map PromptRow.id))
      ∨ (¬RelaysReadable w (db.drainSelection w (pollQuery now w recipient session limit))
        ∧ pollTakes db now notices w recoveryText recipient session limit = []) := by
  have hprobe : db.drainProbe now w (pollUnseenForRecipient recipient session limit)
      = .ok (if DrainRequest.isVacuous (pollUnseenForRecipient recipient session limit)
          || (db.drainSelection w (pollQuery now w recipient session limit)).isEmpty then none
        else some (pollQuery now w recipient session limit)) := by
    unfold drainProbe
    rw [ensure, if_pos (show nonBlank (pollUnseenForRecipient recipient session limit).recipient
      = true from hrecipient)]
    rfl
  unfold pollTakes pollUnseen
  rw [hprobe, ok_bind]
  by_cases hnone : (DrainRequest.isVacuous (pollUnseenForRecipient recipient session limit)
      || (db.drainSelection w (pollQuery now w recipient session limit)).isEmpty) = true
  · have hempty : db.drainSelection w (pollQuery now w recipient session limit) = [] := by
      rcases (Bool.or_eq_true _ _).mp hnone with h | h
      · have hlimit : limit = 0 := by
          unfold DrainRequest.isVacuous pollUnseenForRecipient at h
          simpa using of_decide_eq_true (by simpa using h)
        subst hlimit
        rfl
      · exact List.isEmpty_iff.mp h
    rw [if_pos hnone, hempty]
    exact .inl ⟨fun r hr => absurd hr List.not_mem_nil, List.Perm.refl _⟩
  · rw [if_neg hnone]
    dsimp only
    unfold drainTx
    rcases @drainRender_poll db now notices w recoveryText recipient session limit _ rfl with
      ⟨hread, d, db', hok, hrows⟩ | ⟨hread, e, herr⟩
    · refine .inl ⟨hread, ?_⟩
      rw [hok, ok_bind]
      show (d.rows.map (fun p => p.row.id) ++ _).Perm _
      rw [hrows, ← List.map_append]
      refine List.Perm.map _ ?_
      have hclosed : ∀ r : PromptRow, (w.relayExpiryReason r).isSome
          = !(w.relayExpiryReason r).isNone := fun r => (Option.not_isNone _).symm
      simp only [hclosed]
      exact List.filter_append_perm _ _
    · refine .inr ⟨hread, ?_⟩
      rw [herr]
      rfl

/-! ## 未読と poll の一致 -/

/-- 未読の数と一覧が、poll の返す行と閉じる行に一致する。 -/
structure InboxAgrees (db : PromptDb) (now : Time) (notices : Nat → List AbandonNotice)
    (w : Surroundings) (recoveryText : PromptRow → String) (recipient : String)
    (session : Option String) (limit : Nat) : Prop where
  count : db.countUnseenForRecipient now w recipient session
    = (pollTakes db now notices w recoveryText recipient session limit).length
  rows : ((db.peekUnseenForRecipient now w recipient session limit).map PromptRow.id).Perm
    (pollTakes db now notices w recoveryText recipient session limit)

/-- 未読の行を poll が除かず、その中の閉じる中継の段階が読める。 -/
def UnseenPollable (db : PromptDb) (now : Time) (w : Surroundings) (recipient : String)
    (session : Option String) : Prop :=
  nonBlank recipient = true → ∀ r ∈ db.rows,
    db.unseenForRecipient now w recipient session r = true →
      hiddenFromPoll db w recipient r = false
        ∧ ((w.relayExpiryReason r).isSome = true → r.stage?.isSome = true)

/-- 未読の一覧は、未読の行の全部である。 -/
theorem peekUnseen_perm (hrecipient : nonBlank recipient = true) (hlimit : db.rows.length ≤ limit) :
    (db.peekUnseenForRecipient now w recipient session limit).Perm
      (db.rows.filter (db.unseenForRecipient now w recipient session)) := by
  have hlen := List.length_filter_le (db.unseenForRecipient now w recipient session) db.rows
  unfold peekUnseenForRecipient
  by_cases hzero : limit = 0
  · have hnil : db.rows.filter (db.unseenForRecipient now w recipient session) = [] :=
      List.eq_nil_of_length_eq_zero (by omega)
    simp [hzero, hnil]
  · rw [if_neg (by simp [hrecipient, hzero]), List.take_of_length_le]
    · exact List.perm_insertionSort _ _
    · rw [List.length_insertionSort]
      omega

theorem countUnseen_eq (hrecipient : nonBlank recipient = true) :
    db.countUnseenForRecipient now w recipient session
      = (db.rows.filter (db.unseenForRecipient now w recipient session)).length := by
  unfold countUnseenForRecipient unseenForRecipientSummary
  rw [if_neg (by simp [hrecipient])]

/-- 未読が poll と一致するのは、poll の除く未読が無く、閉じる中継の段階がどれも読めるときである。 -/
theorem unseen_agrees_with_poll_iff (hlimit : db.rows.length ≤ limit) :
    InboxAgrees db now notices w recoveryText recipient session limit
      ↔ UnseenPollable db now w recipient session := by
  cases hrecipient : nonBlank recipient with
  | false =>
    have hnil : pollTakes db now notices w recoveryText recipient session limit = [] := by
      unfold pollTakes pollUnseen drainProbe
      rw [ensure, if_neg (show ¬nonBlank (pollUnseenForRecipient recipient session limit).recipient
        by simpa [pollUnseenForRecipient] using hrecipient)]
      rfl
    refine iff_of_true ⟨?_, ?_⟩ fun h => absurd (hrecipient.symm.trans h) (by decide)
    · rw [hnil]
      simp [countUnseenForRecipient, unseenForRecipientSummary, hrecipient]
    · rw [hnil]
      simp [peekUnseenForRecipient, hrecipient]
  | true =>
    have hselected := @drainSelection_poll_perm db now w recipient session limit hlimit
    have hpeek := @peekUnseen_perm db now w recipient session limit hrecipient hlimit
    have hcount := @countUnseen_eq db now w recipient session hrecipient
    have hcases := @pollTakes_cases db now notices w recoveryText recipient session limit hrecipient
    constructor
    · rintro ⟨hlength, -⟩ - r hr hunseen
      have hmem : r ∈ db.rows.filter (db.unseenForRecipient now w recipient session) :=
        List.mem_filter.mpr ⟨hr, hunseen⟩
      rcases hcases with ⟨hread, hperm⟩ | ⟨-, hnil⟩
      · rw [hcount, hperm.length_eq, List.length_map, hselected.length_eq] at hlength
        have hkept := List.length_filter_eq_length_iff.mp hlength.symm
        have hshown := hkept r hmem
        refine ⟨by simpa using hshown, fun hreason => hread r ?_ hreason⟩
        exact hselected.mem_iff.mpr (List.mem_filter.mpr ⟨hmem, hshown⟩)
      · rw [hcount, hnil] at hlength
        rw [List.eq_nil_of_length_eq_zero hlength] at hmem
        exact absurd hmem List.not_mem_nil
    · intro hpollable
      have hall : ∀ r ∈ db.rows.filter (db.unseenForRecipient now w recipient session),
          hiddenFromPoll db w recipient r = false
            ∧ ((w.relayExpiryReason r).isSome = true → r.stage?.isSome = true) := fun r hr =>
        hpollable hrecipient r (List.mem_filter.mp hr).1 (List.mem_filter.mp hr).2
      rw [List.filter_eq_self.mpr fun r hr => by simp [(hall r hr).1]] at hselected
      rcases hcases with ⟨-, hperm⟩ | ⟨hread, -⟩
      · constructor
        · rw [hcount, hperm.length_eq, List.length_map, hselected.length_eq]
        · exact (hpeek.map _).trans ((hselected.symm.map _).trans hperm.symm)
      · exact absurd (fun r hr => (hall r (hselected.mem_iff.mp hr)).2) hread

end Inbox

/-- `"lead"` からの放送と、`"w1"` 宛ての直接の伝言。 -/
def broadcastAndDirect : PromptDb :=
  (PromptDb.empty.insert
      { source := "lead", target := allWorkers, prompt := "hi", createdAt := 0 }).insert
    { source := "lead", target := "w1", prompt := "hello", createdAt := 0 }

theorem unseen_agrees_with_poll_iff_unacked :
    InboxAgrees broadcastAndDirect 0 (fun _ => []) {} PromptRow.prompt "w1" none 2 :=
  (unseen_agrees_with_poll_iff (by decide)).mpr fun _ => by decide

/-- 自分で確認を返した放送を、poll は取り出さないが、未読はまだ数える。 -/
theorem acked_broadcast_still_counted :
    (settleAck 0 1 none broadcastAndDirect "w1").countUnseenForRecipient 0 {} "w1" none = 2
      ∧ pollTakes (settleAck 0 1 none broadcastAndDirect "w1") 0 (fun _ => []) {} PromptRow.prompt
          "w1" none 2 = [2]
      ∧ ¬InboxAgrees (settleAck 0 1 none broadcastAndDirect "w1") 0 (fun _ => []) {}
          PromptRow.prompt "w1" none 2 := by
  have hcount : (settleAck 0 1 none broadcastAndDirect "w1").countUnseenForRecipient 0 {} "w1" none
      = 2 := by decide
  have htakes : pollTakes (settleAck 0 1 none broadcastAndDirect "w1") 0 (fun _ => []) {}
      PromptRow.prompt "w1" none 2 = [2] := by decide
  refine ⟨hcount, htakes, fun h => ?_⟩
  have hlength := h.count
  rw [hcount, htakes] at hlength
  exact absurd hlength (by decide)

end Cassy
