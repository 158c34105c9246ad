import Mathlib.Tactic.Linarith
import Cassy.Infra.Run
import Cassy.Reminder.Store

/-!
# hold と reminder

hold は reminder を止めるが、失わない。

* 終わった reminder は動かず、発火は高々一度である
* 止まっている間は、発火も期限切れもしない
* hold が明けると、出来事を控えたものと時刻の来たものがその場で時刻の reminder になる。最初に控えた出来事は発火まで残る
* 出来事の reminder は、待っていた時間の合計が期限を越えるまで `expire_stale` で切れない

一つの行が一歩でどう動くかは `ReminderMove` に並べる。不変条件 `RowAccounted` は、行の列を、待っていた時間と
控えた出来事の記録に結び付ける。
-/

namespace Cassy

open Infra

/-! ## 見張り -/

/-- 一歩で行に控えられた出来事。 -/
def newCatch (call : ReminderCall) (reply : ReminderReply) (i : Nat) : List Json :=
  match call, reply with
  | .catchSuspendedEvent j e, .changed true => if j = i then [e] else []
  | _, _ => []

/-- 待っている。 -/
def Reminders.pending (db : Reminders) (i : Nat) : Bool :=
  (db.rows.find? i).any fun r => r.status = .pending

/-- 表と、前の呼び出しの時計と、行ごとの待っていた時間の合計と、控えられた出来事。 -/
structure WatchedReminders where
  db : Reminders := {}
  clock : Time := 0
  pendingFor : Nat → Time := fun _ => 0
  caught : Nat → List Json := fun _ => []

/-- 見張りながらの一歩。 -/
def watchedStep (sql : SqlDatetime) (w : WatchedReminders) (op : ReminderOp) :
    ReminderReply × WatchedReminders :=
  let (reply, db) := reminderStep sql w.db op
  (reply,
    { db := db
      clock := op.now
      pendingFor := fun i => w.pendingFor i + if w.db.pending i then op.now - w.clock else 0
      caught := fun i => w.caught i ++ newCatch op.call reply i })

/-- 時計は戻らない。 -/
def ClockAdvances (w : WatchedReminders) (op : ReminderOp) : Prop := w.clock ≤ op.now

instance (w : WatchedReminders) (op : ReminderOp) : Decidable (ClockAdvances w op) :=
  inferInstanceAs (Decidable (_ ≤ _))

/-! ## 一つの行の動き -/

/-- 一歩が一つの行にすること。`new` は、その行に控えられた出来事である。 -/
inductive ReminderMove (sql : SqlDatetime) (op : ReminderOp) :
    ReminderRow → ReminderRow → List Json → Prop where
  | kept (r : ReminderRow) : ReminderMove sql op r r []
  | suspended {r : ReminderRow} (h : r.status = .pending) :
    ReminderMove sql op r { r with status := .suspended, suspendedAt := some op.now } []
  | caught {r : ReminderRow} (e : Json) (h : r.status = .suspended) (hnone : r.firedEvent = none) :
    ReminderMove sql op r { r with firedEvent := some e } [e]
  | resumed {r : ReminderRow} (h : r.status = .suspended) :
    ReminderMove sql op r (r.resumed op.now) []
  | fired {r : ReminderRow} (e : Option Json) (h : r.status = .pending) :
    ReminderMove sql op r { r with status := .fired, firedAt := some op.now, firedEvent := e } []
  | cancelled {r : ReminderRow} (h : r.isOpen = true) :
    ReminderMove sql op r { r with status := .cancelled, cancelledAt := some op.now } []
  | expired {r : ReminderRow} (h : r.status = .pending)
    (hstale : op.call = .expireStale → r.isStale sql op.now = true) :
    ReminderMove sql op r { r with status := .expired } []

namespace Reminders

variable {db : Reminders} {i : Nat} {r : ReminderRow}

theorem find?_change {p : ReminderRow → Bool} {f : ReminderRow → ReminderRow}
    (hf : ∀ r, (f r).id = r.id) :
    (db.change p f hf).2.rows.find? i = (db.rows.find? i).map fun r => if p r then f r else r :=
  @Table.find?_update _ _ _ _ db.rows p f hf i

/-- 条件に合う行の動きが分かれば、書き換えの後の行の動きが分かる。 -/
theorem change_row {sql : SqlDatetime} {op : ReminderOp} {p : ReminderRow → Bool}
    {f : ReminderRow → ReminderRow} (hf : ∀ r, (f r).id = r.id) (h : db.rows.find? i = some r)
    (hmove : p r = true → ReminderMove sql op r (f r) []) :
    ∃ r', (db.change p f hf).2.rows.find? i = some r' ∧ ReminderMove sql op r r' [] := by
  rw [find?_change hf, h, Option.map_some]
  by_cases hp : p r = true
  · exact ⟨f r, by rw [if_pos hp], hmove hp⟩
  · exact ⟨r, by rw [if_neg hp], .kept r⟩

/-- 行が条件に合うことと、書き換えた数が零でないこと。 -/
theorem change_pos {p : ReminderRow → Bool} {f : ReminderRow → ReminderRow}
    (hf : ∀ r, (f r).id = r.id) : 0 < (db.change p f hf).1 ↔ ∃ r ∈ db.rows.rows, p r = true :=
  Table.count_pos_iff

/-- 番号はどれも、次の番号より小さい。 -/
def Numbered (db : Reminders) : Prop := ∀ r ∈ db.rows.rows, r.id < db.nextId

theorem Numbered.find?_of_le (h : db.Numbered) (hi : db.nextId ≤ i) : db.rows.find? i = none := by
  rw [Table.find?_eq_none_iff]
  intro r hr hid
  have := h r hr
  omega

end Reminders

section Step

variable {sql : SqlDatetime} {db : Reminders} {op : ReminderOp} {i : Nat} {r : ReminderRow}

/-- 出来事を控えた答は、止まっていてまだ控えの無い行があるときに限る。 -/
theorem catchSuspendedEvent_reply (db : Reminders) (j : Nat) (e : Json) :
    (db.catchSuspendedEvent j e).1 = true ↔
      ∃ r, db.rows.find? j = some r ∧ r.status = .suspended ∧ r.firedEvent = none := by
  unfold Reminders.catchSuspendedEvent
  dsimp only
  rw [decide_eq_true_iff, Reminders.change_pos]
  constructor
  · rintro ⟨r, hr, hp⟩
    simp only [Bool.and_eq_true, decide_eq_true_eq, Option.isNone_iff_eq_none] at hp
    obtain ⟨⟨rfl, hs⟩, hn⟩ := hp
    exact ⟨r, Table.find?_of_mem hr, hs, hn⟩
  · rintro ⟨r, hr, hs, hn⟩
    refine ⟨r, Table.mem_of_find? hr, ?_⟩
    have hid : r.id = j := Table.key_of_find? hr
    simp [hid, hs, hn]

/-- 出来事を控える。 -/
theorem catchSuspendedEvent_row (j : Nat) (e : Json) (h : db.rows.find? i = some r) :
    ∃ r', (db.catchSuspendedEvent j e).2.rows.find? i = some r'
      ∧ ReminderMove sql op r r'
        (newCatch (.catchSuspendedEvent j e) (.changed (db.catchSuspendedEvent j e).1) i) := by
  have hid : r.id = i := Table.key_of_find? h
  have hfind : (db.catchSuspendedEvent j e).2.rows.find? i = some
      (if r.id = j && r.status = .suspended && r.firedEvent.isNone then { r with firedEvent := some e }
        else r) := by
    refine Eq.trans (Reminders.find?_change _) ?_
    rw [h, Option.map_some]
  rw [hfind]
  by_cases hcatch : (db.catchSuspendedEvent j e).1 = true
  · obtain ⟨s, hs, hsus, hnone⟩ := (catchSuspendedEvent_reply db j e).mp hcatch
    rw [hcatch]
    by_cases hji : j = i
    · subst hji
      obtain rfl : s = r := Option.some.inj (hs.symm.trans h)
      have hnew : newCatch (.catchSuspendedEvent j e) (.changed true) j = [e] := if_pos rfl
      refine ⟨_, congrArg some (if_pos ?_), hnew ▸ .caught e hsus hnone⟩
      simp [hid, hsus, hnone]
    · have hnew : newCatch (.catchSuspendedEvent j e) (.changed true) i = [] := if_neg hji
      refine ⟨r, ?_, hnew ▸ .kept r⟩
      rw [hid, decide_eq_false (fun hij => hji hij.symm)]
      rfl
  · rw [Bool.not_eq_true] at hcatch
    rw [hcatch]
    refine ⟨r, ?_, .kept r⟩
    refine congrArg some (if_neg fun hp => ?_)
    simp only [Bool.and_eq_true, decide_eq_true_eq, Option.isNone_iff_eq_none] at hp
    obtain ⟨⟨hij, hsus⟩, hnone⟩ := hp
    have htrue := (catchSuspendedEvent_reply db j e).mpr ⟨r, hij ▸ hid ▸ h, hsus, hnone⟩
    rw [hcatch] at htrue
    cases htrue

/-- 一歩は、一つの行を `ReminderMove` の一つで動かす。 -/
theorem reminderStep_row (sql : SqlDatetime) (op : ReminderOp) (h : db.rows.find? i = some r) :
    ∃ r', (reminderStep sql db op).2.rows.find? i = some r'
      ∧ ReminderMove sql op r r' (newCatch op.call (reminderStep sql db op).1 i) := by
  obtain ⟨now, call⟩ := op
  have hopen : ∀ {q : Bool}, (r.isOpen && q) = true → r.isOpen = true :=
    fun hp => ((Bool.and_eq_true _ _).mp hp).1
  cases call with
  | createWithScope d =>
    refine ⟨r, ?_, .kept r⟩
    show (db.rows.insertOrIgnore _).find? i = some r
    rw [Table.find?_insertOrIgnore, h]
    rfl
  | suspendPendingForTarget t =>
    refine Reminders.change_row _ h fun hp => .suspended ?_
    rw [Bool.and_eq_true, decide_eq_true_eq] at hp
    exact hp.1
  | catchSuspendedEvent j e => exact catchSuspendedEvent_row j e h
  | resumeSuspendedForTarget t =>
    refine Reminders.change_row _ h fun hp => .resumed ?_
    rw [Bool.and_eq_true, decide_eq_true_eq] at hp
    exact hp.1
  | markFired j e =>
    refine Reminders.change_row _ h fun hp => .fired e ?_
    rw [Bool.and_eq_true, decide_eq_true_eq, decide_eq_true_eq] at hp
    exact hp.2
  | cancel j o =>
    refine Reminders.change_row _ h fun hp => .cancelled ?_
    exact ((Bool.and_eq_true _ _).mp hp).2
  | cancelPendingForOriginSession s =>
    refine Reminders.change_row _ h fun hp => .cancelled ?_
    rw [Bool.and_assoc] at hp
    exact hopen hp
  | cancelPendingForTask t =>
    refine Reminders.change_row _ h fun hp => .cancelled ?_
    rw [Bool.and_assoc] at hp
    exact hopen hp
  | expireStale =>
    refine Reminders.change_row _ h fun hp => .expired ?_ fun _ => hp
    unfold ReminderRow.isStale at hp
    dsimp only at hp
    rw [Bool.and_assoc, Bool.and_eq_true, decide_eq_true_eq] at hp
    exact hp.1
  | expire j =>
    refine Reminders.change_row _ h fun hp => .expired ?_ fun hcall => (by cases hcall)
    rw [Bool.and_eq_true, decide_eq_true_eq, decide_eq_true_eq] at hp
    exact hp.2

/-- 一歩の後の行は、前からあった行か、いま作られた行である。 -/
theorem reminderStep_origin {r' : ReminderRow} (h : (reminderStep sql db op).2.rows.find? i = some r') :
    (∃ r, db.rows.find? i = some r)
      ∨ (i = db.nextId ∧ db.nextId < (reminderStep sql db op).2.nextId ∧ r'.status = .pending
        ∧ r'.createdAt = op.now ∧ r'.firedEvent = none) := by
  have hchange : ∀ {p : ReminderRow → Bool} {f : ReminderRow → ReminderRow} {hf : ∀ r, (f r).id = r.id},
      (db.change p f hf).2.rows.find? i = some r' → ∃ r, db.rows.find? i = some r := by
    intro p f hf hr'
    rw [Reminders.find?_change hf, Option.map_eq_some_iff] at hr'
    obtain ⟨r, hr, -⟩ := hr'
    exact ⟨r, hr⟩
  obtain ⟨now, call⟩ := op
  cases call with
  | createWithScope d =>
    have hins : (db.rows.insertOrIgnore _).find? i = some r' := h
    rw [Table.find?_insertOrIgnore, Option.or_eq_some_iff] at hins
    rcases hins with hold | ⟨-, hnew⟩
    · exact Or.inl ⟨r', hold⟩
    · dsimp only at hnew
      split at hnew
      · next hid =>
        obtain rfl := Option.some.inj hnew
        exact Or.inr ⟨hid.symm, Nat.lt_succ_self _, rfl, rfl, rfl⟩
      · cases hnew
  | _ => exact Or.inl (hchange h)

/-- 番号は増えるだけである。 -/
theorem reminderStep_nextId (sql : SqlDatetime) (db : Reminders) (op : ReminderOp) :
    db.nextId ≤ (reminderStep sql db op).2.nextId := by
  obtain ⟨now, call⟩ := op
  cases call with
  | createWithScope d => exact Nat.le_succ _
  | _ => exact Nat.le_refl _

/-- 無い行には控えられない。 -/
theorem newCatch_of_none (h : db.rows.find? i = none) :
    newCatch op.call (reminderStep sql db op).1 i = [] := by
  obtain ⟨now, call⟩ := op
  cases call with
  | catchSuspendedEvent j e =>
    show newCatch (.catchSuspendedEvent j e) (.changed (db.catchSuspendedEvent j e).1) i = []
    cases hreply : (db.catchSuspendedEvent j e).1 with
    | false => rfl
    | true =>
      obtain ⟨r, hr, -⟩ := (catchSuspendedEvent_reply db j e).mp hreply
      refine if_neg fun hji => ?_
      rw [hji, h] at hr
      cases hr
  | _ => rfl

end Step

/-! ## 動きと行の列 -/

namespace ReminderMove

variable {sql : SqlDatetime} {op : ReminderOp} {r r' : ReminderRow} {new : List Json}

theorem id_eq (h : ReminderMove sql op r r' new) : r'.id = r.id := by
  cases h with
  | resumed _ => unfold ReminderRow.resumed; split <;> [rfl; (split <;> rfl)]
  | _ => rfl

theorem resumed_status (now : Time) (r : ReminderRow) : (r.resumed now).status = .pending := by
  unfold ReminderRow.resumed
  split <;> [rfl; (split <;> rfl)]

theorem resumed_firedEvent (now : Time) (r : ReminderRow) : (r.resumed now).firedEvent = r.firedEvent := by
  unfold ReminderRow.resumed
  split <;> [rfl; (split <;> rfl)]

/-- 終わった行は動かない。 -/
theorem of_terminal (h : ReminderMove sql op r r' new) (hr : r.status.isTerminal = true) : r' = r := by
  cases h with
  | kept => rfl
  | cancelled hopen =>
    unfold ReminderRow.isOpen at hopen
    cases hs : r.status <;> simp_all [ReminderStatus.isTerminal]
  | suspended hs => rw [hs] at hr; cases hr
  | caught _ hs _ => rw [hs] at hr; cases hr
  | resumed hs => rw [hs] at hr; cases hr
  | fired _ hs => rw [hs] at hr; cases hr
  | expired hs _ => rw [hs] at hr; cases hr

/-- 止まっている行は、発火も期限切れもしない。 -/
theorem of_suspended (h : ReminderMove sql op r r' new) (hr : r.status = .suspended) :
    r'.status ≠ .fired ∧ r'.status ≠ .expired := by
  cases h with
  | kept => rw [hr]; exact ⟨nofun, nofun⟩
  | cancelled => exact ⟨nofun, nofun⟩
  | caught => rw [hr]; exact ⟨nofun, nofun⟩
  | resumed => rw [resumed_status]; exact ⟨nofun, nofun⟩
  | suspended hs => rw [hr] at hs; cases hs
  | fired _ hs => rw [hr] at hs; cases hs
  | expired hs _ => rw [hr] at hs; cases hs

end ReminderMove

/-! ## 待っていた時間と控え -/

/-- 行の列と、待っていた時間と、控えられた出来事の対応。 -/
structure RowAccounted (w : WatchedReminders) (r : ReminderRow) : Prop where
  caught : r.status ≠ .fired → r.firedEvent = (w.caught r.id).head?
  pending : w.clock < yearTenThousand → r.triggerType = .event → r.status = .pending →
    0 ≤ r.createdAt ∧ r.createdAt ≤ w.clock ∧ w.clock - r.createdAt = w.pendingFor r.id
  suspended : w.clock < yearTenThousand → r.triggerType = .event → r.status = .suspended →
    ∃ at', r.suspendedAt = some at' ∧ 0 ≤ r.createdAt ∧ r.createdAt ≤ at' ∧ at' ≤ w.clock
      ∧ at' - r.createdAt = w.pendingFor r.id

/-- 見張りの不変条件。 -/
structure WatchedInv (w : WatchedReminders) : Prop where
  numbered : w.db.Numbered
  clock : 0 ≤ w.clock
  rows : ∀ r ∈ w.db.rows.rows, RowAccounted w r
  caught_fresh : ∀ i, w.db.nextId ≤ i → w.caught i = []
  pendingFor_fresh : ∀ i, w.db.nextId ≤ i → w.pendingFor i = 0

section Accounted

variable {sql : SqlDatetime} {w w' : WatchedReminders} {op : ReminderOp} {r r' : ReminderRow}
  {new : List Json}

/-- 控えは一つ目だけである。 -/
theorem RowAccounted.caught_move (h : RowAccounted w r) (hm : ReminderMove sql op r r' new)
    (hs : r'.status ≠ .fired) : r'.firedEvent = (w.caught r.id ++ new).head? := by
  have hsame : r.status ≠ .fired → r.firedEvent = (w.caught r.id ++ []).head? :=
    fun hne => by rw [List.append_nil]; exact h.caught hne
  cases hm with
  | kept => exact hsame hs
  | suspended hp => exact hsame (by rw [hp]; nofun)
  | caught e hp hnone =>
    have hempty : w.caught r.id = [] := by
      have := h.caught (by rw [hp]; nofun)
      rw [hnone] at this
      exact List.head?_eq_none_iff.mp this.symm
    rw [hempty]
    rfl
  | resumed hp =>
    rw [ReminderMove.resumed_firedEvent]
    exact hsame (by rw [hp]; nofun)
  | fired e hp => exact absurd rfl hs
  | cancelled hopen =>
    refine hsame fun hfired => ?_
    unfold ReminderRow.isOpen at hopen
    rw [hfired] at hopen
    cases hopen
  | expired hp _ => exact hsame (by rw [hp]; nofun)

/-- hold の明けた出来事の reminder は、止まっていた分だけ後に作られたことになる。 -/
theorem resumed_event {now at' : Time} (htype : (r.resumed now).triggerType = .event)
    (hat : r.suspendedAt = some at') (hcreated : 0 ≤ r.createdAt) (hle : r.createdAt ≤ at')
    (hnow : at' ≤ now) (hyear : now < yearTenThousand) :
    r.triggerType = .event ∧ (r.resumed now).createdAt = r.createdAt + (now - at') := by
  have hzero : yearZero ≤ 0 := by decide
  have hreadAt : parseDatetime at' = some at' := if_pos ⟨by linarith, by linarith⟩
  have hreadCreated : parseDatetime r.createdAt = some r.createdAt := if_pos ⟨by linarith, by linarith⟩
  unfold ReminderRow.resumed at htype ⊢
  split at htype
  · cases htype
  · next hcond =>
    rw [if_neg hcond]
    split at htype
    · next hevent =>
      refine ⟨hevent, ?_⟩
      rw [if_pos hevent, hat, Option.bind_some, hreadAt, hreadCreated]
      show (r.createdAt + max (now - at') 0 : Int) = _
      rw [max_eq_left (sub_nonneg.mpr hnow)]
    · next hevent => exact absurd htype hevent

/-- 一つの行の動きで、対応は保たれる。 -/
theorem RowAccounted.move (h : RowAccounted w r) (hm : ReminderMove sql op r r' new)
    (hclock : w.clock ≤ op.now) (hnow : w'.clock = op.now)
    (hpending : w'.pendingFor r.id
      = w.pendingFor r.id + if r.status = .pending then op.now - w.clock else 0)
    (hcaught : w'.caught r.id = w.caught r.id ++ new) : RowAccounted w' r' := by
  have hid := hm.id_eq
  constructor
  · intro hs
    rw [hid, hcaught]
    exact h.caught_move hm hs
  · intro hyear htype hs
    rw [hid, hpending, hnow] at *
    cases hm with
    | kept =>
      obtain ⟨h0, hle, heq⟩ := h.pending (by linarith) htype hs
      rw [if_pos hs]
      exact ⟨h0, by linarith, by linarith⟩
    | caught e hp _ => exact absurd (hp.symm.trans hs) nofun
    | resumed hp =>
      have hlt : w.clock < yearTenThousand := by linarith
      rw [if_neg (by rw [hp]; nofun)]
      have hevent : r.triggerType = .event := by
        unfold ReminderRow.resumed at htype
        split at htype
        · cases htype
        · split at htype
          · next he => exact he
          · exact htype
      obtain ⟨at', hat, h0, hle, hat', heq⟩ := h.suspended hlt hevent hp
      obtain ⟨-, hcreated⟩ := resumed_event htype hat h0 hle (by linarith) hyear
      rw [hcreated]
      exact ⟨by linarith, by linarith, by linarith⟩
    | suspended _ => cases hs
    | fired _ _ => cases hs
    | cancelled _ => cases hs
    | expired _ _ => cases hs
  · intro hyear htype hs
    rw [hid, hpending, hnow] at *
    cases hm with
    | kept =>
      obtain ⟨at', hat, h0, hle, hat', heq⟩ := h.suspended (by linarith) htype hs
      rw [if_neg (by rw [hs]; nofun)]
      exact ⟨at', hat, h0, hle, by linarith, by linarith⟩
    | caught e hp _ =>
      obtain ⟨at', hat, h0, hle, hat', heq⟩ := h.suspended (by linarith) htype hp
      rw [if_neg (by rw [hp]; nofun)]
      exact ⟨at', hat, h0, hle, by linarith, by linarith⟩
    | suspended hp =>
      obtain ⟨h0, hle, heq⟩ := h.pending (by linarith) htype hp
      rw [if_pos hp]
      exact ⟨op.now, rfl, h0, by dsimp only; linarith, by linarith, by dsimp only; linarith⟩
    | resumed _ =>
      rw [ReminderMove.resumed_status] at hs
      cases hs
    | fired _ _ => cases hs
    | cancelled _ => cases hs
    | expired _ _ => cases hs

end Accounted

/-- 一歩の後の見張り。 -/
theorem watchedStep_pendingFor {sql : SqlDatetime} {w : WatchedReminders} {op : ReminderOp}
    {r : ReminderRow} {i : Nat} (h : w.db.rows.find? i = some r) :
    (watchedStep sql w op).2.pendingFor i
      = w.pendingFor i + if r.status = .pending then op.now - w.clock else 0 := by
  show w.pendingFor i + (if (w.db.rows.find? i).any _ = true then _ else _) = _
  rw [h, Option.any_some]
  simp only [decide_eq_true_eq]

theorem WatchedInv.step {sql : SqlDatetime} {w : WatchedReminders} {op : ReminderOp}
    (h : WatchedInv w) (hclock : ClockAdvances w op) : WatchedInv (watchedStep sql w op).2 := by
  have hnext := reminderStep_nextId sql w.db op
  have hclock : w.clock ≤ op.now := hclock
  have hold : ∀ {i r'}, (reminderStep sql w.db op).2.rows.find? i = some r' →
      ∀ {r}, w.db.rows.find? i = some r →
        ReminderMove sql op r r' (newCatch op.call (reminderStep sql w.db op).1 i) := by
    intro i r' hr' r hr
    obtain ⟨r'', hr'', hm⟩ := reminderStep_row sql op hr
    exact Option.some.inj (hr''.symm.trans hr') ▸ hm
  constructor
  · intro r' hr'
    have hfind := Table.find?_of_mem hr'
    show r'.id < (reminderStep sql w.db op).2.nextId
    rcases reminderStep_origin hfind with ⟨r, hr⟩ | ⟨hid, hlt, -⟩
    · have hlt := h.numbered r (Table.mem_of_find? hr)
      have hid : r.id = r'.id := Table.key_of_find? hr
      omega
    · omega
  · have := h.clock
    show 0 ≤ op.now
    linarith
  · intro r' hr'
    have hfind := Table.find?_of_mem hr'
    rcases reminderStep_origin hfind with ⟨r, hr⟩ | ⟨hid, hlt, hs, hcreated, hnone⟩
    · have hid : r.id = r'.id := Table.key_of_find? hr
      refine (h.rows r (Table.mem_of_find? hr)).move (hold hfind hr) hclock rfl ?_ ?_
      · exact watchedStep_pendingFor (hid ▸ hr)
      · rw [hid]
        rfl
    · have hfresh := h.numbered.find?_of_le (Nat.le_of_eq hid.symm)
      have hcaught : (watchedStep sql w op).2.caught r'.id = [] := by
        show w.caught r'.id ++ newCatch op.call (reminderStep sql w.db op).1 r'.id = []
        rw [newCatch_of_none hfresh, h.caught_fresh _ (Nat.le_of_eq hid.symm), List.append_nil]
      have hpending : (watchedStep sql w op).2.pendingFor r'.id = 0 := by
        show w.pendingFor r'.id + (if (w.db.rows.find? r'.id).any _ = true then _ else _) = 0
        rw [h.pendingFor_fresh _ (Nat.le_of_eq hid.symm), hfresh]
        rfl
      constructor
      · intro _
        rw [hcaught, hnone]
        rfl
      · intro _ _ _
        rw [hpending, hcreated]
        have := h.clock
        exact ⟨by linarith, Int.le_refl _, Int.sub_self _⟩
      · intro _ _ hsus
        rw [hs] at hsus
        cases hsus
  · intro i hi
    have hi' : w.db.nextId ≤ i := le_trans hnext hi
    show w.caught i ++ newCatch op.call (reminderStep sql w.db op).1 i = []
    rw [newCatch_of_none (h.numbered.find?_of_le hi'), h.caught_fresh i hi', List.append_nil]
  · intro i hi
    have hi' : w.db.nextId ≤ i := le_trans hnext hi
    show w.pendingFor i + (if (w.db.rows.find? i).any _ = true then _ else _) = 0
    rw [h.pendingFor_fresh i hi', h.numbered.find?_of_le hi']
    rfl

/-! ## 実行の全体 -/

/-- 発火に成功した。 -/
def MarkedFired (e : Event WatchedReminders ReminderOp ReminderReply) (i : Nat) : Prop :=
  ∃ event, e.op.call = .markFired i event ∧ e.result = .done (.ok ())

section Run

variable {sql : SqlDatetime} {w : WatchedReminders} {op : ReminderOp} {i : Nat} {r : ReminderRow}

theorem watchedInv_run {acts : List ReminderOp} (h : Guarded (watchedStep sql) ClockAdvances {} acts) :
    WatchedInv (run (watchedStep sql) {} acts) := by
  refine run_invariant (I := WatchedInv) (fun w op hw hop => hw.step hop) ?_ h
  exact ⟨fun r hr => (by cases hr), Int.le_refl _, fun r hr => (by cases hr), fun _ _ => rfl, fun _ _ => rfl⟩

theorem run_snoc (pre : List ReminderOp) (op : ReminderOp) :
    run (watchedStep sql) {} (pre ++ [op]) = (watchedStep sql (run (watchedStep sql) {} pre) op).2 := by
  rw [run_append]
  rfl

/-- 発火に成功するのは待っている行だけで、その行は発火したものになる。 -/
theorem markFired_row (now : Time) (e : Option Json)
    (h : (w.db.markFired now i e).1 = .ok ()) :
    ∃ r, w.db.rows.find? i = some r ∧ r.status = .pending
      ∧ (w.db.markFired now i e).2.rows.find? i
        = some { r with status := .fired, firedAt := some now, firedEvent := e } := by
  have hpos : 0 < (w.db.change (fun r => r.id = i && r.status = .pending) fun r =>
      { r with status := .fired, firedAt := some now, firedEvent := e }).1 := by
    refine Nat.pos_of_ne_zero fun hzero => ?_
    unfold Reminders.markFired at h
    dsimp only at h
    rw [if_pos hzero] at h
    cases h
  obtain ⟨r, hr, hp⟩ := (Reminders.change_pos _).mp hpos
  have hp' := hp
  rw [Bool.and_eq_true, decide_eq_true_eq, decide_eq_true_eq] at hp'
  have hfind : w.db.rows.find? i = some r := hp'.1 ▸ Table.find?_of_mem hr
  refine ⟨r, hfind, hp'.2, Eq.trans (Reminders.find?_change _) ?_⟩
  rw [hfind, Option.map_some, if_pos hp]

/-- 終わった行の状態は変わらない。 -/
theorem terminal_run (acts : List ReminderOp) (h : w.db.rows.find? i = some r)
    (hr : r.status.isTerminal = true) :
    ∃ r', (run (watchedStep sql) w acts).db.rows.find? i = some r' ∧ r'.status = r.status := by
  refine run_invariant'
    (I := fun w : WatchedReminders => ∃ r', w.db.rows.find? i = some r' ∧ r'.status = r.status) ?_ ⟨r, h, rfl⟩
  rintro w op ⟨r', hr', hs⟩
  obtain ⟨r'', hr'', hm⟩ := reminderStep_row sql op hr'
  exact ⟨r'', hr'', by rw [hm.of_terminal (hs ▸ hr), hs]⟩

/-- 発火の成功は、一つの reminder に高々一度である。 -/
theorem markedFired_once (acts : List ReminderOp) :
    (trace (watchedStep sql) {} acts).Pairwise fun e e' => ∀ i, MarkedFired e i → ¬ MarkedFired e' i := by
  refine trace_pairwise (I := fun _ => True) (g := fun _ _ => True)
    (P := fun e w => ∀ i, MarkedFired e i → ∃ r, w.db.rows.find? i = some r ∧ r.status = .fired)
    (fun _ _ _ _ => trivial) ?_ ?_ ?_ trivial (guarded_of_forall (fun _ _ => trivial) _ _)
  · rintro w ⟨now, call⟩ - - i ⟨event, hcall, hok⟩
    dsimp only at hcall
    subst hcall
    obtain ⟨r, -, -, hafter⟩ := markFired_row now event (ReminderReply.done.inj hok)
    exact ⟨_, hafter, rfl⟩
  · intro e w op _ _ hP i he
    obtain ⟨r, hr, hs⟩ := hP i he
    obtain ⟨r', hr', hm⟩ := reminderStep_row sql op hr
    exact ⟨r', hr', by rw [hm.of_terminal (by rw [hs]; rfl), hs]⟩
  · rintro e w ⟨now, call⟩ - - hP i he ⟨event, hcall, hok⟩
    dsimp only at hcall
    subst hcall
    obtain ⟨r, hr, hs⟩ := hP i he
    obtain ⟨r', hr', hs', -⟩ := markFired_row now event (ReminderReply.done.inj hok)
    obtain rfl : r' = r := Option.some.inj (hr'.symm.trans hr)
    rw [hs] at hs'
    cases hs'

/-- hold の明けた行。 -/
theorem resume_row {now : Time} {t : String} (h : w.db.rows.find? i = some r)
    (hs : r.status = .suspended) (ht : r.targets t = true) :
    (w.db.resumeSuspendedForTarget now t).2.rows.find? i = some (r.resumed now) := by
  refine Eq.trans (Reminders.find?_change _) ?_
  rw [h, Option.map_some, if_pos (by rw [hs, ht]; rfl)]

/-- 控えがあるか時刻が来ていれば、その場で時刻の reminder になる。 -/
theorem resumed_due {now : Time}
    (h : r.firedEvent.isSome = true ∨ r.triggerType = .time ∧ r.isDue now = true) :
    (r.resumed now).triggerType = .time ∧ (r.resumed now).triggerAt = some now := by
  have hcond : (r.firedEvent.isSome || (r.triggerType = .time && r.isDue now)) = true := by
    rw [Bool.or_eq_true, Bool.and_eq_true, decide_eq_true_eq]
    exact h
  unfold ReminderRow.resumed
  rw [if_pos hcond]
  exact ⟨rfl, rfl⟩

/-- どちらでもなければ、発火の条件は変わらない。 -/
theorem resumed_not_due {now : Time}
    (h : ¬(r.firedEvent.isSome = true ∨ r.triggerType = .time ∧ r.isDue now = true)) :
    (r.resumed now).triggerType = r.triggerType ∧ (r.resumed now).triggerAt = r.triggerAt := by
  have hcond : ¬(r.firedEvent.isSome || (r.triggerType = .time && r.isDue now)) = true := by
    rw [Bool.or_eq_true, Bool.and_eq_true, decide_eq_true_eq]
    exact h
  unfold ReminderRow.resumed
  rw [if_neg hcond]
  split <;> exact ⟨rfl, rfl⟩

/-- 期限の切れた出来事の reminder は、期限より一秒短い時間より長く待っていた。 -/
theorem waited_of_stale (hw : WatchedInv w) (hclock : ClockAdvances w op)
    (h : w.db.rows.find? i = some r) (htype : r.triggerType = .event)
    (hstale : r.isStale sql op.now = true) :
    seconds r.ttlSecs - seconds 1 < (watchedStep sql w op).2.pendingFor i := by
  have hid : r.id = i := Table.key_of_find? h
  have hclock : w.clock ≤ op.now := hclock
  unfold ReminderRow.isStale at hstale
  rw [if_neg (by rw [htype]; nofun)] at hstale
  dsimp only at hstale
  rw [Bool.and_eq_true, Bool.and_eq_true, decide_eq_true_eq] at hstale
  obtain ⟨⟨hpending, -⟩, hlate⟩ := hstale
  split at hlate
  · next deadline current hdeadline hcurrent =>
    rw [decide_eq_true_eq] at hlate
    have hyear := sql.now_lt hcurrent
    have hnow := sql.now_le hcurrent
    have hnear := sql.plusSeconds_near hdeadline
    obtain ⟨-, -, hwaited⟩ := (hw.rows r (Table.mem_of_find? h)).pending (by linarith) htype hpending
    rw [watchedStep_pendingFor h, if_pos hpending, ← hid, ← hwaited]
    have hsec : seconds (deadline + 1) ≤ seconds current := by
      show (deadline + 1) * 1000000000 ≤ current * 1000000000
      omega
    have hone : seconds 1 = 1000000000 := rfl
    linarith
  · cases hlate

end Run

/-- hold が守ること。 -/
structure HoldKeepsReminders (sql : SqlDatetime) (acts : List ReminderOp) : Prop where
  /-- 終わった reminder は動かない。 -/
  terminal : ∀ pre post i r, acts = pre ++ post →
    (run (watchedStep sql) {} pre).db.rows.find? i = some r → r.status.isTerminal = true →
    ∃ r', (run (watchedStep sql) {} acts).db.rows.find? i = some r' ∧ r'.status = r.status
  /-- 発火の成功は高々一度である。 -/
  fired_once : (trace (watchedStep sql) {} acts).Pairwise
    fun e e' => ∀ i, MarkedFired e i → ¬ MarkedFired e' i
  /-- 止まっている間は、発火も期限切れもしない。 -/
  held : ∀ pre op post i r, acts = pre ++ op :: post →
    (run (watchedStep sql) {} pre).db.rows.find? i = some r → r.status = .suspended →
    ∃ r', (run (watchedStep sql) {} (pre ++ [op])).db.rows.find? i = some r'
      ∧ r'.status ≠ .fired ∧ r'.status ≠ .expired
  /-- hold が明けると、控えのあるものと時刻の来たものが、その場で時刻の reminder になる。ほかは、なおその時刻には発火しない。 -/
  resumed : ∀ pre now t post i r, acts = pre ++ ⟨now, .resumeSuspendedForTarget t⟩ :: post →
    (run (watchedStep sql) {} pre).db.rows.find? i = some r → r.status = .suspended →
    r.targets t = true →
    ∃ r', (run (watchedStep sql) {} (pre ++ [⟨now, .resumeSuspendedForTarget t⟩])).db.rows.find? i
        = some r'
      ∧ r'.status = .pending
      ∧ ((run (watchedStep sql) {} pre).caught i ≠ [] ∨ r.triggerType = .time ∧ r.isDue now = true →
        r'.triggerType = .time ∧ r'.triggerAt = some now)
      ∧ (¬((run (watchedStep sql) {} pre).caught i ≠ []
          ∨ r.triggerType = .time ∧ r.isDue now = true) →
        r'.triggerType = r.triggerType ∧ r'.triggerAt = r.triggerAt
          ∧ ¬(r'.triggerType = .time ∧ r'.isDue now = true))
  /-- 最初に控えた出来事は、発火まで残る。 -/
  recorded : ∀ i r, (run (watchedStep sql) {} acts).db.rows.find? i = some r → r.status ≠ .fired →
    r.firedEvent = ((run (watchedStep sql) {} acts).caught i).head?
  /-- 出来事の reminder が切れるのは、待っていた時間が期限を越えてからである。一秒の端数を除く。 -/
  expired : ∀ pre now post i r r', acts = pre ++ ⟨now, .expireStale⟩ :: post →
    (run (watchedStep sql) {} pre).db.rows.find? i = some r → r.status ≠ .expired →
    r.triggerType = .event →
    (run (watchedStep sql) {} (pre ++ [⟨now, .expireStale⟩])).db.rows.find? i = some r' →
    r'.status = .expired →
    seconds r.ttlSecs - seconds 1
      < (run (watchedStep sql) {} (pre ++ [⟨now, .expireStale⟩])).pendingFor i

/-- 時計の戻らない実行では、hold は reminder を止め、失わない。 -/
theorem hold_keeps_reminders (sql : SqlDatetime) {acts : List ReminderOp}
    (hclock : Guarded (watchedStep sql) ClockAdvances {} acts) : HoldKeepsReminders sql acts := by
  constructor
  · rintro pre post i r rfl h hr
    rw [run_append]
    exact terminal_run post h hr
  · exact markedFired_once acts
  · rintro pre op post i r - h hr
    rw [run_snoc]
    obtain ⟨r', hr', hm⟩ := reminderStep_row sql op h
    exact ⟨r', hr', hm.of_suspended hr⟩
  · rintro pre now t post i r rfl h hr ht
    have hw := watchedInv_run (guarded_append.mp hclock).1
    have hcaught := (hw.rows r (Table.mem_of_find? h)).caught (by rw [hr]; nofun)
    rw [Table.key_of_find? h] at hcaught
    have hsome : (run (watchedStep sql) {} pre).caught i ≠ [] ↔ r.firedEvent.isSome = true := by
      rw [hcaught]
      cases (run (watchedStep sql) {} pre).caught i <;> simp
    rw [run_snoc]
    refine ⟨r.resumed now, resume_row h hr ht, ReminderMove.resumed_status now r, ?_, ?_⟩
    · rw [hsome]
      exact resumed_due
    · rw [hsome]
      intro hnot
      obtain ⟨htype, hat⟩ := resumed_not_due hnot
      refine ⟨htype, hat, ?_⟩
      unfold ReminderRow.isDue ReminderRow.dueAt
      rw [htype, hat]
      exact fun hdue => hnot (Or.inr hdue)
  · intro i r h hs
    have hrow := ((watchedInv_run hclock).rows r (Table.mem_of_find? h)).caught hs
    rwa [Table.key_of_find? h] at hrow
  · rintro pre now post i r r' rfl h hs htype hafter hexpired
    have hsplit := guarded_append.mp hclock
    have hw := watchedInv_run hsplit.1
    rw [run_snoc] at hafter ⊢
    obtain ⟨r'', hr'', hm⟩ := reminderStep_row sql ⟨now, .expireStale⟩ h
    obtain rfl : r'' = r' := Option.some.inj (hr''.symm.trans hafter)
    refine waited_of_stale hw hsplit.2.1 h htype ?_
    cases hm with
    | kept => exact absurd hexpired hs
    | resumed => rw [ReminderMove.resumed_status] at hexpired; cases hexpired
    | suspended _ => cases hexpired
    | fired _ _ => cases hexpired
    | cancelled _ => cases hexpired
    | expired _ hstale => exact hstale rfl

/-- 四桁の年の `datetime`。小数の秒はミリ秒に丸められる。 -/
def sqliteDatetime : SqlDatetime where
  plusSeconds t n :=
    let s : Int := ((t + 500000) / 1000000 + 1000 * n) / 1000
    if yearZero ≤ t ∧ t < yearTenThousand ∧ yearZero ≤ seconds s ∧ seconds s < yearTenThousand then
      some s
    else none
  now t := if t < yearTenThousand then some (t / 1000000000) else none
  plusSeconds_near := by
    intro t n s h
    dsimp only at h
    split at h
    · rw [← Option.some.inj h]
      have hround : ∀ t n : Int, t + n * 1000000000
          < (((t + 500000) / 1000000 + 1000 * n) / 1000 + 1) * 1000000000 + 1000000 := by omega
      exact hround t n
    · cases h
  now_le := by
    intro t s h
    split at h
    · rw [← Option.some.inj h]
      exact Int.ediv_mul_le t (by decide)
    · cases h
  now_lt := by
    intro t s h
    split at h
    · assumption
    · cases h

/-- 出来事を待つ、60 秒で切れる reminder。 -/
def eventDraft : ReminderDraft where
  ownerId := "sup"
  targetId := some "w1"
  message := "CI done"
  triggerType := .event
  triggerAt := none
  triggerEvent := some "ci_finished"
  triggerFilter := none
  ttlSecs := 60
  sessionId := none
  originSessionId := none
  crossSession := false
  taskId := none

/-- 一つの hold の間に一つ目の出来事を控え、明けて発火する。次の一つは、hold を除いて 60 秒を待って切れる。 -/
theorem hold_keeps_reminders_twice :
    HoldKeepsReminders sqliteDatetime
      [⟨seconds 0, .createWithScope eventDraft⟩, ⟨seconds 10, .suspendPendingForTarget "w1"⟩,
        ⟨seconds 20, .catchSuspendedEvent 1 (.string "green")⟩,
        ⟨seconds 21, .catchSuspendedEvent 1 (.string "red")⟩,
        ⟨seconds 100, .resumeSuspendedForTarget "w1"⟩, ⟨seconds 101, .expireStale⟩,
        ⟨seconds 101, .markFired 1 none⟩, ⟨seconds 102, .markFired 1 none⟩,
        ⟨seconds 200, .createWithScope eventDraft⟩, ⟨seconds 230, .suspendPendingForTarget "w1"⟩,
        ⟨seconds 900, .resumeSuspendedForTarget "w1"⟩, ⟨seconds 901, .expireStale⟩,
        ⟨seconds 931, .expireStale⟩] :=
  hold_keeps_reminders sqliteDatetime (by decide)

end Cassy
