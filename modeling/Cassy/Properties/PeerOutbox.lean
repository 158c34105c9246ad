import Cassy.Infra.Run
import Cassy.Cloud.PeerOutbox

/-!
# 送りは一つの行であり、答は借りた試みのものだけが書く

`peer_message_outbox` の行は、送り主・宛先・鍵の組に高々一つで、中身は作ったときのまま変わらない。送る試みは行の
`attempts` を一つ進めて借り、答は `attempts` がその数のままの行にだけ書かれる。

試みの間に、期限切れ、取り止め、戻し、別の試みが行を書き換える。数は進むだけであり、数の変わらない書き換えは行を
`retrying` に戻さないので、一度書けなくなった答は、戻しを挟んでも二度と書けない。

時計の読みには何も仮定しない。
-/

namespace Cassy

open Infra PeerOutbox

/-! ## 行の段階 -/

/-- 状態、試みの数、cloud の番号。 -/
structure PeerPhase where
  state : PeerState
  attempts : Nat
  cloudId : Option String
  deriving DecidableEq, Repr

/-- 行の段階。 -/
def PeerRow.phase (r : PeerRow) : PeerPhase := ⟨r.state, r.attempts, r.cloudId⟩

/-- 段階の移り。諦めた行が戻るのは、戻す送りのときだけである。 -/
inductive PhaseStep (recovering : Prop) : PeerPhase → PeerPhase → Prop where
  | kept (p) : PhaseStep recovering p p
  | recovered (k) (h : recovering) : PhaseStep recovering ⟨.abandoned, k, none⟩ ⟨.pending, k, none⟩
  | claimed (p) (h : p.state.isOpen = true) :
    PhaseStep recovering p ⟨.retrying, p.attempts + 1, p.cloudId⟩
  | sent (k cloudId id) : PhaseStep recovering ⟨.retrying, k, cloudId⟩ ⟨.sent, k, some id⟩
  | failed (k cloudId state) (h : state = .retrying ∨ state = .abandoned) :
    PhaseStep recovering ⟨.retrying, k, cloudId⟩ ⟨state, k, cloudId⟩
  | abandoned (p) (h : p.state.isOpen = true) :
    PhaseStep recovering p ⟨.abandoned, p.attempts, p.cloudId⟩

namespace PeerPhase

/-- `k` 番目の試みの答を、まだ書ける。 -/
def Held (k : Nat) (p : PeerPhase) : Prop := p.state = .retrying ∧ p.attempts = k

/-- `k` 番目の試みの答は、もう書けない。 -/
def Lost (k : Nat) (p : PeerPhase) : Prop :=
  k < p.attempts ∨ (p.attempts = k ∧ p.state ≠ .retrying)

/-- cloud の番号があるのは、送り終えた行だけである。 -/
def Sound (p : PeerPhase) : Prop := p.cloudId.isSome = true ↔ p.state = .sent

theorem Held.not_lost {k : Nat} {p : PeerPhase} (h : p.Held k) : ¬ p.Lost k := by
  rintro (hlt | ⟨-, hstate⟩)
  · exact absurd h.2 (Nat.ne_of_gt hlt)
  · exact hstate h.1

theorem ne_sent_of_isOpen {p : PeerPhase} (h : p.state.isOpen = true) : p.state ≠ .sent := by
  intro hsent
  rw [hsent] at h
  cases h

end PeerPhase

namespace PhaseStep

variable {q q' : Prop} {p p' : PeerPhase} {k : Nat}

theorem sound (h : PhaseStep q p p') (hp : p.Sound) : p'.Sound := by
  cases h with
  | kept => exact hp
  | recovered k hq => simp [PeerPhase.Sound]
  | claimed _ hopen =>
    have hnone : p.cloudId.isSome ≠ true := fun hs => PeerPhase.ne_sent_of_isOpen hopen (hp.mp hs)
    exact ⟨fun hs => absurd hs hnone, fun hs => by cases hs⟩
  | sent k cloudId id => simp [PeerPhase.Sound]
  | failed k cloudId state hstate =>
    have hnone : cloudId.isSome ≠ true := fun hs => by cases hp.mp hs
    refine ⟨fun hs => absurd hs hnone, fun hs => ?_⟩
    rcases hstate with rfl | rfl <;> cases hs
  | abandoned _ hopen =>
    have hnone : p.cloudId.isSome ≠ true := fun hs => PeerPhase.ne_sent_of_isOpen hopen (hp.mp hs)
    exact ⟨fun hs => absurd hs hnone, fun hs => by cases hs⟩

/-- 書けなくなった答は、書けないままである。 -/
theorem lost (h : PhaseStep q p p') (hp : p.Lost k) : p'.Lost k := by
  cases h with
  | kept => exact hp
  | recovered n hq =>
    rcases hp with hlt | ⟨heq, -⟩
    · exact Or.inl hlt
    · exact Or.inr ⟨heq, by simp⟩
  | claimed _ hopen =>
    rcases hp with hlt | ⟨heq, -⟩
    · exact Or.inl (Nat.lt_succ_of_lt hlt)
    · exact Or.inl (heq ▸ Nat.lt_succ_self _)
  | sent n cloudId id =>
    rcases hp with hlt | ⟨-, hstate⟩
    · exact Or.inl hlt
    · exact absurd rfl hstate
  | failed n cloudId state hstate =>
    rcases hp with hlt | ⟨-, hstate⟩
    · exact Or.inl hlt
    · exact absurd rfl hstate
  | abandoned _ hopen =>
    rcases hp with hlt | ⟨heq, -⟩
    · exact Or.inl hlt
    · exact Or.inr ⟨heq, by simp⟩

theorem held (h : PhaseStep q p p') (hp : p.Held k) : p'.Held k ∨ p'.Lost k := by
  cases h with
  | kept => exact Or.inl hp
  | recovered n hq => cases hp.1
  | claimed _ hopen => exact Or.inr (Or.inl (hp.2 ▸ Nat.lt_succ_self _))
  | sent n cloudId id => exact Or.inr (Or.inr ⟨hp.2, by simp⟩)
  | failed n cloudId state hstate =>
    rcases hstate with rfl | rfl
    · exact Or.inl ⟨rfl, hp.2⟩
    · exact Or.inr (Or.inr ⟨hp.2, by simp⟩)
  | abandoned _ hopen => exact Or.inr (Or.inr ⟨hp.2, by simp⟩)

theorem held_or_lost (h : PhaseStep q p p') (hp : p.Held k ∨ p.Lost k) : p'.Held k ∨ p'.Lost k :=
  hp.elim h.held fun hl => Or.inr (h.lost hl)

/-- 送り終えた行は動かない。 -/
theorem of_sent (h : PhaseStep q p p') (hp : p.state = .sent) : p' = p := by
  cases h with
  | kept => rfl
  | claimed _ hopen => exact absurd hp (PeerPhase.ne_sent_of_isOpen hopen)
  | abandoned _ hopen => exact absurd hp (PeerPhase.ne_sent_of_isOpen hopen)
  | _ => cases hp

/-- 諦めた行が動くのは、戻すときだけである。 -/
theorem of_abandoned (h : PhaseStep q p p') (hp : p.state = .abandoned) :
    p' = p ∨ (p'.state = .pending ∧ q) := by
  cases h with
  | kept => exact Or.inl rfl
  | recovered n hq => exact Or.inr ⟨rfl, hq⟩
  | claimed _ hopen =>
    rw [hp] at hopen
    cases hopen
  | sent n cloudId id => cases hp
  | failed n cloudId state hstate => cases hp
  | abandoned _ hopen =>
    rw [hp] at hopen
    cases hopen

end PhaseStep

/-! ## 表の移り -/

/-- 一つの行の移り。 -/
structure PeerRowStep (recovers : PeerRow → Prop) (r r' : PeerRow) : Prop where
  stem : r'.stem = r.stem
  phase : PhaseStep (recovers r) r.phase r'.phase

theorem PeerRowStep.refl {q : PeerRow → Prop} (r : PeerRow) : PeerRowStep q r r :=
  ⟨rfl, .kept _⟩

/-- 作った行。呼び手の鍵の行は、同じ組の行が無いときにだけ作られる。 -/
structure PeerRowNew (digest : String → String → Nat → String) (o : PeerOutbox) (r : PeerRow) :
    Prop where
  id : r.id = o.nextId
  phase : r.phase = ⟨.pending, 0, none⟩
  generated : r.requestKey = "" → r.payload.dedupeKey = generatedKey digest r.payload r.id
  requested : r.requestKey ≠ "" → r.payload.dedupeKey = r.requestKey ∧ ∀ r₀ ∈ o.rows, r₀.slot ≠ r.slot

/-- 一歩の前後の表。 -/
structure PeerOutboxStep (digest : String → String → Nat → String) (recovers : PeerRow → Prop)
    (o o' : PeerOutbox) : Prop where
  kept : ∀ r ∈ o.rows, ∃ r' ∈ o'.rows, PeerRowStep recovers r r'
  origin : ∀ r' ∈ o'.rows, (∃ r ∈ o.rows, PeerRowStep recovers r r') ∨ PeerRowNew digest o r'

namespace PeerOutboxStep

variable {digest : String → String → Nat → String} {q : PeerRow → Prop} {o o' : PeerOutbox}

theorem refl (o : PeerOutbox) : PeerOutboxStep digest q o o where
  kept r hr := ⟨r, hr, .refl r⟩
  origin r hr := Or.inl ⟨r, hr, .refl r⟩

/-- 書き換える文。 -/
theorem update {p : PeerRow → Bool} {f : PeerRow → PeerRow} {hf : ∀ r, (f r).id = r.id}
    (hrow : ∀ r ∈ o.rows, p r = true → PeerRowStep q r (f r)) :
    PeerOutboxStep digest q o (o.update p f hf) where
  kept := by
    intro r hr
    refine ⟨_, mem_update.mpr ⟨r, hr, rfl⟩, ?_⟩
    split
    · next hp => exact hrow r hr hp
    · exact .refl r
  origin := by
    intro r' hr'
    obtain ⟨r, hr, rfl⟩ := mem_update.mp hr'
    refine Or.inl ⟨r, hr, ?_⟩
    split
    · next hp => exact hrow r hr hp
    · exact .refl r

/-- 足す文。 -/
theorem insert {row : Nat → PeerRow} (hid : ∀ n, (row n).id = n)
    (hnew : PeerRowNew digest o (row o.nextId)) :
    PeerOutboxStep digest q o (o.insert row hid) where
  kept r hr := ⟨r, mem_insert.mpr (Or.inl hr), .refl r⟩
  origin := by
    intro r' hr'
    rcases mem_insert.mp hr' with hr' | rfl
    · exact Or.inl ⟨r', hr', .refl r'⟩
    · exact Or.inr hnew

/-- 同じ番号の行は、その行の移った先である。 -/
theorem row_step (h : PeerOutboxStep digest q o o') {r r' : PeerRow} (hr : r ∈ o.rows)
    (hr' : r' ∈ o'.rows) (hid : r'.id = r.id) : PeerRowStep q r r' := by
  obtain ⟨r₁, hr₁, hstep⟩ := h.kept r hr
  have hid₁ : r₁.id = r.id := congrArg Prod.fst hstep.stem
  rwa [eq_of_id hr' hr₁ (hid.trans hid₁.symm)]

end PeerOutboxStep

/-! ## 一歩 -/

/-- 諦めた行を戻してよい送り。 -/
def PeerAct.recovers (a : PeerAct) (r : PeerRow) : Prop :=
  ∃ sender m recipient now, a = .enqueue sender m recipient true now ∧ m.slot = r.slot

section Step

variable {digest : String → String → Nat → String} {o : PeerOutbox} {s : PeerWorld}

theorem existing_eq_some {m : PeerSend} {r : PeerRow} (h : o.existing m = some r) :
    r ∈ o.rows ∧ r.slot = m.slot := by
  unfold existing at h
  split at h
  · cases h
  · exact ⟨List.mem_of_find?_eq_some h, by simpa using List.find?_some h⟩

theorem existing_eq_none {m : PeerSend} (h : o.existing m = none) (hkey : m.dedupeKey ≠ "") :
    ∀ r ∈ o.rows, r.slot ≠ m.slot := by
  unfold existing at h
  rw [if_neg hkey] at h
  intro r hr hslot
  exact List.find?_eq_none.mp h r hr (decide_eq_true hslot)

theorem keyed_of_ne {m : PeerSend} {id : Nat} (h : m.dedupeKey ≠ "") : keyed digest m id = m :=
  if_neg h

theorem keyed_of_eq {m : PeerSend} {id : Nat} (h : m.dedupeKey = "") :
    keyed digest m id = { m with dedupeKey := generatedKey digest m id } :=
  if_pos h

/-- 足す行。 -/
theorem peerRowNew_newRow {sender : PeerSender} {m : PeerSend} {recipient : String} {now : Int}
    (h : o.existing m = none) : PeerRowNew digest o (newRow digest sender m recipient now o.nextId) where
  id := rfl
  phase := rfl
  generated := by
    intro hkey
    show (keyed digest m o.nextId).dedupeKey = generatedKey digest (keyed digest m o.nextId) o.nextId
    rw [keyed_of_eq hkey]
    rfl
  requested := by
    intro hkey
    have hpayload : (newRow digest sender m recipient now o.nextId).payload = m := keyed_of_ne hkey
    refine ⟨congrArg PeerSend.dedupeKey hpayload, ?_⟩
    intro r₀ hr₀ hslot
    refine existing_eq_none h hkey r₀ hr₀ (hslot.trans ?_)
    unfold PeerRow.slot
    rw [hpayload]
    rfl

/-- 送りの transaction。 -/
theorem enqueue_outbox (sender : PeerSender) (m : PeerSend) (recipient : String)
    (recoverAbandoned : Bool) (now : Int) :
    PeerOutboxStep digest (PeerAct.enqueue sender m recipient recoverAbandoned now).recovers o
      (o.enqueueWithRecovery digest sender m recipient recoverAbandoned now).2 := by
  unfold enqueueWithRecovery
  cases hex : o.existing m with
  | some r₀ =>
    obtain ⟨hr₀, hslot⟩ := existing_eq_some hex
    dsimp only
    split
    · next hrec =>
      unfold PeerOutbox.recovers at hrec
      simp only [Bool.and_eq_true, decide_eq_true_eq, Option.isNone_iff_eq_none] at hrec
      obtain ⟨⟨rfl, -⟩, hcloud⟩ := hrec
      refine .update fun r hr hp => ⟨rfl, ?_⟩
      rw [Bool.and_eq_true, decide_eq_true_eq, decide_eq_true_eq] at hp
      obtain rfl : r = r₀ := eq_of_id hr hr₀ hp.1
      unfold PeerRow.phase
      dsimp only
      rw [hp.2, hcloud]
      exact .recovered _ ⟨sender, m, recipient, now, rfl, hslot.symm⟩
    · exact .refl o
  | none =>
    dsimp only
    split
    · exact .refl o
    · exact .insert (fun _ => rfl) (peerRowNew_newRow hex)

/-- 答を書く文。 -/
theorem settle_outbox {q : PeerRow → Prop} (f : Flight) (result : Except String SendReceipt) :
    PeerOutboxStep digest q o (o.settle f result) := by
  have hphase : ∀ r, awaits f r = true → r.phase = ⟨.retrying, r.attempts, r.cloudId⟩ := by
    intro r hr
    unfold awaits at hr
    simp only [Bool.and_eq_true, decide_eq_true_eq] at hr
    unfold PeerRow.phase
    rw [hr.1.2]
  cases result with
  | ok receipt =>
    refine .update fun r _ hp => ⟨rfl, ?_⟩
    rw [hphase r hp]
    exact .sent _ _ _
  | error cause =>
    refine .update fun r _ hp => ⟨rfl, ?_⟩
    rw [hphase r hp]
    refine .failed _ _ _ ?_
    unfold failedState
    split
    · exact Or.inl rfl
    · exact Or.inr rfl

/-- 一歩の前後の表。 -/
theorem peerStep_outbox (s : PeerWorld) (a : PeerAct) :
    PeerOutboxStep digest a.recovers s.outbox (peerStep digest s a).2.outbox := by
  cases a with
  | enqueue sender m recipient recoverAbandoned now =>
    exact enqueue_outbox sender m recipient recoverAbandoned now
  | claim pid id now =>
    dsimp only [peerStep]
    cases s.flights pid with
    | some f => exact .refl _
    | none =>
      refine .update fun r _ hp => ⟨rfl, .claimed r.phase ?_⟩
      unfold due at hp
      simp only [Bool.and_eq_true] at hp
      exact hp.1.1.2
  | answer pid result =>
    dsimp only [peerStep]
    cases s.flights pid with
    | none => exact .refl _
    | some f => exact settle_outbox f result
  | crash pid => exact .refl _
  | sweep now =>
    refine .update fun r _ hp => ⟨rfl, .abandoned r.phase ?_⟩
    unfold expired at hp
    simp only [Bool.and_eq_true] at hp
    exact hp.1.1
  | cancelBuildRoute sender key =>
    refine .update fun r _ hp => ⟨rfl, .abandoned r.phase ?_⟩
    unfold cancellable at hp
    simp only [Bool.and_eq_true] at hp
    exact hp.2
  | noticed id => exact .update fun r _ _ => ⟨rfl, .kept _⟩

/-! ## 試み -/

/-- 試みは、表にある行の中身を送っている。 -/
def PeerOutbox.Flight.Carried (o : PeerOutbox) (f : Flight) : Prop :=
  ∃ r ∈ o.rows, r.id = f.id ∧ r.payload = f.message ∧ (r.phase.Held f.attempt ∨ r.phase.Lost f.attempt)

theorem PeerOutbox.Flight.Carried.step {q : PeerRow → Prop} {o' : PeerOutbox} {f : Flight} (h : f.Carried o)
    (hstep : PeerOutboxStep digest q o o') : f.Carried o' := by
  obtain ⟨r, hr, hid, hmessage, hheld⟩ := h
  obtain ⟨r', hr', hrow⟩ := hstep.kept r hr
  have hstem := hrow.stem
  unfold PeerRow.stem at hstem
  simp only [Prod.mk.injEq] at hstem
  exact ⟨r', hr', hstem.1.trans hid, hstem.2.2.1.trans hmessage, hrow.phase.held_or_lost hheld⟩

/-- 借りた試み。 -/
theorem carried_flightOf {id : Nat} {now : Int} {f : Flight} (h : o.flightOf id now = some f) :
    f.id = id ∧ ∃ r ∈ (o.lend id now).rows, r.id = f.id ∧ r.payload = f.message ∧ r.phase.Held f.attempt := by
  unfold flightOf at h
  obtain ⟨r, hr, rfl⟩ := Option.map_eq_some_iff.mp h
  have hfind := (Option.filter_eq_some_iff.mp hr).1
  have hdue : due id now r = true := by simpa using List.find?_some hfind
  have hid : r.id = id := by
    unfold due at hdue
    simp only [Bool.and_eq_true, decide_eq_true_eq] at hdue
    exact hdue.1.1.1
  refine ⟨hid, _, mem_update.mpr ⟨r, List.mem_of_find?_eq_some hfind, rfl⟩, ?_⟩
  rw [if_pos hdue]
  exact ⟨rfl, rfl, rfl, rfl⟩

/-- 答は、借りたときのままの行だけを変える。 -/
theorem settle_changes {f : Flight} {result : Except String SendReceipt} {r : PeerRow} (hr : r ∈ o.rows)
    (hchanged : r ∉ (o.settle f result).rows) : r.id = f.id ∧ r.phase.Held f.attempt := by
  have hawaits : awaits f r = true := by
    by_contra hp
    refine hchanged ?_
    cases result with
    | ok receipt => exact mem_update.mpr ⟨r, hr, if_neg hp⟩
    | error cause => exact mem_update.mpr ⟨r, hr, if_neg hp⟩
  unfold awaits at hawaits
  simp only [Bool.and_eq_true, decide_eq_true_eq] at hawaits
  exact ⟨hawaits.1.1, hawaits.1.2, hawaits.2⟩

/-- ほかの process の一歩は、試みを変えない。 -/
theorem peerStep_flights {a : PeerAct} {pid : Nat} (h : a.pid? ≠ some pid) :
    (peerStep digest s a).2.flights pid = s.flights pid := by
  have hne : ∀ {p : Nat}, some p ≠ some pid → pid ≠ p := fun hp he => hp (congrArg some he.symm)
  cases a with
  | claim p id now =>
    dsimp only [peerStep]
    cases s.flights p with
    | some f => rfl
    | none => exact Function.update_of_ne (hne h) _ _
  | answer p result =>
    dsimp only [peerStep]
    cases s.flights p with
    | none => rfl
    | some f => exact Function.update_of_ne (hne h) _ _
  | crash p => exact Function.update_of_ne (hne h) _ _
  | _ => rfl

/-- 一歩の後の試み。新しい試みは、いま借りたものである。 -/
theorem flight_origin {a : PeerAct} {pid : Nat} {f : Flight}
    (h : (peerStep digest s a).2.flights pid = some f) :
    s.flights pid = some f
      ∨ ∃ id now, a = .claim pid id now ∧ s.flights pid = none ∧ s.outbox.flightOf id now = some f := by
  by_cases hpid : a.pid? = some pid
  · cases a with
    | claim p id now =>
      cases hpid
      dsimp only [peerStep] at h
      cases hf : s.flights pid with
      | some f₀ =>
        rw [hf] at h
        exact Or.inl (hf.symm.trans h)
      | none =>
        rw [hf] at h
        dsimp only at h
        rw [Function.update_self] at h
        exact Or.inr ⟨id, now, rfl, rfl, h⟩
    | answer p result =>
      cases hpid
      dsimp only [peerStep] at h
      cases hf : s.flights pid with
      | none =>
        rw [hf] at h
        exact absurd (hf.symm.trans h) (by simp)
      | some f₀ =>
        rw [hf] at h
        dsimp only at h
        rw [Function.update_self] at h
        cases h
    | crash p =>
      cases hpid
      dsimp only [peerStep] at h
      rw [Function.update_self] at h
      cases h
    | _ => cases hpid
  · exact Or.inl (peerStep_flights hpid ▸ h)

end Step

/-! ## 実行の全体 -/

/-- 到達する状態。 -/
def peerRun (digest : String → String → Nat → String) (acts : List PeerAct) : PeerWorld :=
  run (peerStep digest) {} acts

/-- 到達する表。 -/
abbrev peerRows (digest : String → String → Nat → String) (acts : List PeerAct) : List PeerRow :=
  (peerRun digest acts).outbox.rows

/-- 保たれる性質。 -/
structure PeerInv (digest : String → String → Nat → String) (s : PeerWorld) : Prop where
  sound : ∀ r ∈ s.outbox.rows, r.phase.Sound
  generated : ∀ r ∈ s.outbox.rows, r.requestKey = "" →
    r.payload.dedupeKey = generatedKey digest r.payload r.id
  requested : ∀ r ∈ s.outbox.rows, r.requestKey ≠ "" → r.payload.dedupeKey = r.requestKey
  unique : ∀ r ∈ s.outbox.rows, ∀ r' ∈ s.outbox.rows, r.slot = r'.slot → r.id < r'.id →
    r'.requestKey = ""
  carried : ∀ pid f, s.flights pid = some f → f.Carried s.outbox

section Run

variable {digest : String → String → Nat → String} {acts : List PeerAct}

theorem PeerRowStep.fields {q : PeerRow → Prop} {r r' : PeerRow} (h : PeerRowStep q r r') :
    r'.id = r.id ∧ r'.slot = r.slot ∧ r'.payload = r.payload ∧ r'.requestKey = r.requestKey := by
  have hstem := h.stem
  unfold PeerRow.stem at hstem
  simp only [Prod.mk.injEq] at hstem
  obtain ⟨hid, hsender, hpayload, hkey⟩ := hstem
  refine ⟨hid, ?_, hpayload, hkey⟩
  unfold PeerRow.slot
  rw [hsender, hpayload]

theorem PeerInv.step {s : PeerWorld} (h : PeerInv digest s) (a : PeerAct) :
    PeerInv digest (peerStep digest s a).2 := by
  have hstep : PeerOutboxStep digest _ _ _ := peerStep_outbox s a
  constructor
  · intro r' hr'
    rcases hstep.origin r' hr' with ⟨r, hr, hrow⟩ | hnew
    · exact hrow.phase.sound (h.sound r hr)
    · rw [hnew.phase]
      simp [PeerPhase.Sound]
  · intro r' hr'
    rcases hstep.origin r' hr' with ⟨r, hr, hrow⟩ | hnew
    · obtain ⟨hid, -, hpayload, hkey⟩ := hrow.fields
      rw [hid, hpayload, hkey]
      exact h.generated r hr
    · exact hnew.generated
  · intro r' hr'
    rcases hstep.origin r' hr' with ⟨r, hr, hrow⟩ | hnew
    · obtain ⟨-, -, hpayload, hkey⟩ := hrow.fields
      rw [hpayload, hkey]
      exact h.requested r hr
    · exact fun hkey => (hnew.requested hkey).1
  · intro r₁ hr₁ r₂ hr₂ hslot hlt
    rcases hstep.origin r₂ hr₂ with ⟨r, hr, hrow⟩ | hnew
    · obtain ⟨hid, hslot₂, -, hkey⟩ := hrow.fields
      rw [hkey]
      -- 新しい行はどの行よりも後なので、先の行も前からある
      rcases hstep.origin r₁ hr₁ with ⟨r₀, hr₀, hrow₀⟩ | hnew₁
      · obtain ⟨hid₀, hslot₀, -, -⟩ := hrow₀.fields
        refine h.unique r₀ hr₀ r hr ?_ ?_
        · rw [← hslot₀, hslot, hslot₂]
        · rw [← hid₀, ← hid]
          exact hlt
      · have hlater := s.outbox.fresh r hr
        rw [← hid, ← hnew₁.id] at hlater
        exact absurd hlt (Nat.lt_asymm hlater)
    · by_contra hkey
      rcases hstep.origin r₁ hr₁ with ⟨r₀, hr₀, hrow₀⟩ | hnew₁
      · refine (hnew.requested hkey).2 r₀ hr₀ ?_
        rw [← hslot, hrow₀.fields.2.1]
      · -- 一歩で作る行は一つである
        rw [hnew₁.id, hnew.id] at hlt
        exact absurd hlt (Nat.lt_irrefl _)
  · intro pid f hf
    rcases flight_origin hf with hf | ⟨id, now, rfl, hnone, hflight⟩
    · exact (h.carried pid f hf).step hstep
    · obtain ⟨-, r, hr, hid, hmessage, hheld⟩ := carried_flightOf hflight
      refine ⟨r, ?_, hid, hmessage, Or.inl hheld⟩
      dsimp only [peerStep]
      rw [hnone]
      exact hr

theorem peerInv_run (acts : List PeerAct) : PeerInv digest (peerRun digest acts) := by
  refine run_invariant' (I := PeerInv digest) (fun s a h => h.step a) ?_
  constructor
  · exact fun r hr => absurd hr List.not_mem_nil
  · exact fun r hr => absurd hr List.not_mem_nil
  · exact fun r hr => absurd hr List.not_mem_nil
  · exact fun r hr => absurd hr List.not_mem_nil
  · intro pid f hf
    cases hf

/-- 行の移りで保たれる性質は、実行の間その行に残る。 -/
theorem row_run {P : PeerRow → Prop} (hP : ∀ q r r', PeerRowStep q r r' → P r → P r') :
    ∀ {acts : List PeerAct} {s : PeerWorld} {r : PeerRow}, r ∈ s.outbox.rows → P r →
    ∃ r' ∈ (run (peerStep digest) s acts).outbox.rows, P r'
  | [], _, r, hr, hp => ⟨r, hr, hp⟩
  | a :: acts, s, r, hr, hp => by
    obtain ⟨r₁, hr₁, hstep⟩ := (peerStep_outbox s a).kept r hr
    show ∃ r' ∈ (run (peerStep digest) (peerStep digest s a).2 acts).outbox.rows, P r'
    exact row_run hP hr₁ (hP _ r r₁ hstep hp)

/-- ほかの process の実行は、試みを変えない。 -/
theorem flights_run {pid : Nat} : ∀ {acts : List PeerAct} {s : PeerWorld},
    (∀ a ∈ acts, a.pid? ≠ some pid) → (run (peerStep digest) s acts).flights pid = s.flights pid
  | [], _, _ => rfl
  | a :: acts, s, h => by
    show (run (peerStep digest) (peerStep digest s a).2 acts).flights pid = _
    rw [flights_run fun b hb => h b (List.mem_cons_of_mem a hb), peerStep_flights (h a List.mem_cons_self)]

/-- 借りた一歩。 -/
theorem flight_of_claimed {s : PeerWorld} {pid id : Nat} {now : Int} {k : Nat}
    (h : (peerStep digest s (.claim pid id now)).1 = .claimed k) :
    ∃ f, (peerStep digest s (.claim pid id now)).2.flights pid = some f ∧ f.id = id ∧ f.attempt = k
      ∧ ∃ r ∈ (peerStep digest s (.claim pid id now)).2.outbox.rows, r.id = id ∧ r.phase.Held k := by
  dsimp only [peerStep] at h ⊢
  cases hf : s.flights pid with
  | some f =>
    rw [hf] at h
    cases h
  | none =>
    rw [hf] at h
    dsimp only at h ⊢
    cases hflight : s.outbox.flightOf id now with
    | none =>
      rw [hflight] at h
      cases h
    | some f =>
      rw [hflight] at h
      obtain rfl : f.attempt = k := by simpa using h
      obtain ⟨hid, r, hr, hrid, -, hheld⟩ := carried_flightOf hflight
      exact ⟨f, Function.update_self .., hid, rfl, r, hr, hrid.trans hid, hheld⟩

/-! ## 定理 -/

/-- 送りの列の性質。 -/
structure PeerOutboxLaw (digest : String → String → Nat → String) (acts : List PeerAct) : Prop where
  /-- 呼び手の渡した鍵の行は、同じ組に高々一つである。 -/
  unique : ∀ r ∈ peerRows digest acts, ∀ r' ∈ peerRows digest acts, r.slot = r'.slot →
    r.requestKey ≠ "" → r'.requestKey ≠ "" → r = r'
  /-- 同じ組の行が二つあれば、後の行の鍵は番号から作ったものである。 -/
  later : ∀ r ∈ peerRows digest acts, ∀ r' ∈ peerRows digest acts, r.slot = r'.slot →
    r.id < r'.id → r'.requestKey = ""
  /-- 行の鍵は、呼び手の渡したものか、番号から作ったものである。 -/
  key : ∀ r ∈ peerRows digest acts,
    (r.requestKey ≠ "" → r.payload.dedupeKey = r.requestKey)
      ∧ (r.requestKey = "" → r.payload.dedupeKey = generatedKey digest r.payload r.id)
  /-- 行は消えず、中身は変わらない。 -/
  kept : ∀ pre post, acts = pre ++ post → ∀ r ∈ peerRows digest pre,
    ∃ r' ∈ peerRows digest acts, r'.stem = r.stem
  /-- 送っている中身は、行の中身である。 -/
  carried : ∀ pid f, (peerRun digest acts).flights pid = some f →
    ∃ r ∈ peerRows digest acts, r.id = f.id ∧ r.payload = f.message
  /-- 答の変えた行は、借りてから答までのどの時にも、その試みの借りたままであった。 -/
  fenced : ∀ pre pid id now mid result post k,
    acts = pre ++ .claim pid id now :: (mid ++ .answer pid result :: post) →
    (∀ a ∈ mid, a.pid? ≠ some pid) →
    (peerStep digest (peerRun digest pre) (.claim pid id now)).1 = .claimed k →
    ∀ r ∈ peerRows digest (pre ++ .claim pid id now :: mid),
      r ∉ peerRows digest (pre ++ .claim pid id now :: (mid ++ [.answer pid result])) →
      r.id = id ∧ ∀ mid₁ mid₂, mid = mid₁ ++ mid₂ →
        ∃ r₁ ∈ peerRows digest (pre ++ .claim pid id now :: mid₁),
          r₁.id = id ∧ r₁.state = .retrying ∧ r₁.attempts = k
  /-- cloud の番号があるのは、送り終えた行だけである。 -/
  cloudId : ∀ r ∈ peerRows digest acts, r.cloudId.isSome = true ↔ r.state = .sent
  /-- 送り終えた行は、状態も cloud の番号も変わらない。 -/
  sent : ∀ pre post, acts = pre ++ post → ∀ r ∈ peerRows digest pre, r.state = .sent →
    ∃ r' ∈ peerRows digest acts, r'.id = r.id ∧ r'.state = .sent ∧ r'.cloudId = r.cloudId
  /-- 諦めた行が動くのは、戻す送りによって `pending` へだけである。 -/
  recovered : ∀ pre a post, acts = pre ++ a :: post → ∀ r ∈ peerRows digest pre,
    r.state = .abandoned → ∀ r' ∈ peerRows digest (pre ++ [a]), r'.id = r.id →
    r'.state ≠ .abandoned → r'.state = .pending ∧ a.recovers r

theorem peerRun_append (acts acts' : List PeerAct) :
    peerRun digest (acts ++ acts') = run (peerStep digest) (peerRun digest acts) acts' :=
  run_append _ _ _

theorem peerRun_cons (pre acts : List PeerAct) (a : PeerAct) :
    peerRun digest (pre ++ a :: acts)
      = run (peerStep digest) (peerStep digest (peerRun digest pre) a).2 acts :=
  peerRun_append pre (a :: acts)

/-- 答は、借りた試みのものだけが書く。 -/
theorem answer_fenced {pre mid : List PeerAct} {pid id k : Nat} {now : Int}
    {result : Except String SendReceipt} (hmid : ∀ a ∈ mid, a.pid? ≠ some pid)
    (hclaim : (peerStep digest (peerRun digest pre) (.claim pid id now)).1 = .claimed k) {r : PeerRow}
    (hr : r ∈ peerRows digest (pre ++ .claim pid id now :: mid))
    (hchanged : r ∉ peerRows digest (pre ++ .claim pid id now :: (mid ++ [.answer pid result])))
    {mid₁ mid₂ : List PeerAct} (hsplit : mid = mid₁ ++ mid₂) :
    r.id = id ∧ ∃ r₁ ∈ peerRows digest (pre ++ .claim pid id now :: mid₁),
      r₁.id = id ∧ r₁.state = .retrying ∧ r₁.attempts = k := by
  obtain ⟨f, hf, rfl, rfl, r₀, hr₀, hid₀, hheld₀⟩ := flight_of_claimed hclaim
  -- 答の前の、借りた process の試みは、借りたときのものである
  have hflight : (peerRun digest (pre ++ .claim pid f.id now :: mid)).flights pid = some f := by
    rw [peerRun_cons, flights_run hmid]
    exact hf
  have hsettled : peerRows digest (pre ++ .claim pid f.id now :: (mid ++ [.answer pid result]))
      = ((peerRun digest (pre ++ .claim pid f.id now :: mid)).outbox.settle f result).rows := by
    unfold peerRows
    rw [show pre ++ .claim pid f.id now :: (mid ++ [.answer pid result])
      = (pre ++ .claim pid f.id now :: mid) ++ [.answer pid result] by simp, peerRun_append, run_cons,
      run_nil]
    dsimp only [peerStep]
    rw [hflight]
  rw [hsettled] at hchanged
  obtain ⟨hid, hheld⟩ := settle_changes hr hchanged
  refine ⟨hid, ?_⟩
  -- 途中の行は、まだ書けるか、もう書けないかである
  obtain ⟨r₁, hr₁, hid₁, hphase₁⟩ : ∃ r₁ ∈ peerRows digest (pre ++ .claim pid f.id now :: mid₁),
      r₁.id = f.id ∧ (r₁.phase.Held f.attempt ∨ r₁.phase.Lost f.attempt) := by
    unfold peerRows
    rw [peerRun_cons]
    refine row_run (P := fun r => r.id = f.id ∧ (r.phase.Held f.attempt ∨ r.phase.Lost f.attempt)) ?_ hr₀
      ⟨hid₀, Or.inl hheld₀⟩
    rintro q r r' hstep ⟨hrid, hp⟩
    exact ⟨hstep.fields.1.trans hrid, hstep.phase.held_or_lost hp⟩
  refine ⟨r₁, hr₁, hid₁, ?_⟩
  rcases hphase₁ with hheld₁ | hlost₁
  · exact ⟨hheld₁.1, hheld₁.2⟩
  · -- もう書けない行は答のときにも書けないので、答は変えられなかった
    exfalso
    obtain ⟨r₂, hr₂, hid₂, hlost₂⟩ : ∃ r₂ ∈ peerRows digest (pre ++ .claim pid f.id now :: mid),
        r₂.id = f.id ∧ r₂.phase.Lost f.attempt := by
      unfold peerRows
      rw [hsplit, show pre ++ .claim pid f.id now :: (mid₁ ++ mid₂)
        = (pre ++ .claim pid f.id now :: mid₁) ++ mid₂ by simp, peerRun_append]
      refine row_run (P := fun r => r.id = f.id ∧ r.phase.Lost f.attempt) ?_ hr₁ ⟨hid₁, hlost₁⟩
      rintro q r r' hstep ⟨hrid, hp⟩
      exact ⟨hstep.fields.1.trans hrid, hstep.phase.lost hp⟩
    obtain rfl := eq_of_id hr hr₂ (hid.trans hid₂.symm)
    exact hheld.not_lost hlost₂

theorem peer_outbox_fenced (digest : String → String → Nat → String) (acts : List PeerAct) :
    PeerOutboxLaw digest acts where
  unique := by
    intro r hr r' hr' hslot hkey hkey'
    by_contra hne
    have hid : r.id ≠ r'.id := fun h => hne (eq_of_id hr hr' h)
    rcases Nat.lt_or_gt_of_ne hid with hlt | hgt
    · exact hkey' ((peerInv_run acts).unique r hr r' hr' hslot hlt)
    · exact hkey ((peerInv_run acts).unique r' hr' r hr hslot.symm hgt)
  later := (peerInv_run acts).unique
  key r hr := ⟨(peerInv_run acts).requested r hr, (peerInv_run acts).generated r hr⟩
  kept := by
    rintro pre post rfl r hr
    unfold peerRows
    rw [peerRun_append]
    refine row_run (P := fun r' => r'.stem = r.stem) ?_ hr rfl
    intro q r₁ r₂ hstep h
    exact hstep.stem.trans h
  carried := by
    intro pid f hf
    obtain ⟨r, hr, hid, hmessage, -⟩ := (peerInv_run acts).carried pid f hf
    exact ⟨r, hr, hid, hmessage⟩
  fenced := by
    intro pre pid id now mid result post k _ hmid hclaim r hr hchanged
    refine ⟨(answer_fenced hmid hclaim hr hchanged (List.append_nil mid).symm).1, ?_⟩
    intro mid₁ mid₂ hsplit
    exact (answer_fenced hmid hclaim hr hchanged hsplit).2
  cloudId := (peerInv_run acts).sound
  sent := by
    rintro pre post rfl r hr hsent
    unfold peerRows
    rw [peerRun_append]
    refine row_run (P := fun r' => r'.id = r.id ∧ r'.state = .sent ∧ r'.cloudId = r.cloudId) ?_ hr
      ⟨rfl, hsent, rfl⟩
    rintro q r₁ r₂ hstep ⟨hid, hstate, hcloud⟩
    have hphase := hstep.phase.of_sent hstate
    refine ⟨hstep.fields.1.trans hid, ?_, ?_⟩
    · exact (congrArg PeerPhase.state hphase).trans hstate
    · exact (congrArg PeerPhase.cloudId hphase).trans hcloud
  recovered := by
    rintro pre a post - r hr habandoned r' hr' hid hne
    unfold peerRows at hr'
    rw [peerRun_append, run_cons, run_nil] at hr'
    have hrow := (peerStep_outbox (peerRun digest pre) a).row_step hr hr' hid
    rcases hrow.phase.of_abandoned habandoned with hphase | hpending
    · exact absurd ((congrArg PeerPhase.state hphase).trans habandoned) hne
    · exact hpending

end Run

end Cassy
