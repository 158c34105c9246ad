import Cassy.Properties.SplitRollback

/-!
# 分割の知らせの再配達

誤りを返した `ingest` には、同じ知らせがもう一度届く。どこで何度失敗しても、一度受け取り終えれば、失敗せずに一度だけ
受け取ったときと同じになり、その後に何度届いても変わらない（`redelivered_split_settles`）。

決定を書いた後で失敗したときは、次に届いたときに後始末だけをやり直す。書いた決定は二度目には当てはまらない。
-/

namespace Cassy

open Infra

/-! ## 借りを手放す -/

/-- `c'` は、名指した子の借りのいくつかを手放した `c` である。 -/
def PeerClaims.Released (agent : String) (ids : List String) (c c' : PeerClaims) : Prop :=
  ∀ x, c'.holder x = c.holder x ∨ (x ∈ ids ∧ c.holder x = some agent ∧ c'.holder x = none)

namespace PeerClaims

variable {agent : String} {ids : List String} {c c' : PeerClaims}

theorem Released.refl (agent : String) (ids : List String) (c : PeerClaims) : Released agent ids c c :=
  fun _ => .inl rfl

theorem Released.trans {c'' : PeerClaims} (h : Released agent ids c c')
    (h' : Released agent ids c' c'') : Released agent ids c c'' := by
  intro x
  rcases h' x with heq' | ⟨hx, hheld, hnone⟩
  · rw [heq']
    exact h x
  · right
    rcases h x with heq | ⟨-, -, hfree⟩
    · exact ⟨hx, heq ▸ hheld, hnone⟩
    · rw [hfree] at hheld
      cases hheld

theorem released_releaseOwn {id : String} (hid : id ∈ ids) (c : PeerClaims) :
    Released agent ids c (c.releaseOwn id agent) := by
  intro x
  rw [holder_releaseOwn]
  split
  · next hx => exact .inr ⟨hx.1 ▸ hid, hx.2, rfl⟩
  · exact .inl rfl

/-- いくつか手放した後で全てを手放しても、初めから全てを手放したのと同じである。 -/
theorem Released.releaseShare_eq (h : Released agent ids c c') :
    c'.releaseShare ids agent = c.releaseShare ids agent := by
  refine PeerClaims.ext (funext fun x => ?_)
  rw [holder_releaseShare, holder_releaseShare]
  rcases h x with heq | ⟨hx, hheld, hnone⟩
  · rw [heq]
  · rw [hnone, hheld, if_neg (fun hc => by cases hc.2), if_pos ⟨hx, rfl⟩]

/-- 全てを手放した後に、手放すものは無い。 -/
theorem Released.eq_releaseShare (h : Released agent ids (c.releaseShare ids agent) c') :
    c' = c.releaseShare ids agent := by
  refine PeerClaims.ext (funext fun x => ?_)
  rcases h x with heq | ⟨hx, hheld, -⟩
  · exact heq
  · rw [holder_releaseShare] at hheld
    split at hheld
    · cases hheld
    · next hnot => exact absurd ⟨hx, hheld⟩ hnot

theorem released_releaseShare (c : PeerClaims) : Released agent ids c (c.releaseShare ids agent) := by
  intro x
  rw [holder_releaseShare]
  split
  · next hx => exact .inr ⟨hx.1, hx.2, rfl⟩
  · exact .inl rfl

theorem releaseEach_spec {released : Nat → Bool} (todo : List String) (i : Nat)
    (htodo : ∀ id ∈ todo, id ∈ ids) (c : PeerClaims) :
    Released agent ids c (releaseEach agent released todo i c).2 ∧
    ((releaseEach agent released todo i c).1 = true →
      (releaseEach agent released todo i c).2 = c.releaseShare todo agent) := by
  induction todo generalizing i c with
  | nil => exact ⟨.refl agent ids c, fun _ => rfl⟩
  | cons id todo ih =>
    obtain ⟨hid, htodo⟩ := List.forall_mem_cons.mp htodo
    rw [releaseEach]
    split
    · obtain ⟨hreleased, hall⟩ := ih (i + 1) htodo (c.releaseOwn id agent)
      exact ⟨(released_releaseOwn hid c).trans hreleased, hall⟩
    · exact ⟨.refl agent ids c, nofun⟩

end PeerClaims

/-! ## 決定を書く -/

/-- 相手の決定。 -/
def ClaimedPeerMessage.decision (m : ClaimedPeerMessage) : SplitDecision where
  id := m.line.id
  fromStates := m.line.kind.moves.1
  toState := m.line.kind.moves.2
  reason := m.line.reason
  time := m.line.time
  actor := some m.senderAgentId

variable {sql : SplitSql} {recipient : String} {m : ClaimedPeerMessage} {r : EpicSplit}

/-- 決定の後の行。 -/
def SplitDecision.decided (sql : SplitSql) (d : SplitDecision) (r : EpicSplit) : EpicSplit :=
  if d.applies sql r then d.apply r else r

/-- 書いた決定は、二度目には当てはまらない。 -/
theorem applies_decided (hkind : m.line.kind ≠ .proposal) (r : EpicSplit) :
    m.decision.applies sql (m.decision.decided sql r) = false := by
  unfold SplitDecision.decided
  cases happ : m.decision.applies sql r with
  | false => rw [if_neg Bool.false_ne_true, happ]
  | true =>
    have hnot : m.decision.toState ∉ m.decision.fromStates := by
      unfold ClaimedPeerMessage.decision
      cases hk : m.line.kind <;> simp [hk, SplitKind.moves] at hkind ⊢
    rw [if_pos rfl]
    simp [SplitDecision.applies, SplitDecision.apply, hnot]

theorem applies_settle (d : SplitDecision) (cleanup : Bool) (r : EpicSplit) :
    d.applies sql (r.settle cleanup) = d.applies sql r := rfl

/-- 届いた知らせが当事者のものかどうかは、決定と後始末では変わらない。 -/
theorem admits_decided (sender : String) (r : EpicSplit) :
    m.line.admits sender recipient (m.decision.decided sql r) = m.line.admits sender recipient r := by
  unfold SplitDecision.decided
  split <;> rfl

/-- 片付いた分割の後始末は、借りを手放し直すだけである。 -/
theorem finishEpicSplitWork_of_settled {t : SplitTable} (hr : t.find? r.id = some r)
    (hdone : r.cleanupPending = false ∨ r.decidedAt = none) : finishEpicSplitWork t r true = t := by
  unfold finishEpicSplitWork
  refine @Table.update_eq_self _ _ EpicSplit.id t _ (EpicSplit.settle true) (fun _ => rfl)
    fun r' hr' hp => ?_
  simp only [Bool.and_eq_true, decide_eq_true_eq] at hp
  obtain rfl : r = r' := Table.eq_of_key (Table.mem_of_find? hr) hr' hp.1.1.1.symm
  rcases hdone with hclean | hnone
  · rcases r with ⟨⟩
    obtain rfl := hclean
    simp [EpicSplit.settle]
  · rw [hnone] at hp
    cases hp.1.2

namespace SplitSide

/-- 決定を書いた後。 -/
def decided (sql : SplitSql) (m : ClaimedPeerMessage) (s : SplitSide) : SplitSide :=
  { s with db := { s.db with splits := (decideEpicSplitBy sql s.db.splits m.decision).2 } }

/-- 分割 `r` の後始末をした後。 -/
def cleaned (r : EpicSplit) (s : SplitSide) : SplitSide :=
  if r.cleanupPending then
    { db := { s.db with splits := finishEpicSplitWork s.db.splits r true },
      claims := s.claims.releaseShare r.mine r.localAgentId }
  else s

/-- 知らせの名指す分割。 -/
def split? (s : SplitSide) (m : ClaimedPeerMessage) : Option EpicSplit := s.db.splits.find? m.line.id

variable {s s' : SplitSide}

theorem split?_decided (sql : SplitSql) (m : ClaimedPeerMessage) (s : SplitSide) :
    (s.decided sql m).split? m = (s.split? m).map (m.decision.decided sql) := find?_decide _ _ _

/-- 二度目の決定は、何も書かない。 -/
theorem decided_eq_self (hr : s.split? m = some r) (happ : m.decision.applies sql r = false) :
    s.decided sql m = s := by
  have hsplits : (decideEpicSplitBy sql s.db.splits m.decision).2 = s.db.splits := by
    unfold decideEpicSplitBy
    refine @Table.update_eq_self _ _ EpicSplit.id s.db.splits (m.decision.applies sql) m.decision.apply
      (fun _ => rfl) fun r' hr' happ' => ?_
    have hid : r'.id = m.line.id := by
      simp only [SplitDecision.applies, Bool.and_eq_true, decide_eq_true_eq] at happ'
      exact happ'.1.1.1
    have hfind : s.split? m = some r' := by
      rw [split?, ← hid]
      exact Table.find?_of_mem hr'
    obtain rfl : r = r' := Option.some.inj (hr.symm.trans hfind)
    rw [happ] at happ'
    cases happ'
  rw [decided, hsplits]

/-- 後始末の後の行。決めた時刻の無い行は片付かない。 -/
theorem split?_cleaned (hr : s.split? m = some r) :
    (s.cleaned r).split? m = some (if r.cleanupPending && r.decidedAt.isSome then r.settle true else r) := by
  cases hpending : r.cleanupPending with
  | false => simpa [cleaned, hpending] using hr
  | true =>
    have hfind := @Table.find?_update _ _ EpicSplit.id _ s.db.splits
      (fun r' => r'.id = r.id && r'.state = r.state && r'.decidedAt.isSome && r'.decidedAt = r.decidedAt)
      (EpicSplit.settle true) (fun _ => rfl) m.line.id
    have hrow : s.db.splits.find? m.line.id = some r := hr
    rw [hrow, Option.map_some] at hfind
    rw [cleaned, if_pos hpending]
    refine hfind.trans ?_
    simp

/-- 受け取り終えた後。 -/
def settled (sql : SplitSql) (recipient : String) (m : ClaimedPeerMessage) (s : SplitSide) : SplitSide :=
  match s.split? m with
  | none => s
  | some r =>
    if m.line.admits m.senderAgentId recipient r then
      (s.decided sql m).cleaned (m.decision.decided sql r)
    else s

end SplitSide

/-! ## 一通の知らせ -/

variable {s s' : SplitSide} {o : IngestOutside}

theorem releaseEach_all {agent : String} (todo : List String) (i : Nat) (c : PeerClaims) :
    (releaseEach agent (fun _ => true) todo i c).1 = true := by
  induction todo generalizing i c with
  | nil => rfl
  | cons id todo ih => exact ih (i + 1) (c.releaseOwn id agent)

/-- 借りのいくつかを手放した。後始末の要らない分割では、何も手放さない。 -/
def EpicSplit.Loosed (r : EpicSplit) (c c' : PeerClaims) : Prop :=
  c' = c ∨ (r.cleanupPending = true ∧ c.Released r.localAgentId r.mine c')

theorem EpicSplit.Loosed.trans {c c' c'' : PeerClaims} (h : r.Loosed c c') (h' : r.Loosed c' c'') :
    r.Loosed c c'' := by
  rcases h with rfl | ⟨hpending, hreleased⟩
  · exact h'
  · rcases h' with rfl | ⟨-, hreleased'⟩
    · exact .inr ⟨hpending, hreleased⟩
    · exact .inr ⟨hpending, hreleased.trans hreleased'⟩

/-- 後始末をやり直しても、初めから終えたのと同じである。 -/
theorem EpicSplit.Loosed.cleaned_eq {c : PeerClaims} (h : r.Loosed s.claims c) :
    ({ s with claims := c } : SplitSide).cleaned r = s.cleaned r := by
  rcases h with rfl | ⟨hpending, hreleased⟩
  · rfl
  · rw [SplitSide.cleaned, SplitSide.cleaned, if_pos hpending, if_pos hpending, hreleased.releaseShare_eq]

/-- 後始末は、終わるか、借りのいくつかを手放すだけである。 -/
theorem cleanupDecision_spec (o : IngestOutside) (r : EpicSplit) (s : SplitSide) :
    cleanupDecision o r s = (true, s.cleaned r) ∨
    ∃ c, r.Loosed s.claims c ∧ cleanupDecision o r s = (false, { s with claims := c }) := by
  unfold cleanupDecision
  cases hpending : r.cleanupPending with
  | false => exact .inl (by simp [SplitSide.cleaned, hpending])
  | true =>
    simp only [Bool.not_true, Bool.false_eq_true, if_false]
    split
    · exact .inr ⟨s.claims, .inl rfl, rfl⟩
    · obtain ⟨hreleased, hall⟩ := @PeerClaims.releaseEach_spec r.localAgentId r.mine o.released r.mine 0
        (fun _ h => h) s.claims
      rcases hclaims : releaseEach r.localAgentId o.released r.mine 0 s.claims with ⟨ok, c⟩
      rw [hclaims] at hreleased hall
      cases ok with
      | false => exact .inr ⟨c, .inr ⟨hpending, hreleased⟩, rfl⟩
      | true =>
        obtain rfl : c = s.claims.releaseShare r.mine r.localAgentId := hall rfl
        cases hfinished : o.finished with
        | false => exact .inr ⟨_, .inr ⟨hpending, hreleased⟩, by simp⟩
        | true => exact .inl (by simp [SplitSide.cleaned, hpending])

theorem cleanupDecision_perfect (now : Time) (r : EpicSplit) (s : SplitSide) :
    cleanupDecision { now } r s = (true, s.cleaned r) := by
  unfold cleanupDecision SplitSide.cleaned
  cases hpending : r.cleanupPending with
  | false => rfl
  | true =>
    obtain ⟨-, hall⟩ := @PeerClaims.releaseEach_spec r.localAgentId r.mine (fun _ => true) r.mine 0
      (fun _ h => h) s.claims
    have hok := @releaseEach_all r.localAgentId r.mine 0 s.claims
    rcases hclaims : releaseEach r.localAgentId (fun _ => true) r.mine 0 s.claims with ⟨ok, c⟩
    rw [hclaims] at hall hok
    obtain rfl : ok = true := hok
    obtain rfl : c = s.claims.releaseShare r.mine r.localAgentId := hall rfl
    simp

/-- 当事者でない知らせは、何も変えない。 -/
theorem ingestDecision_of_not_admits
    (h : ∀ r, s.split? m = some r → m.line.admits m.senderAgentId recipient r = false) :
    (ingestDecision sql o recipient m s).2 = s ∧ s.settled sql recipient m = s := by
  unfold ingestDecision SplitSide.settled
  cases hr : s.split? m with
  | none =>
    refine ⟨?_, rfl⟩
    split
    · rfl
    · rw [show s.db.splits.find? m.line.id = none from hr]
  | some r =>
    have hadmits := h r hr
    refine ⟨?_, by simp [hadmits]⟩
    split
    · rfl
    · rw [show s.db.splits.find? m.line.id = some r from hr]
      simp [hadmits]

/-- 当事者の知らせは、受け取り終えるか、何も変えないか、決定を書いて後始末の途中で終わる。 -/
theorem ingestDecision_spec (hr : s.split? m = some r)
    (hadmits : m.line.admits m.senderAgentId recipient r = true) :
    (ingestDecision sql o recipient m s).2 = (s.decided sql m).cleaned (m.decision.decided sql r) ∨
    ((ingestDecision sql o recipient m s).1 = none ∧
      ((ingestDecision sql o recipient m s).2 = s ∨
        ∃ c, (m.decision.decided sql r).Loosed s.claims c ∧
          (ingestDecision sql o recipient m s).2 = { s.decided sql m with claims := c })) := by
  have hrow : s.db.splits.find? m.line.id = some r := hr
  have hafter : (s.decided sql m).db.splits.find? m.line.id = some (m.decision.decided sql r) := by
    have := SplitSide.split?_decided sql m s
    rw [hr] at this
    exact this
  unfold ingestDecision
  cases o.read with
  | false => exact .inr ⟨rfl, .inl rfl⟩
  | true =>
    simp only [Bool.not_true, Bool.false_eq_true, if_false, hrow, hadmits]
    unfold SplitTable.decide?
    cases o.written with
    | false => exact .inr ⟨rfl, .inl rfl⟩
    | true =>
      simp only [if_true]
      cases o.reread with
      | false => exact .inr ⟨rfl, .inr ⟨s.claims, .inl rfl, rfl⟩⟩
      | true =>
        simp only [Bool.not_true, Bool.false_eq_true, if_false]
        have hcurrent : (decideEpicSplitBy sql s.db.splits ((SplitPurpose.ingest r m.line
            m.senderAgentId).decision o.now)).2.find? m.line.id = some (m.decision.decided sql r) := hafter
        have hwritten : ({ s with db := { s.db with splits := (decideEpicSplitBy sql s.db.splits
            ((SplitPurpose.ingest r m.line m.senderAgentId).decision o.now)).2 } } : SplitSide)
              = s.decided sql m := rfl
        simp only [hcurrent, hwritten]
        rcases cleanupDecision_spec o (m.decision.decided sql r) (s.decided sql m) with
          hdone | ⟨c, hloosed, hfail⟩
        · left
          rw [hdone]
        · right
          rw [hfail]
          exact ⟨rfl, .inr ⟨c, hloosed, rfl⟩⟩

/-- 全てが通る一通。 -/
theorem ingestDecision_perfect (now : Time) :
    (ingestDecision sql { now } recipient m s).2 = s.settled sql recipient m := by
  by_cases hadmits : ∃ r, s.split? m = some r ∧ m.line.admits m.senderAgentId recipient r = true
  · obtain ⟨r, hr, hadmits⟩ := hadmits
    have hrow : s.db.splits.find? m.line.id = some r := hr
    have hafter : (decideEpicSplitBy sql s.db.splits ((SplitPurpose.ingest r m.line
        m.senderAgentId).decision now)).2.find? m.line.id = some (m.decision.decided sql r) := by
      have := SplitSide.split?_decided sql m s
      rw [hr] at this
      exact this
    unfold ingestDecision SplitSide.settled SplitTable.decide?
    simp only [hr, hrow, hadmits, Bool.not_true, Bool.false_eq_true, if_false, if_true, hafter]
    rw [cleanupDecision_perfect]
    rfl
  · push Not at hadmits
    obtain ⟨hsame, hsettled⟩ := @ingestDecision_of_not_admits sql recipient m s { now }
      fun r hr => by simpa using hadmits r hr
    rw [hsame, hsettled]

/-! ## 途中 -/

/-- 何度か届いた後。書いた決定の後始末が途中でもよい。 -/
inductive Midway (sql : SplitSql) (recipient : String) (m : ClaimedPeerMessage) (s : SplitSide) :
    SplitSide → Prop
  | before : Midway sql recipient m s s
  | written (r : EpicSplit) (c : PeerClaims) (hr : s.split? m = some r)
      (hadmits : m.line.admits m.senderAgentId recipient r = true)
      (hloosed : (m.decision.decided sql r).Loosed s.claims c) :
      Midway sql recipient m s { s.decided sql m with claims := c }
  | done : Midway sql recipient m s (s.settled sql recipient m)

/-- 決定が書いてあり、手放すものも無ければ、何も変わらない。 -/
theorem ingestDecision_of_fixed (hr : s.split? m = some r) (happ : m.decision.applies sql r = false)
    (hheld : ∀ c, r.Loosed s.claims c → c = s.claims) (hclean : s.cleaned r = s) :
    (ingestDecision sql o recipient m s).2 = s := by
  cases hadmits : m.line.admits m.senderAgentId recipient r with
  | false =>
    refine (ingestDecision_of_not_admits fun r' hr' => ?_).1
    obtain rfl : r = r' := Option.some.inj (hr.symm.trans hr')
    exact hadmits
  | true =>
    have hrow : m.decision.decided sql r = r := by rw [SplitDecision.decided, happ, if_neg Bool.false_ne_true]
    rcases @ingestDecision_spec sql recipient m r s o hr hadmits with hdone | ⟨-, hsame | ⟨c, hloosed, hres⟩⟩
    · rw [hdone, SplitSide.decided_eq_self hr happ, hrow, hclean]
    · exact hsame
    · rw [hrow] at hloosed
      rw [hres, SplitSide.decided_eq_self hr happ, hheld c hloosed]

/-- 後始末を終えた分割には、後始末が残っていない。 -/
theorem ingestDecision_cleaned (hr : s.split? m = some r) (happ : m.decision.applies sql r = false) :
    (ingestDecision sql o recipient m (s.cleaned r)).2 = s.cleaned r := by
  have hfind := SplitSide.split?_cleaned hr
  by_cases hfinished : (r.cleanupPending && r.decidedAt.isSome) = true
  · rw [if_pos hfinished] at hfind
    have hpending : (r.settle true).cleanupPending = false := by simp [EpicSplit.settle]
    refine ingestDecision_of_fixed hfind ?_ ?_ ?_
    · rw [applies_settle]
      exact happ
    · rintro c (hsame | ⟨htrue, -⟩)
      · exact hsame
      · rw [hpending] at htrue
        cases htrue
    · rw [SplitSide.cleaned, hpending, if_neg Bool.false_ne_true]
  · rw [if_neg hfinished] at hfind
    have hid : r.id = m.line.id := Table.key_of_find? hr
    cases hpending : r.cleanupPending with
    | false =>
      have hsame : s.cleaned r = s := by rw [SplitSide.cleaned, hpending, if_neg Bool.false_ne_true]
      rw [hsame]
      refine ingestDecision_of_fixed hr happ ?_ hsame
      rintro c (hsame | ⟨htrue, -⟩)
      · exact hsame
      · rw [hpending] at htrue
        cases htrue
    | true =>
      -- 決めた時刻が無ければ、後始末は残り続ける。
      have hnone : r.decidedAt = none := by simpa [hpending] using hfinished
      have hclaims : (s.cleaned r).claims = s.claims.releaseShare r.mine r.localAgentId := by
        rw [SplitSide.cleaned, if_pos hpending]
      refine ingestDecision_of_fixed hfind happ ?_ ?_
      · rw [hclaims]
        rintro c (hsame | ⟨-, hreleased⟩)
        · exact hsame
        · exact hreleased.eq_releaseShare
      · have hrow : (s.cleaned r).db.splits.find? r.id = some r := by
          rw [hid]
          exact hfind
        have hagain := (@PeerClaims.released_releaseShare r.localAgentId r.mine s.claims).releaseShare_eq
        generalize hc : s.cleaned r = c at hrow hclaims ⊢
        rw [SplitSide.cleaned, if_pos hpending, finishEpicSplitWork_of_settled hrow (.inr hnone), hclaims,
          hagain, ← hclaims]

/-- 受け取り終えた後は、何も変わらない。 -/
theorem ingestDecision_settled (hkind : m.line.kind ≠ .proposal) :
    (ingestDecision sql o recipient m (s.settled sql recipient m)).2 = s.settled sql recipient m := by
  by_cases hadmits : ∃ r, s.split? m = some r ∧ m.line.admits m.senderAgentId recipient r = true
  · obtain ⟨r, hr, hadmits⟩ := hadmits
    have hsettled : s.settled sql recipient m = (s.decided sql m).cleaned (m.decision.decided sql r) := by
      unfold SplitSide.settled
      simp only [hr, hadmits, if_true]
    rw [hsettled]
    refine ingestDecision_cleaned ?_ (applies_decided hkind r)
    rw [SplitSide.split?_decided, hr, Option.map_some]
  · push Not at hadmits
    have hnot : ∀ r, s.split? m = some r → m.line.admits m.senderAgentId recipient r = false :=
      fun r hr => by simpa using hadmits r hr
    obtain ⟨-, hsettled⟩ := @ingestDecision_of_not_admits sql recipient m s o hnot
    rw [hsettled]
    exact (ingestDecision_of_not_admits hnot).1

/-- 途中のどこから届いても、受け取り終えるか、途中のままである。 -/
theorem Midway.ingest (hkind : m.line.kind ≠ .proposal) (h : Midway sql recipient m s s')
    (o : IngestOutside) :
    Midway sql recipient m s (ingestDecision sql o recipient m s').2 ∧
    ((ingestDecision sql o recipient m s').1 ≠ none →
      (ingestDecision sql o recipient m s').2 = s.settled sql recipient m) := by
  cases h with
  | before =>
    by_cases hadmits : ∃ r, s.split? m = some r ∧ m.line.admits m.senderAgentId recipient r = true
    · obtain ⟨r, hr, hadmits⟩ := hadmits
      have hsettled : s.settled sql recipient m = (s.decided sql m).cleaned (m.decision.decided sql r) := by
        unfold SplitSide.settled
        simp only [hr, hadmits, if_true]
      rcases @ingestDecision_spec sql recipient m r s o hr hadmits with
        hdone | ⟨hnone, hsame | ⟨c, hloosed, hres⟩⟩
      · rw [hdone, ← hsettled]
        exact ⟨.done, fun _ => rfl⟩
      · rw [hsame]
        exact ⟨.before, fun hne => absurd hnone hne⟩
      · rw [hres]
        exact ⟨.written r c hr hadmits hloosed, fun hne => absurd hnone hne⟩
    · push Not at hadmits
      obtain ⟨hsame, hsettled⟩ := @ingestDecision_of_not_admits sql recipient m s o
        fun r hr => by simpa using hadmits r hr
      rw [hsame, hsettled]
      exact ⟨.before, fun _ => rfl⟩
  | written r c hr hadmits hloosed =>
    have hsettled : s.settled sql recipient m = (s.decided sql m).cleaned (m.decision.decided sql r) := by
      unfold SplitSide.settled
      simp only [hr, hadmits, if_true]
    have hdecided : (s.decided sql m).split? m = some (m.decision.decided sql r) := by
      rw [SplitSide.split?_decided, hr, Option.map_some]
    have hfind : ({ s.decided sql m with claims := c } : SplitSide).split? m
        = some (m.decision.decided sql r) := hdecided
    have happ := @applies_decided sql m hkind r
    have hrow : m.decision.decided sql (m.decision.decided sql r) = m.decision.decided sql r := by
      rw [SplitDecision.decided, happ, if_neg Bool.false_ne_true]
    have hadmits' : m.line.admits m.senderAgentId recipient (m.decision.decided sql r) = true := by
      rw [admits_decided, hadmits]
    have hstays : ({ s.decided sql m with claims := c } : SplitSide).decided sql m
        = { s.decided sql m with claims := c } := SplitSide.decided_eq_self hfind happ
    rcases @ingestDecision_spec sql recipient m _ _ o hfind hadmits' with
      hdone | ⟨hnone, hsame | ⟨c', hloosed', hres⟩⟩
    · have hclean : ({ s.decided sql m with claims := c } : SplitSide).cleaned (m.decision.decided sql r)
          = s.settled sql recipient m := by
        rw [hsettled]
        exact hloosed.cleaned_eq (s := s.decided sql m)
      rw [hdone, hstays, hrow, hclean]
      exact ⟨.done, fun _ => rfl⟩
    · rw [hsame]
      exact ⟨.written r c hr hadmits hloosed, fun hne => absurd hnone hne⟩
    · rw [hrow] at hloosed'
      rw [hres, hstays]
      exact ⟨.written r c' hr hadmits (hloosed.trans hloosed'), fun hne => absurd hnone hne⟩
  | done =>
    rw [ingestDecision_settled hkind]
    exact ⟨.done, fun _ => rfl⟩

/-! ## 申し出 -/

/-- 申し出は、書くか、何も変えない。 -/
theorem ingestProposal_cases (o : IngestOutside) (s : SplitSide) :
    (ingestProposal o recipient m s).2 = (ingestProposal { now := o.now } recipient m s).2 ∨
    ((ingestProposal o recipient m s).1 = none ∧ (ingestProposal o recipient m s).2 = s) := by
  unfold ingestProposal
  cases m.line.offer with
  | none => exact .inl rfl
  | some expiresAt =>
    cases o.read with
    | false => exact .inr ⟨rfl, rfl⟩
    | true =>
      simp only [Bool.not_true, Bool.false_eq_true, if_false]
      split
      · cases o.written with
        | false => exact .inr ⟨rfl, rfl⟩
        | true => exact .inl rfl
      · exact .inl rfl

/-- 書いた申し出は、もう一度届いても書き直されない。 -/
theorem ingestProposal_again (now : Time) (o : IngestOutside) (s : SplitSide) :
    (ingestProposal o recipient m (ingestProposal { now } recipient m s).2).2
      = (ingestProposal { now } recipient m s).2 := by
  cases hoffer : m.line.offer with
  | none => simp [ingestProposal, hoffer]
  | some expiresAt =>
    by_cases hpeer : (s.db.splits.find? m.line.id).all (·.peerAgentId = m.senderAgentId) = true
    · have hnew : (ingestProposal { now } recipient m s).2 = { s with db := { s.db with
          splits := insertEpicSplit s.db.splits (m.record recipient expiresAt now) } } := by
        simp [ingestProposal, hoffer, hpeer]
      rw [hnew]
      -- 書いた後には、この id の行がある。
      have hid (t : Time) : (m.record recipient expiresAt t).id = m.line.id := rfl
      obtain ⟨r, hr⟩ : ∃ r, (insertEpicSplit s.db.splits (m.record recipient expiresAt now)).find?
          m.line.id = some r := by
        rw [insertEpicSplit, Table.find?_insertOrIgnore, if_pos (hid now)]
        cases s.db.splits.find? m.line.id with
        | none => exact ⟨_, rfl⟩
        | some r => exact ⟨r, rfl⟩
      have hsame : insertEpicSplit (insertEpicSplit s.db.splits (m.record recipient expiresAt now))
          (m.record recipient expiresAt o.now)
            = insertEpicSplit s.db.splits (m.record recipient expiresAt now) := by
        refine @Table.insertOrIgnore_of_find? _ _ EpicSplit.id _ _ (m.record recipient expiresAt o.now) r ?_
        rw [hid]
        exact hr
      unfold ingestProposal
      simp only [hoffer, hsame]
      split
      · rfl
      · split
        · split <;> rfl
        · rfl
    · have hold : (ingestProposal { now } recipient m s).2 = s := by simp [ingestProposal, hoffer, hpeer]
      rw [hold]
      unfold ingestProposal
      simp only [hoffer, hpeer]
      split <;> rfl

/-! ## 再配達 -/

/-- 変わらなくなった後の再配達。 -/
theorem redeliver_of_fixed (h : ∀ o, (ingestSplit sql o recipient m s).2 = s) (os : List IngestOutside) :
    redeliver sql recipient m s os = s := by
  induction os with
  | nil => rfl
  | cons o os ih =>
    rw [redeliver, List.foldl_cons, h o]
    exact ih

theorem redeliver_append (sql : SplitSql) (recipient : String) (m : ClaimedPeerMessage) (s : SplitSide)
    (os : List IngestOutside) (o : IngestOutside) (os' : List IngestOutside) :
    redeliver sql recipient m s (os ++ o :: os') = redeliver sql recipient m
      (ingestSplit sql o recipient m (redeliver sql recipient m s os)).2 os' := by
  rw [redeliver, List.foldl_append, List.foldl_cons]
  rfl

theorem redeliver_midway (hkind : m.line.kind ≠ .proposal) (h : Midway sql recipient m s s')
    (os : List IngestOutside) : Midway sql recipient m s (redeliver sql recipient m s' os) := by
  induction os generalizing s' with
  | nil => exact h
  | cons o os ih =>
    rw [redeliver, List.foldl_cons]
    refine ih ?_
    rw [ingestSplit, if_neg hkind]
    exact (h.ingest hkind o).1

/-- 何度か届いた申し出は、書かれていないか、届いたうちの一通が書いている。 -/
theorem redeliver_proposal (hkind : m.line.kind = .proposal) (os : List IngestOutside) (s : SplitSide) :
    redeliver sql recipient m s os = s ∨
    ∃ o ∈ os, redeliver sql recipient m s os = (ingestProposal { now := o.now } recipient m s).2 := by
  induction os with
  | nil => exact .inl rfl
  | cons o os ih =>
    rw [redeliver, List.foldl_cons, ingestSplit, if_pos hkind]
    rcases @ingestProposal_cases recipient m o s with hnew | ⟨-, hsame⟩
    · refine .inr ⟨o, List.mem_cons_self, ?_⟩
      rw [hnew]
      refine redeliver_of_fixed (fun o' => ?_) os
      rw [ingestSplit, if_pos hkind]
      exact ingestProposal_again o.now o' s
    · rw [hsame]
      rcases ih with hold | ⟨o', ho', hnew⟩
      · exact .inl hold
      · exact .inr ⟨o', List.mem_cons_of_mem o ho', hnew⟩

/--
同じ知らせが何度届き、どこで何度失敗しても、一度受け取り終えれば、そのうちの一通だけが失敗せずに届いたときと同じであり、その後は
何度届いても変わらない。
-/
theorem redelivered_split_settles (sql : SplitSql) (recipient : String) (m : ClaimedPeerMessage)
    (s : SplitSide) (before after : List IngestOutside) (o : IngestOutside)
    (h : (ingestSplit sql o recipient m (redeliver sql recipient m s before)).1 ≠ none) :
    ∃ o' ∈ before ++ [o], redeliver sql recipient m s (before ++ o :: after)
      = (ingestSplit sql { now := o'.now } recipient m s).2 := by
  by_cases hkind : m.line.kind = .proposal
  · have hfixed (now : Time) : redeliver sql recipient m (ingestProposal { now } recipient m s).2 after
        = (ingestProposal { now } recipient m s).2 := by
      refine redeliver_of_fixed (fun o' => ?_) after
      rw [ingestSplit, if_pos hkind]
      exact ingestProposal_again now o' s
    simp only [redeliver_append, ingestSplit, if_pos hkind] at h ⊢
    rcases @redeliver_proposal sql recipient m hkind before s with hold | ⟨o', ho', hnew⟩
    · rw [hold] at h ⊢
      refine ⟨o, by simp, ?_⟩
      rcases @ingestProposal_cases recipient m o s with hnew | ⟨hnone, -⟩
      · rw [hnew, hfixed]
      · exact absurd hnone h
    · refine ⟨o', List.mem_append_left _ ho', ?_⟩
      rw [hnew, ingestProposal_again, hfixed]
  · refine ⟨o, by simp, ?_⟩
    have hmidway := @redeliver_midway sql recipient m s s hkind Midway.before before
    simp only [redeliver_append, ingestSplit, if_neg hkind] at h ⊢
    rw [ingestDecision_perfect, (hmidway.ingest hkind o).2 h]
    refine redeliver_of_fixed (fun o' => ?_) after
    rw [ingestSplit, if_neg hkind]
    exact ingestDecision_settled hkind

/-- 申し出た子 `a` を、申し出た側が借りている。 -/
def proposedSide : SplitSide where
  db :=
    { splits :=
        ⟨[{ id := "x", epicId := "e", localAgentId := "s", peerAgentId := "p", peerName := "p"
            peerMachine := "m", direction := .outgoing, mine := ["a"], theirs := [], state := .pending
            reason := none, messageId := none, expiresAt := 60, createdAt := 0, decidedAt := none
            decidedBy := none, cleanupPending := false, expiryNoticePending := false }], by decide⟩
      tasks := ShareCall.heldSide.db.tasks }
  claims := ShareCall.heldSide.claims

/-- 断る知らせ。 -/
def rejection : ClaimedPeerMessage where
  id := "k"
  senderAgentId := "p"
  senderName := "p"
  senderMachine := "m"
  line :=
    { kind := .reject, id := "x", epic := "e", proposerTakes := [], peerTakes := [], expiresAt := none
      time := 1, reason := none }

/-- 断られた後、一度目に cloud に入れなくても、二度目に借りを手放し終える。 -/
theorem redelivered_rejection :
    ∃ o' ∈ ([{ opened := false }, {}] : List IngestOutside),
      redeliver SplitSql.millis "s" rejection proposedSide [{ opened := false }, {}, {}]
        = (ingestSplit SplitSql.millis { now := o'.now } "s" rejection proposedSide).2 :=
  redelivered_split_settles SplitSql.millis "s" rejection proposedSide [{ opened := false }] [{}] {}
    (Option.some_ne_none Ingested.ignored)

end Cassy
