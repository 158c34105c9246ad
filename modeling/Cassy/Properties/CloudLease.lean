import Cassy.Infra.Run
import Cassy.Prompt.OperatorCloud

/-!
# 借りた者だけが書き、封は替わらない

`operator_cloud_outbox` のどの行も、一度に一つの印しか通さない。印の違う呼び出しと、期限の過ぎた呼び出しは何も変えない。
封をした中身は、封のやり直しが無いかぎり替わらず、受領を書いた行は二度と替わらず、二度と借りられない。

送り手の数、時計の読み、途中で倒れた送り手の後始末には何も仮定しない。時計が食い違って二人が同時に借りたつもりでも、
通るのは行に残っている印の方だけである。
-/

namespace Cassy

open Infra CloudDb

/-! ## 行の移り -/

/-- その番号の封を外した。 -/
def CloudOp.reseals (db : CloudDb) (eventId : String) (o : CloudOp) : Prop :=
  ∃ c now, o = .settle c .reseal now ∧ c.eventId = eventId ∧ (cloudStep db o).1 = .changed true

/-- 封と受領の移り。封が外れるのは、封のやり直しのときだけである。 -/
inductive ProgressStep (resealed : Prop) : CloudProgress → CloudProgress → Prop where
  | kept (p) : ProgressStep resealed p p
  | sealed (bytes) : ProgressStep resealed .unsealed (.sealed bytes)
  | received (bytes receipt) : ProgressStep resealed (.sealed bytes) (.received bytes receipt)
  | unsealed (p) (hr : resealed) (hp : p.hasReceipt = false) : ProgressStep resealed p .unsealed

theorem ProgressStep.imp {q q' : Prop} {p p' : CloudProgress} (himp : q → q') (h : ProgressStep q p p') :
    ProgressStep q' p p' := by
  cases h with
  | kept => exact .kept _
  | sealed bytes => exact .sealed bytes
  | received bytes receipt => exact .received bytes receipt
  | unsealed _ hr hp => exact .unsealed _ (himp hr) hp

section Rows

variable {db db' : CloudDb} {ev : String} {r r' : CloudRow}
variable {c : OperatorCloudClaim}

theorem CloudDb.find?_update (db : CloudDb) (p : CloudRow → Bool) (f : CloudRow → CloudRow)
    (hf : ∀ r, (f r).eventId = r.eventId) (ev : String) :
    (db.update p f hf).find? ev = (db.find? ev).map fun r => if p r then f r else r :=
  @Table.find?_update _ _ _ _ db.outbox p f hf ev

/-- 書き換える文の後の行。 -/
theorem find?_updated {p : CloudRow → Bool} {f : CloudRow → CloudRow}
    {hf : ∀ r, (f r).eventId = r.eventId} (hr : db.find? ev = some r) :
    (db.update p f hf).find? ev = some (if p r then f r else r) := by
  rw [CloudDb.find?_update, hr, Option.map_some]

/-- 書き換えた行が `ev` の行なら、変えた行があった。 -/
theorem changed_of_row {p : CloudRow → Bool} (hr : db.find? ev = some r) (hp : p r = true) :
    db.outbox.rows.any p = true :=
  List.any_eq_true.mpr ⟨r, Table.mem_of_find? hr, hp⟩

/-- 借りる文は、封にも受領にも触れない。 -/
theorem find?_lend (untilMs : Int) : ∀ (claims : List OperatorCloudClaim) {db : CloudDb} {r : CloudRow},
    db.find? ev = some r →
    ∃ r', (claims.foldl (lend untilMs) db).find? ev = some r' ∧ r'.progress = r.progress
  | [], db, r, hr => ⟨r, hr, rfl⟩
  | c :: claims, db, r, hr => by
    have hlent : (lend untilMs db c).find? ev = some (if r.eventId = c.eventId then
        { r with lease := some ⟨c.leaseToken, untilMs⟩, attempts := r.attempts + 1 } else r) := by
      unfold lend
      rw [find?_updated hr]
      simp only [decide_eq_true_eq]
    obtain ⟨r', hr', hp⟩ := find?_lend untilMs claims hlent
    refine ⟨r', hr', hp.trans ?_⟩
    split <;> rfl

theorem heldBy_eventId {now : Time} (h : heldBy c now r = true) : r.eventId = c.eventId := by
  unfold heldBy at h
  rw [Bool.and_eq_true] at h
  exact of_decide_eq_true h.1

/-- 結果を書く呼び出し。 -/
theorem settle_row {settlement : OperatorCloudSettlement} {now : Time} {b : Bool}
    (hr : db.find? ev = some r) (h : db.settleOperatorCloud c settlement now = .ok (b, db')) :
    ∃ r', db'.find? ev = some r'
      ∧ ProgressStep (settlement = .reseal ∧ c.eventId = ev ∧ b = true) r.progress r'.progress := by
  have hev : r.eventId = ev := Table.key_of_find? hr
  cases settlement with
  | receipt kind sequence =>
    simp only [settleOperatorCloud] at h
    obtain ⟨-, -, h⟩ := bind_eq_ok.mp h
    rw [← show _ = db' from congrArg Prod.snd (pure_eq_ok.mp h)]
    refine ⟨_, find?_updated hr, ?_⟩
    split
    · show ProgressStep _ r.progress (r.progress.receive _)
      cases hp : r.progress with
      | unsealed => exact .kept _
      | sealed bytes => exact .received bytes _
      | received bytes receipt => exact .kept _
    · exact .kept _
  | retry =>
    cases h
    refine ⟨_, find?_updated hr, ?_⟩
    split <;> exact .kept _
  | reseal =>
    cases h
    refine ⟨_, find?_updated hr, ?_⟩
    split
    · next hp =>
      have hchanged : db.outbox.rows.any (fun r => heldBy c now r && !r.progress.hasReceipt) = true :=
        changed_of_row hr hp
      simp only [Bool.and_eq_true, Bool.not_eq_true'] at hp
      refine .unsealed _ ⟨rfl, ?_, hchanged⟩ hp.2
      rw [← heldBy_eventId hp.1]
      exact hev
    · exact .kept _
  | park reason =>
    cases h
    refine ⟨_, find?_updated hr, ?_⟩
    split <;> exact .kept _

/-- 一歩の前後の行。 -/
theorem cloudStep_row (o : CloudOp) (hr : db.find? ev = some r) :
    ∃ r', (cloudStep db o).2.find? ev = some r'
      ∧ ProgressStep (o.reseals db ev) r.progress r'.progress := by
  cases o with
  | record row turn =>
    refine ⟨r, ?_, .kept _⟩
    show (db.outbox.insertOrIgnore _).find? ev = some r
    rw [Table.find?_insertOrIgnore, show db.outbox.find? ev = some r from hr, Option.some_or]
  | claim machineId now maxEvents leaseSeconds token =>
    dsimp only [cloudStep]
    split
    · next claims db' h =>
      unfold claimOperatorCloud at h
      obtain ⟨-, -, h⟩ := bind_eq_ok.mp h
      dsimp only at h
      obtain ⟨-, -, ⟨⟩⟩ := bind_pure_eq_ok.mp h
      obtain ⟨r', hr', hp⟩ := find?_lend (timestampMillis now + leaseSeconds * 1000)
        ((db.dueRows machineId (timestampMillis now) maxEvents).mapIdx fun i r =>
          db.claimOf (token i) r) hr
      refine ⟨r', hr', ?_⟩
      rw [hp]
      exact .kept _
    · exact ⟨r, hr, .kept _⟩
  | sealEvent c bytes now =>
    refine ⟨_, find?_updated hr, ?_⟩
    split
    · next hp =>
      rw [Bool.and_eq_true, decide_eq_true_eq] at hp
      rw [hp.2]
      exact .sealed bytes
    · exact .kept _
  | settle c settlement now =>
    cases h : db.settleOperatorCloud c settlement now with
    | error e =>
      refine ⟨r, ?_, .kept _⟩
      simp only [cloudStep, h]
      exact hr
    | ok out =>
      obtain ⟨b, db'⟩ := out
      obtain ⟨r', hr', hp⟩ := settle_row hr h
      refine ⟨r', ?_, ?_⟩
      · simp only [cloudStep, h]
        exact hr'
      · refine hp.imp ?_
        rintro ⟨rfl, hev, rfl⟩
        refine ⟨c, now, rfl, hev, ?_⟩
        simp only [cloudStep, h]

/-! ## 借りた行 -/

/-- 借りた行の封は、表にある封である。受領のある行は借りられない。 -/
theorem claimed_row {machineId : String} {now : Time} {maxEvents : Nat} {leaseSeconds : Int}
    {token : Nat → String} {claims : List OperatorCloudClaim}
    (h : db.claimOperatorCloud machineId now maxEvents leaseSeconds token = .ok (claims, db'))
    (hc : c ∈ claims) :
    ∃ r, db.find? c.eventId = some r ∧ c.sealed = r.progress.bytes? ∧ r.progress.hasReceipt = false := by
  unfold claimOperatorCloud at h
  obtain ⟨-, -, h⟩ := bind_eq_ok.mp h
  dsimp only at h
  obtain ⟨-, -, ⟨⟩⟩ := bind_pure_eq_ok.mp h
  obtain ⟨i, hi, rfl⟩ := List.mem_mapIdx.mp hc
  have hmem := List.mem_of_mem_take (List.getElem_mem hi)
  rw [List.mem_insertionSort, List.mem_filter] at hmem
  refine ⟨_, Table.find?_of_mem hmem.1, rfl, ?_⟩
  have hdue := hmem.2
  unfold due at hdue
  simp only [Bool.and_eq_true, Bool.not_eq_true'] at hdue
  exact hdue.1.1.1.1.2

/-- 一歩が、その番号の行を借りた。 -/
def CloudOp.claims (db : CloudDb) (o : CloudOp) (c : OperatorCloudClaim) : Prop :=
  ∃ cs, (cloudStep db o).1 = .claimed cs ∧ c ∈ cs

theorem row_of_claims {o : CloudOp} (h : o.claims db c) :
    ∃ r, db.find? c.eventId = some r ∧ c.sealed = r.progress.bytes? ∧ r.progress.hasReceipt = false := by
  obtain ⟨cs, hcs, hc⟩ := h
  cases o with
  | claim machineId now maxEvents leaseSeconds token =>
    dsimp only [cloudStep] at hcs
    split at hcs
    · next claims db' hrun =>
      cases hcs
      exact claimed_row hrun hc
    · cases hcs
  | settle c settlement now =>
    dsimp only [cloudStep] at hcs
    split at hcs <;> cases hcs
  | _ => cases hcs

/-! ## 通らない呼び出し -/

/-- 印が行の印でないか、期限が呼び手の時計で過ぎている。 -/
def CloudDb.staleFor (db : CloudDb) (c : OperatorCloudClaim) (now : Time) : Prop :=
  ∀ r l, db.find? c.eventId = some r → r.lease = some l → l.token = c.leaseToken →
    l.untilMs ≤ timestampMillis now

/-- 通らない呼び出しである。 -/
def CloudOp.stale (db : CloudDb) : CloudOp → Prop
  | .sealEvent c _ now => db.staleFor c now
  | .settle c _ now => db.staleFor c now
  | _ => False

theorem heldBy_of_stale {now : Time} (h : db.staleFor c now) (hr : r ∈ db.outbox.rows) :
    heldBy c now r = false := by
  by_contra hheld
  rw [Bool.not_eq_false] at hheld
  have hev := heldBy_eventId hheld
  unfold heldBy at hheld
  rw [Bool.and_eq_true, Option.any_eq_true] at hheld
  obtain ⟨-, l, hl, hlease⟩ := hheld
  rw [Bool.and_eq_true, decide_eq_true_eq, decide_eq_true_eq] at hlease
  have hfind : db.find? c.eventId = some r := hev ▸ Table.find?_of_mem hr
  exact absurd hlease.2 (not_lt.mpr (h r l hfind hl hlease.1))

/-- 選ぶ行の無い文は何も変えない。 -/
theorem updateChanges_of_none {p : CloudRow → Bool} {f : CloudRow → CloudRow}
    {hf : ∀ r, (f r).eventId = r.eventId} (h : ∀ r ∈ db.outbox.rows, p r = false) :
    db.updateChanges p f hf = (false, db) := by
  have hany : db.outbox.rows.any p = false := List.any_eq_false.mpr fun r hr => by
    rw [h r hr]
    exact Bool.false_ne_true
  have hupd : db.update p f hf = db := by
    unfold CloudDb.update
    have hrows : db.outbox.update p f hf = db.outbox := by
      refine Table.ext_rows ?_
      rw [Table.update_rows]
      refine (List.map_congr_left fun r hr => ?_).trans (List.map_id _)
      rw [h r hr]
      rfl
    rw [hrows]
  unfold updateChanges
  rw [hany, hupd]

/-- 通らない呼び出しは何も変えない。 -/
theorem stale_changes_nothing {o : CloudOp} (h : o.stale db) :
    cloudStep db o = (.changed false, db) := by
  cases o with
  | sealEvent c bytes now =>
    have hs : db.sealOperatorCloud c bytes now = (false, db) :=
      updateChanges_of_none fun r hr => by rw [heldBy_of_stale h hr, Bool.false_and]
    simp only [cloudStep, hs]
  | settle c settlement now =>
    have hs : db.settleOperatorCloud c settlement now = .ok (false, db) := by
      have hheld := fun r (hr : r ∈ db.outbox.rows) => heldBy_of_stale h hr
      cases settlement with
      | receipt kind sequence =>
        have hp : ∀ r ∈ db.outbox.rows,
            (heldBy c now r && r.progress.bytes?.isSome && !r.progress.hasReceipt) = false := by
          intro r hr
          rw [hheld r hr, Bool.false_and, Bool.false_and]
        simp only [settleOperatorCloud]
        rw [ensure_of, ok_bind, updateChanges_of_none hp]
        · rfl
        · exact Or.inr (List.any_eq_false.mpr fun r hr => by rw [hp r hr]; exact Bool.false_ne_true)
      | retry => exact congrArg Except.ok (updateChanges_of_none hheld)
      | reseal =>
        exact congrArg Except.ok (updateChanges_of_none fun r hr => by
          rw [hheld r hr, Bool.false_and])
      | park reason =>
        exact congrArg Except.ok (updateChanges_of_none fun r hr => by
          rw [hheld r hr, Bool.false_and])
    simp only [cloudStep, hs]
  | record row turn => exact h.elim
  | claim machineId now maxEvents leaseSeconds token => exact h.elim

end Rows

/-! ## 実行の全体 -/

section Run

variable {db : CloudDb} {acts : List CloudOp} {ev : String} {r : CloudRow}

/-- 封のやり直しの無いかぎり、封をした中身は替わらない。 -/
theorem bytes_run {bytes : OperatorSealedBytes} : ∀ {acts : List CloudOp} {db : CloudDb} {r : CloudRow},
    (∀ e ∈ trace cloudStep db acts, ¬ e.op.reseals e.before ev) → db.find? ev = some r →
    r.progress.bytes? = some bytes →
    ∃ r', (run cloudStep db acts).find? ev = some r' ∧ r'.progress.bytes? = some bytes
  | [], db, r, _, hr, hb => ⟨r, hr, hb⟩
  | o :: acts, db, r, hno, hr, hb => by
    obtain ⟨r₁, hr₁, hstep⟩ := cloudStep_row o hr
    have hb₁ : r₁.progress.bytes? = some bytes := by
      generalize hp : r.progress = p at hstep hb
      generalize hp₁ : r₁.progress = p₁ at hstep
      cases hstep with
      | kept => exact hb
      | sealed b => cases hb
      | received b receipt => exact hb
      | unsealed _ hres => exact absurd hres (hno _ List.mem_cons_self)
    have hno₁ : ∀ e ∈ trace cloudStep (cloudStep db o).2 acts, ¬ e.op.reseals e.before ev :=
      fun e he => hno e (List.mem_cons_of_mem _ he)
    show ∃ r', (run cloudStep (cloudStep db o).2 acts).find? ev = some r' ∧ _
    exact bytes_run hno₁ hr₁ hb₁

/-- 受領を書いた行は、そのまま残る。 -/
theorem received_run {bytes : OperatorSealedBytes} {receipt : CloudReceipt} :
    ∀ {acts : List CloudOp} {db : CloudDb} {r : CloudRow}, db.find? ev = some r →
    r.progress = .received bytes receipt →
    (∃ r', (run cloudStep db acts).find? ev = some r' ∧ r'.progress = .received bytes receipt)
      ∧ ∀ e ∈ trace cloudStep db acts, ∀ c, e.op.claims e.before c → c.eventId ≠ ev
  | [], db, r, hr, hp => ⟨⟨r, hr, hp⟩, fun e he => absurd he List.not_mem_nil⟩
  | o :: acts, db, r, hr, hp => by
    obtain ⟨r₁, hr₁, hstep⟩ := cloudStep_row o hr
    have hp₁ : r₁.progress = .received bytes receipt := by
      generalize r₁.progress = p₁ at hstep ⊢
      rw [hp] at hstep
      cases hstep with
      | kept => rfl
      | unsealed _ _ hrec => cases hrec
    obtain ⟨hend, hclaims⟩ : (∃ r', (run cloudStep (cloudStep db o).2 acts).find? ev = some r'
          ∧ r'.progress = .received bytes receipt)
        ∧ ∀ e ∈ trace cloudStep (cloudStep db o).2 acts, ∀ c, e.op.claims e.before c → c.eventId ≠ ev :=
      received_run hr₁ hp₁
    refine ⟨hend, fun e he c hc hev => ?_⟩
    rw [trace, List.mem_cons] at he
    rcases he with rfl | he
    · obtain ⟨r', hr', -, hrec⟩ := row_of_claims hc
      rw [hev, hr] at hr'
      cases hr'
      rw [hp] at hrec
      cases hrec
    · exact hclaims e he c hc hev

/-- どの順に送り手が割り込んでも守られること。 -/
structure CloudFenced (db : CloudDb) (acts : List CloudOp) : Prop where
  /-- 一つの行を通る印は一つである。 -/
  single : ∀ r ∈ (run cloudStep db acts).outbox.rows, ∀ c c' now now',
    heldBy c now r = true → heldBy c' now' r = true → c.leaseToken = c'.leaseToken
  /-- 通らない呼び出しは何も変えない。 -/
  stale : ∀ pre o post, acts = pre ++ o :: post → o.stale (run cloudStep db pre) →
    cloudStep (run cloudStep db pre) o = (.changed false, run cloudStep db pre)
  /-- 封のやり直しの間では、封のある行はいつも同じ中身で借りられる。 -/
  bytes : ∀ pre o mid o' post c c' b, acts = pre ++ o :: (mid ++ o' :: post) →
    o.claims (run cloudStep db pre) c → o'.claims (run cloudStep db (pre ++ o :: mid)) c' →
    c'.eventId = c.eventId → c.sealed = some b →
    (∀ e ∈ trace cloudStep (run cloudStep db (pre ++ [o])) mid, ¬ e.op.reseals e.before c.eventId) →
    c'.sealed = some b
  /-- 受領を書いた行は替わらず、借りられない。 -/
  final : ∀ pre post ev r b receipt, acts = pre ++ post → (run cloudStep db pre).find? ev = some r →
    r.progress = .received b receipt →
    (∃ r', (run cloudStep db acts).find? ev = some r' ∧ r'.progress = .received b receipt)
      ∧ ∀ e ∈ trace cloudStep (run cloudStep db pre) post, ∀ c, e.op.claims e.before c → c.eventId ≠ ev

/-- 一つの行を通る印は、行に残っている印である。 -/
theorem heldBy_unique {c c' : OperatorCloudClaim} {now now' : Time} (h : heldBy c now r = true)
    (h' : heldBy c' now' r = true) : c.leaseToken = c'.leaseToken := by
  unfold heldBy at h h'
  rw [Bool.and_eq_true, Option.any_eq_true] at h h'
  obtain ⟨-, l, hl, hlease⟩ := h
  obtain ⟨-, l', hl', hlease'⟩ := h'
  rw [Bool.and_eq_true, decide_eq_true_eq] at hlease hlease'
  rw [hl] at hl'
  cases hl'
  exact hlease.1.symm.trans hlease'.1

/-- 借りた行は、借りた後も同じ封を持つ。借りるだけの一歩は封を外さない。 -/
theorem bytes_of_claims {o : CloudOp} {c : OperatorCloudClaim} {b : OperatorSealedBytes}
    (hc : o.claims db c) (hb : c.sealed = some b) :
    ∃ r', (cloudStep db o).2.find? c.eventId = some r' ∧ r'.progress.bytes? = some b := by
  obtain ⟨r, hr, hsealed, -⟩ := row_of_claims hc
  have hno : ∀ e ∈ trace cloudStep db [o], ¬ e.op.reseals e.before c.eventId := by
    intro e he hres
    cases List.mem_singleton.mp he
    obtain ⟨cs, hcs, -⟩ := hc
    obtain ⟨c₀, now, -, -, hchanged⟩ := hres
    rw [hcs] at hchanged
    cases hchanged
  exact bytes_run hno hr (hsealed.symm.trans hb)

/-- 何人の送り手がどの時計でどう割り込んでも、行は借りた者だけが書き、封と受領は守られる。 -/
theorem operator_cloud_fenced (db : CloudDb) (acts : List CloudOp) : CloudFenced db acts where
  single := fun r _ c c' now now' h h' => heldBy_unique h h'
  stale := fun pre o post _ h => stale_changes_nothing h
  bytes := by
    intro pre o mid o' post c c' b _ hc hc' hev hb hno
    rw [run_append] at hc' hno
    obtain ⟨r, hr, hbytes⟩ := bytes_of_claims hc hb
    obtain ⟨r', hr', hbytes'⟩ := bytes_run hno hr hbytes
    obtain ⟨r'', hr'', hsealed, -⟩ := row_of_claims hc'
    rw [hev, show (run cloudStep (run cloudStep db pre) (o :: mid)).find? c.eventId = some r' from hr']
      at hr''
    cases hr''
    exact hsealed.trans hbytes'
  final := by
    intro pre post ev r b receipt hacts hr hp
    rw [hacts, run_append]
    exact received_run hr hp

end Run

end Cassy
