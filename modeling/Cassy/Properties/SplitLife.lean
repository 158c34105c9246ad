import Cassy.Properties.SplitOverlap

/-!
# 分割の一生

何本の呼び出しがどう並んで走っても、書かれた分割は消えず、当事者と取り分と期限は変わらない。断られ、取り消され、
期限の切れた分割は、もう動かない（`split_rows_settle`）。

答えるのは、申し出を受けた側だけである。受けた分割は期限の前に受けられ、期限の切れた分割は期限の後に切れている
（`split_decisions_authorized`）。
-/

namespace Cassy

open Infra

variable {n : Nat} {sql : SplitSql} {db db' : SplitDb}

/-! ## 行の移り -/

namespace EpicSplit

/-- もう動かない分割。 -/
def closed (r : EpicSplit) : Bool := r.state = .rejected || r.state = .cancelled || r.state = .expired

/-- `r` の、後の姿。 -/
structure Later (r r' : EpicSplit) : Prop where
  /-- 決定と残りの仕事の他は変わらない。 -/
  frame : r' =
    { r with
      state := r'.state
      reason := r'.reason
      decidedAt := r'.decidedAt
      decidedBy := r'.decidedBy
      cleanupPending := r'.cleanupPending
      expiryNoticePending := r'.expiryNoticePending }
  /-- 動かない分割では、残りの仕事が片付くだけである。 -/
  closed : r.closed = true →
    r' = { r with cleanupPending := r'.cleanupPending, expiryNoticePending := r'.expiryNoticePending } ∧
    (r'.cleanupPending = true → r.cleanupPending = true) ∧
    (r'.expiryNoticePending = true → r.expiryNoticePending = true)

theorem Later.refl (r : EpicSplit) : r.Later r := ⟨rfl, fun _ => ⟨rfl, fun h => h, fun h => h⟩⟩

theorem Later.trans {r r' r'' : EpicSplit} (h : r.Later r') (h' : r'.Later r'') : r.Later r'' where
  frame := by
    rw [h'.frame, h.frame]
  closed := by
    intro hclosed
    obtain ⟨heq, hcleanup, hnotice⟩ := h.closed hclosed
    have hstate : r'.closed = true := by
      rw [heq]
      exact hclosed
    obtain ⟨heq', hcleanup', hnotice'⟩ := h'.closed hstate
    refine ⟨?_, fun hc => hcleanup (hcleanup' hc), fun hc => hnotice (hnotice' hc)⟩
    rw [heq', heq]

/-- 決定は、開いた分割だけを動かす。 -/
theorem later_apply {w : SplitPurpose} {now : Time} {r : EpicSplit}
    (h : (w.decision now).applies sql r = true) : r.Later ((w.decision now).apply r) where
  frame := rfl
  closed := by
    intro hclosed
    rcases open_of_decision h with hs | hs <;> simp [closed, hs] at hclosed

theorem later_settle (cleanup : Bool) (r : EpicSplit) : r.Later (r.settle cleanup) where
  frame := rfl
  closed := by
    intro _
    refine ⟨rfl, ?_, ?_⟩
    · simp only [settle, Bool.and_eq_true]
      exact fun h => h.1
    · simp only [settle, Bool.and_eq_true]
      exact fun h => h.1

end EpicSplit

/-- 前の分割は、全て後にもある。 -/
def SplitDb.Grows (db db' : SplitDb) : Prop :=
  ∀ id r, db.splits.find? id = some r → ∃ r', db'.splits.find? id = some r' ∧ r.Later r'

theorem SplitDb.Grows.refl (db : SplitDb) : db.Grows db := fun _ r h => ⟨r, h, .refl r⟩

theorem SplitDb.Grows.trans {db'' : SplitDb} (h : db.Grows db') (h' : db'.Grows db'') : db.Grows db'' := by
  intro id r hr
  obtain ⟨r', hr', hlater⟩ := h id r hr
  obtain ⟨r'', hr'', hlater'⟩ := h' id r' hr'
  exact ⟨r'', hr'', hlater.trans hlater'⟩

theorem grows_insertEpicSplit (db : SplitDb) (r₀ : EpicSplit) :
    db.Grows { db with splits := insertEpicSplit db.splits r₀ } := by
  intro id r hr
  refine ⟨r, ?_, .refl r⟩
  show (insertEpicSplit db.splits r₀).find? id = some r
  rw [insertEpicSplit, Table.find?_insertOrIgnore, hr, Option.some_or]

/-- 一歩の書き込み。 -/
theorem SplitPc.grows_write (pc : SplitPc) (inp : SplitInput) (db : SplitDb) :
    db.Grows (pc.write sql inp db) := by
  cases pc with
  | inserting p =>
    simp only [write]
    split
    · exact grows_insertEpicSplit db _
    · exact .refl db
  | recording recipient m expiresAt =>
    simp only [write]
    split
    · exact grows_insertEpicSplit db _
    · exact .refl db
  | deciding w =>
    simp only [write]
    split
    · intro id r hr
      refine ⟨if (w.decision inp.now).applies sql r then (w.decision inp.now).apply r else r, ?_, ?_⟩
      · show (decideEpicSplitBy sql db.splits (w.decision inp.now)).2.find? id = _
        rw [find?_decide, hr, Option.map_some]
      · split
        · next happ => exact EpicSplit.later_apply happ
        · exact .refl r
    · exact .refl db
  | finishing r₀ cleanup sweep =>
    simp only [write]
    split
    · intro id r hr
      have hfind := @Table.find?_update _ _ EpicSplit.id _ db.splits
        (fun r => r.id = r₀.id && r.state = r₀.state && r.decidedAt.isSome && r.decidedAt = r₀.decidedAt)
        (EpicSplit.settle cleanup) (fun _ => rfl) id
      rw [hr, Option.map_some] at hfind
      refine ⟨_, hfind, ?_⟩
      split
      · exact EpicSplit.later_settle cleanup r
      · exact .refl r
    · exact .refl db
  | _ => exact .refl db

/-- 一歩で、前の分割は全て残る。 -/
theorem grows_step (s : SplitWorld n) (a : SplitAct n) : s.db.Grows (splitStep sql s a).2.db := by
  cases a with
  | call pid c =>
    show s.db.Grows (s.call pid c).db
    unfold SplitWorld.call
    split <;> exact .refl s.db
  | advance pid inp => exact (s.procs pid).grows_write inp s.db
  | updateTasks tasks => exact fun id r h => ⟨r, h, .refl r⟩
  | release splitId taskId => exact fun id r h => ⟨r, h, .refl r⟩

/--
どの実行でも、書かれた分割は消えず、当事者と取り分と期限は変わらない。断られ、取り消され、期限の切れた分割では、残りの仕事が
片付くだけである。
-/
theorem split_rows_settle (sql : SplitSql) (s : SplitWorld n) (as : List (SplitAct n)) :
    s.db.Grows (run (splitStep sql) s as).db := by
  induction as generalizing s with
  | nil => exact .refl s.db
  | cons a as ih => exact (grows_step s a).trans (ih (splitStep sql s a).2)

/-! ## 答える資格 -/

/-- 申し出に答える側。 -/
def EpicSplit.answerer (r : EpicSplit) : String :=
  match r.direction with
  | .outgoing => r.peerAgentId
  | .incoming => r.localAgentId

/-- 承諾しようとする呼び出しの、分割と答える者。 -/
def SplitTaker.answers : SplitTaker → Option (String × String)
  | propose _ => none
  | accept r caller => some (r.id, caller)

/-- 分割を確かめた呼び出しだけが、その分割に答える。 -/
def SplitDb.Entitled (db : SplitDb) (x : String × String) : Prop :=
  ∃ r, db.splits.find? x.1 = some r ∧ r.answerer = x.2

theorem SplitDb.Entitled.grows {x : String × String} (h : db.Entitled x) (hg : db.Grows db') :
    db'.Entitled x := by
  obtain ⟨r, hr, hanswerer⟩ := h
  obtain ⟨r', hr', hlater⟩ := hg x.1 r hr
  refine ⟨r', hr', ?_⟩
  rw [← hanswerer, EpicSplit.answerer, EpicSplit.answerer, hlater.frame]

namespace SplitPc

variable {pc : SplitPc} {inp : SplitInput} {k : SplitTaker} {now : Time} {x : String × String}

/-- 承諾か拒絶を書こうとしている呼び出しの、分割と答える者。 -/
def answers : SplitPc → Option (String × String)
  | deciding (.reject r caller _ _) => some (r.id, caller)
  | deciding (.ingest _ line sender) =>
    if line.kind = .accept ∨ line.kind = .reject then some (line.id, sender) else none
  | pc => pc.taker.bind SplitTaker.answers

theorem answers_nextWork (sweep : Option SplitSweep) : (nextWork sweep).answers = none := by
  match sweep with
  | none | some ⟨_, []⟩ => rfl
  | some ⟨_, r :: _⟩ =>
    simp only [nextWork]
    split <;> rfl

theorem answers_afterCleanup (r : EpicSplit) (sweep : Option SplitSweep) :
    (afterCleanup r sweep).answers = none := by
  unfold afterCleanup
  split
  · rfl
  · exact answers_nextWork sweep

theorem answers_afterOwner (caller : String) (reason : Option String) (r : EpicSplit) :
    (afterOwner caller reason now r).answers = none := by
  unfold afterOwner
  split <;> rfl

theorem answers_afterCancelled (caller : String) (reason : Option String) (r : EpicSplit) :
    (afterCancelled caller reason now r).answers = none := by
  unfold afterCancelled
  split
  · exact answers_afterOwner caller reason r
  · split <;> rfl

theorem answers_afterDecided (changed : Bool) (w : SplitPurpose) :
    (afterDecided changed w).answers = none := by
  cases w <;> cases changed <;> rfl

theorem answers_afterDecideFailed (w : SplitPurpose) : (afterDecideFailed w).answers = none := by
  cases w with
  | expire r sweep => exact answers_nextWork (some sweep)
  | _ => rfl

theorem answers_afterTold (sent : Bool) (w : SplitTelling) : (afterTold sent w).answers = none := by
  cases w with
  | expiry r sweep =>
    cases sent with
    | true => rfl
    | false => exact answers_nextWork sweep
  | _ => cases sent <;> rfl

theorem answers_afterScan {current : List EpicSplit} (h : (afterScan k now current).answers = some x) :
    k.answers = some x := by
  unfold afterScan at h
  split at h
  · cases h
  · cases k <;> exact h

theorem answers_afterList {splits : List EpicSplit} (h : (afterList k now splits).answers = some x) :
    k.answers = some x := by
  unfold afterList at h
  split at h
  · exact answers_afterScan h
  · exact h

theorem answers_afterReleases {splits : List EpicSplit}
    (h : (afterReleases k now splits).answers = some x) : k.answers = some x := by
  unfold afterReleases at h
  split at h
  · exact answers_afterScan h
  · exact h

/-- `answer` は、自分への申し出だけに答える。 -/
theorem entitled_of_afterAnswered {caller : String} {accept : Bool} {reason : Option String}
    {r : EpicSplit} (hr : db.splits.find? r.id = some r)
    (h : (afterAnswered caller accept reason now r).answers = some x) : db.Entitled x := by
  unfold afterAnswered at h
  split at h
  · cases h
  · next hmine =>
    push Not at hmine
    have hanswerer : r.answerer = caller := by
      rw [EpicSplit.answerer, hmine.1]
      exact hmine.2.1
    refine ⟨r, ?_, ?_⟩
    · split at h <;> (cases h; exact hr)
    · split at h <;> (cases h; exact hanswerer)

/-- `ingest` は、自分の申し出への、相手の答だけを受け取る。 -/
theorem entitled_of_afterIngested {recipient : String} {m : ClaimedPeerMessage}
    (h : (afterIngested recipient m (db.splits.find? m.line.id)).answers = some x) : db.Entitled x := by
  generalize hfound : db.splits.find? m.line.id = found at h
  unfold afterIngested at h
  split at h
  · split at h
    · cases h
    · split at h <;> cases h
  · cases h
  · next r hproposal =>
    split at h
    · next hadmit =>
      simp only [answers] at h
      split at h
      · next hkind =>
        cases h
        refine ⟨r, hfound, ?_⟩
        simp only [SplitMessage.admits, Bool.and_eq_true, decide_eq_true_eq] at hadmit
        have hdir : r.direction = .outgoing := by
          rcases hkind with hk | hk <;> simp only [hk, Bool.and_eq_true, decide_eq_true_eq] at hadmit
          · exact hadmit.2.1
          · exact hadmit.2
        rw [EpicSplit.answerer, hdir]
        exact hadmit.1.1
      · cases h
    · cases h

/-- 一歩の後に答えようとしている分割は、前から答えようとしていたか、いま確かめた分割である。 -/
theorem answers_next (h : (pc.next sql inp db).answers = some x) :
    pc.answers = some x ∨ db.Entitled x := by
  cases pc
  case idle | recording => cases h
  case checkingTask p todo =>
    cases todo with
    | nil => cases h
    | cons id todo =>
      simp only [next] at h
      split at h <;> cases h
  case asking k todo taken =>
    cases todo with
    | nil => cases k <;> exact .inl h
    | cons id todo =>
      simp only [next] at h
      split at h
      · exact .inl h
      · exact .inl h
      · cases h
  case releasing todo tell =>
    cases todo with
    | nil => cases tell <;> cases h
    | cons id todo => cases h
  case telling w =>
    rw [next, answers_afterTold] at h
    cases h
  all_goals
    simp only [next] at h
  case checkingEpic p | checkingParent p task todo => split at h <;> cases h
  case listing k =>
    split at h
    · exact .inl (answers_afterList h)
    · cases h
  case unreleasing k now splits =>
    split at h
    · exact .inl (answers_afterReleases h)
    · cases h
  case scanning k scan =>
    split at h
    · cases h
    · split at h
      · exact .inl (answers_afterScan h)
      · exact .inl h
  case finding p => split at h <;> cases h
  case opening k =>
    split at h
    · exact .inl h
    · cases h
  case acquiring k id todo taken => split at h <;> first | exact .inl h | cases h
  case inserting p => split at h <;> cases h
  case answering caller id accept reason =>
    split at h
    · next r hr =>
      have hfind := (Option.filter_eq_some_iff.mp hr).1
      exact .inr (entitled_of_afterAnswered (Table.key_of_find? hfind ▸ hfind) h)
    · cases h
  case cancelling caller id reason =>
    split at h
    · rw [answers_afterCancelled] at h
      cases h
    · cases h
  case superseding caller r reason =>
    split at h
    · rw [answers_afterOwner] at h
      cases h
    · cases h
  case ingesting recipient m =>
    split at h
    · exact .inr (entitled_of_afterIngested h)
    · cases h
  case deciding w =>
    split at h
    · rw [answers_afterDecided] at h
      cases h
    · rw [answers_afterDecideFailed] at h
      cases h
  case rereading id sweep =>
    split at h
    · cases h
    · rw [answers_nextWork] at h
      cases h
  case cleaning r todo sweep =>
    split at h
    · rw [answers_afterCleanup] at h
      cases h
    · split at h <;> cases h
  case finishing r cleanup sweep =>
    split at h
    · rw [answers_afterCleanup] at h
      cases h
    · rw [answers_nextWork] at h
      cases h
  case noticing r sweep =>
    split at h
    · cases h
    · rw [answers_nextWork] at h
      cases h
  case sweeping owners now =>
    split at h
    · rw [answers_nextWork] at h
      cases h
    · cases h

end SplitPc

/-! ## 決定の裏付け -/

/-- 分割の今の状態を、決めた者と決めた時刻が裏付ける。 -/
structure EpicSplit.Backed (sql : SplitSql) (r : EpicSplit) : Prop where
  accepted : r.state = .accepted → r.decidedBy = some r.answerer ∧
    ∃ t, r.decidedAt = some t ∧ sql.lt t r.expiresAt = true
  rejected : r.state = .rejected → r.decidedBy = some r.answerer
  expired : r.state = .expired → ∃ t x y, r.decidedAt = some t ∧ sql.julianday t = some x ∧
    sql.julianday r.expiresAt = some y ∧ y ≤ x

/-- 答えようとしている呼び出しは、分割を確かめてある。 -/
structure SplitWorld.Backed (sql : SplitSql) (s : SplitWorld n) : Prop where
  rows : ∀ r ∈ s.db.splits.rows, r.Backed sql
  procs : ∀ pid x, (s.procs pid).answers = some x → s.db.Entitled x

theorem EpicSplit.backed_of_pending {r : EpicSplit} (h : r.state = .pending) : r.Backed sql where
  accepted := fun hs => by rw [h] at hs; cases hs
  rejected := fun hs => by rw [h] at hs; cases hs
  expired := fun hs => by rw [h] at hs; cases hs

/-- 資格のある呼び出しの決定は、裏付けのある行を書く。 -/
theorem EpicSplit.backed_apply {w : SplitPurpose} {now : Time} {r : EpicSplit}
    (hr : db.splits.find? r.id = some r) (happ : (w.decision now).applies sql r = true)
    (hentitled : ∀ x, (SplitPc.deciding w).answers = some x → db.Entitled x) :
    ((w.decision now).apply r).Backed sql := by
  have hid : r.id = (w.decision now).id := by
    simp only [SplitDecision.applies, Bool.and_eq_true, decide_eq_true_eq] at happ
    exact happ.1.1.1
  have hparty : ∀ party, (SplitPc.deciding w).answers = some (r.id, party) → r.answerer = party := by
    intro party hanswers
    obtain ⟨r', hr', hanswerer⟩ := hentitled _ hanswers
    obtain rfl : r = r' := Option.some.inj (hr.symm.trans hr')
    exact hanswerer
  simp only [SplitDecision.applies, Bool.and_eq_true, Bool.or_eq_true, decide_eq_true_eq] at happ
  constructor
  · intro hto
    have hto' : (w.decision now).toState = .accepted := hto
    have hbefore : sql.lt (w.decision now).time r.expiresAt = true := by
      simpa [hto'] using happ.1.2
    refine ⟨?_, (w.decision now).time, rfl, hbefore⟩
    show (w.decision now).actor = some r.answerer
    cases w with
    | accept r₀ caller =>
      refine congrArg some (hparty caller ?_).symm
      rw [hid]
      rfl
    | ingest r₀ line sender =>
      have hkind : line.kind = .accept := by
        cases hk : line.kind <;> simp [SplitPurpose.decision, hk, SplitKind.moves] at hto' ⊢
      refine congrArg some (hparty sender ?_).symm
      rw [hid]
      simp [SplitPc.answers, hkind, SplitPurpose.decision]
    | _ => cases hto'
  · intro hto
    have hto' : (w.decision now).toState = .rejected := hto
    show (w.decision now).actor = some r.answerer
    cases w with
    | reject r₀ caller reason time =>
      refine congrArg some (hparty caller ?_).symm
      rw [hid]
      rfl
    | ingest r₀ line sender =>
      have hkind : line.kind = .reject := by
        cases hk : line.kind <;> simp [SplitPurpose.decision, hk, SplitKind.moves] at hto' ⊢
      refine congrArg some (hparty sender ?_).symm
      rw [hid]
      simp [SplitPc.answers, hkind, SplitPurpose.decision]
    | _ => cases hto'
  · intro hto
    have hto' : (w.decision now).toState = .expired := hto
    have hafter := happ.2.resolve_left fun hne => hne hto'
    split at hafter
    · next x y hx hy => exact ⟨_, x, y, rfl, hx, hy, by simpa using hafter⟩
    · cases hafter

/-- 一歩の書き込みは、裏付けのある行だけを残す。 -/
theorem SplitPc.backed_write {pc : SplitPc} {inp : SplitInput}
    (hrows : ∀ r ∈ db.splits.rows, r.Backed sql)
    (hentitled : ∀ x, pc.answers = some x → db.Entitled x) :
    ∀ r ∈ (pc.write sql inp db).splits.rows, r.Backed sql := by
  intro r hr
  cases pc with
  | inserting p =>
    simp only [write] at hr
    split at hr
    · rcases mem_insertEpicSplit hr with hr | rfl
      · exact hrows r hr
      · exact EpicSplit.backed_of_pending rfl
    · exact hrows r hr
  | recording recipient m expiresAt =>
    simp only [write] at hr
    split at hr
    · rcases mem_insertEpicSplit hr with hr | rfl
      · exact hrows r hr
      · exact EpicSplit.backed_of_pending rfl
    · exact hrows r hr
  | deciding w =>
    simp only [write] at hr
    split at hr
    · obtain ⟨r', hr', rfl⟩ := mem_decideEpicSplitBy hr
      split
      · next happ => exact EpicSplit.backed_apply (Table.find?_of_mem hr') happ hentitled
      · exact hrows r' hr'
    · exact hrows r hr
  | finishing r₀ cleanup sweep =>
    simp only [write] at hr
    split at hr
    · obtain ⟨r', hr', rfl | rfl⟩ := mem_finishEpicSplitWork hr
      · exact hrows r hr'
      · exact ⟨(hrows r' hr').accepted, (hrows r' hr').rejected, (hrows r' hr').expired⟩
    · exact hrows r hr
  | _ => exact hrows r hr

/-- 始めたばかりの呼び出しは、何にも答えない。 -/
theorem SplitCall.answers_start (call : SplitCall) : call.start.answers = none := by
  cases call with
  | propose p =>
    simp only [start]
    split <;> rfl
  | _ => rfl

theorem SplitWorld.Backed.step {s : SplitWorld n} (h : s.Backed sql) (a : SplitAct n) :
    (splitStep sql s a).2.Backed sql := by
  have hgrows := @grows_step n sql s a
  refine ⟨?_, ?_⟩
  · cases a with
    | call pid c =>
      show ∀ r ∈ (s.call pid c).db.splits.rows, r.Backed sql
      unfold SplitWorld.call
      split <;> exact h.rows
    | advance pid inp => exact SplitPc.backed_write h.rows (h.procs pid)
    | updateTasks tasks => exact h.rows
    | release splitId taskId => exact h.rows
  · intro q x hx
    cases a with
    | call pid c =>
      refine SplitDb.Entitled.grows ?_ hgrows
      have hprocs : (splitStep sql s (.call pid c)).2.procs = (s.call pid c).procs := rfl
      rw [hprocs] at hx
      unfold SplitWorld.call at hx
      split at hx
      · simp only [SplitWorld.goto, Function.update_apply] at hx
        split at hx
        · rw [c.answers_start] at hx
          cases hx
        · exact h.procs q x hx
      · exact h.procs q x hx
    | advance pid inp =>
      refine SplitDb.Entitled.grows ?_ hgrows
      have hprocs : (splitStep sql s (.advance pid inp)).2.procs
          = Function.update s.procs pid ((s.procs pid).next sql inp s.db) := rfl
      rw [hprocs, Function.update_apply] at hx
      split at hx
      · rcases SplitPc.answers_next hx with hold | hnew
        · exact h.procs pid x hold
        · exact hnew
      · exact h.procs q x hx
    | updateTasks tasks => exact SplitDb.Entitled.grows (h.procs q x hx) hgrows
    | release splitId taskId => exact SplitDb.Entitled.grows (h.procs q x hx) hgrows

/--
分割の無い状態から始まるどの実行でも、受けられ、断られた分割に答えたのは申し出を受けた側であり、受けられた分割は期限の前に、
期限の切れた分割は期限の後に決まっている。
-/
theorem split_decisions_authorized (sql : SplitSql) (tasks : SplitTasks) (as : List (SplitAct n)) :
    SplitWorld.Backed sql (run (splitStep sql) ({ db := { tasks } } : SplitWorld n) as) := by
  have hstart : ({ db := { tasks } } : SplitWorld n).Backed sql := by
    refine ⟨fun r hr => ?_, fun pid x hx => ?_⟩
    · cases hr
    · cases hx
  exact run_invariant' (I := SplitWorld.Backed sql) (fun _ a h => SplitWorld.Backed.step h a) hstart

end Cassy
