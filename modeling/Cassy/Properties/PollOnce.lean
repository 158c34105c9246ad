import Mathlib.Data.List.Induction
import Cassy.Properties.DeliveryReport

/-!
# poll の渡す伝言

`poll_for_target`、`poll_for_target_with_session`、`poll_all` は、未処理の行を読む文と、読んだ行を処理済みにする文の二つからなる。
transaction は無く、二つめの文は行がまだ未処理かを見ない。二本の接続が同じ行を読み終えてから順に書けば、どちらの poll もその
伝言を返す（`polls_hand_out_twice`）。

`polls_hand_out_once_iff` は、同じ伝言が二度渡らない実行をちょうど言い当てる。書く文の時点で、読んだ行がどれも未処理のまま
であることである。
-/

namespace Cassy

open Infra PromptDb

/-- 表 `db` を開いた、何も始めていない process たち。 -/
def PromptState.opened (db : PromptDb) : PromptState := ⟨db, fun _ => .idle, []⟩

/-- poll と、伝言の受付だけからなる一歩。 -/
def PromptAct.polls : PromptAct → Bool
  | .op (.enqueue _) => true
  | .op _ => false
  | .begin _ _ _ (.poll ..) => true
  | .begin .. => false
  | .next .. => true
  | .crash _ => true

/-- 一歩が返す伝言の番号。poll は書く文を終えて返る。 -/
def PromptAct.handedOut (s : PromptState) : PromptAct → List Nat
  | .next pid _ _ _ _ _ =>
    match s.pc pid with
    | .poll ids => ids
    | _ => []
  | _ => []

/-- どの二つの poll も、同じ伝言を返さない。 -/
def HandedOutOnce (db : PromptDb) (acts : List PromptAct) : Prop :=
  (trace promptStep (.opened db) acts).Pairwise fun e e' =>
    ∀ id ∈ e.op.handedOut e.before, id ∉ e'.op.handedOut e'.before

/-- 書く文の時点で、読んだ行はどれも未処理である。 -/
def StillPending (s : PromptState) (a : PromptAct) : Prop :=
  ∀ id ∈ a.handedOut s, ((s.db.find? id).any fun r => r.processedAt.isNone) = true

instance (s : PromptState) (a : PromptAct) : Decidable (StillPending s a) :=
  inferInstanceAs (Decidable (∀ id ∈ a.handedOut s,
    ((s.db.find? id).any fun r => r.processedAt.isNone) = true))

section Step

variable {db : PromptDb} {s : PromptState} {a : PromptAct} {id : Nat} {r : PromptRow}

/-- 伝言は処理済みである。 -/
def PromptDb.processed (db : PromptDb) (id : Nat) : Prop :=
  ∃ r, db.find? id = some r ∧ r.processedAt.isSome

theorem not_processed_of_pending (h : ((db.find? id).any fun r => r.processedAt.isNone) = true) :
    ¬ db.processed id := by
  rintro ⟨r, hr, hp⟩
  rw [hr, Option.any_some, Option.isNone_iff_eq_none] at h
  rw [h] at hp
  cases hp

/-- poll の書く文は、読んだ行だけを処理済みにする。 -/
theorem find?_markPolled (now : Time) (ids : List Nat) (hr : db.find? id = some r) :
    ∃ r', (db.markPolled now ids).find? id = some r'
      ∧ r'.processedAt = if id ∈ ids then some now else r.processedAt := by
  have hid : r.id = id := Table.key_of_find? hr
  unfold markPolled
  rw [find?_update, hr, Option.map_some]
  refine ⟨_, rfl, ?_⟩
  by_cases h : id ∈ ids
  · rw [if_pos h, if_pos (List.contains_iff_mem.mpr (hid ▸ h))]
  · rw [if_neg h, if_neg fun hc => h (hid ▸ List.contains_iff_mem.mp hc)]

/-- poll の途中の位置からの一歩は、poll の書く文だけである。 -/
def PollPc : PromptPc → Prop
  | .idle => True
  | .poll _ => True
  | _ => False

/-- どの process も、待っているか poll の途中である。 -/
def Polling (s : PromptState) : Prop := ∀ pid, PollPc (s.pc pid)

theorem polling_opened (db : PromptDb) : Polling (.opened db) := fun _ => trivial

theorem polling_update {pid : Nat} {pc : PromptPc} (h : Polling s) (hpc : PollPc pc) :
    ∀ p, PollPc (Function.update s.pc pid pc p) := by
  intro p
  by_cases hp : p = pid
  · subst hp
    rw [Function.update_self]
    exact hpc
  · rw [Function.update_of_ne hp]
    exact h p

/-- 一歩の前後。行は消えず、処理済みになるのは返した伝言だけで、読んだばかりの行は未処理である。 -/
structure PollStep (s : PromptState) (a : PromptAct) (s' : PromptState) : Prop where
  polling : Polling s'
  row : ∀ id r, s.db.find? id = some r → ∃ r', s'.db.find? id = some r'
    ∧ (id ∈ a.handedOut s → r'.processedAt.isSome)
    ∧ (id ∉ a.handedOut s → r'.processedAt = r.processedAt)
  selected : ∀ pid ids, s'.pc pid = .poll ids → s.pc pid = .poll ids
    ∨ ∀ id ∈ ids, ∃ r, s'.db.find? id = some r ∧ r.processedAt = none

/-- poll の候補は、未処理の行である。 -/
theorem pending_of_polled {target session : Option String} {limit : Nat}
    (h : id ∈ db.pollCandidates target session limit) :
    ∃ r, db.find? id = some r ∧ r.processedAt = none := by
  have hmem : ∃ r ∈ db.rows, r.id = id := by
    unfold pollCandidates at h
    dsimp only at h
    obtain ⟨r, hr, hid⟩ := List.mem_map.mp h
    have hr := List.mem_of_mem_take hr
    rw [List.mem_insertionSort] at hr
    exact ⟨r, List.mem_of_mem_filter hr, hid⟩
  obtain ⟨r, hr, rfl⟩ := hmem
  have hfind : db.find? r.id = some r := Table.find?_of_mem hr
  have hp := polled_row h hfind
  simp only [Bool.and_eq_true] at hp
  exact ⟨r, hfind, Option.isNone_iff_eq_none.mp hp.1.1⟩

/-- 表の行に触れない一歩。 -/
theorem PollStep.of_rows {s' : PromptState} (hpoll : Polling s') (hout : a.handedOut s = [])
    (hrow : ∀ id r, s.db.find? id = some r → s'.db.find? id = some r)
    (hsel : ∀ pid ids, s'.pc pid = .poll ids → s.pc pid = .poll ids
      ∨ ∀ id ∈ ids, ∃ r, s'.db.find? id = some r ∧ r.processedAt = none) : PollStep s a s' where
  polling := hpoll
  row := by
    intro id r hr
    refine ⟨r, hrow id r hr, fun h => ?_, fun _ => rfl⟩
    rw [hout] at h
    exact absurd h List.not_mem_nil
  selected := hsel

/-- 受付は、前からある行を変えない。 -/
theorem find?_enqueue (p : NewPrompt) (hr : db.find? id = some r) :
    (db.enqueue p).2.find? id = some r := by
  rcases enqueue_cases db p with h | h | h
  · rw [h]
    exact hr
  · rw [h]
    exact hr
  · rw [h, find?_insert, if_neg (Nat.ne_of_lt (lt_nextId hr))]
    exact hr

theorem pollStep_begin (hs : Polling s) (pid : Nat) (now : Time) (w : Surroundings)
    (target session : Option String) (limit : Nat) :
    PollStep s (.begin pid now w (.poll target session limit))
      (promptStep s (.begin pid now w (.poll target session limit))).2 := by
  dsimp only [promptStep, PromptCall.start]
  split
  · refine .of_rows (polling_update hs trivial) rfl (fun id r hr => hr) fun p ids h => ?_
    by_cases hp : p = pid
    · subst hp
      dsimp only at h
      rw [Function.update_self] at h
      cases h
      exact Or.inr fun id hid => pending_of_polled hid
    · dsimp only at h
      rw [Function.update_of_ne hp] at h
      exact Or.inl h
  · exact .of_rows hs rfl (fun id r hr => hr) fun p ids h => Or.inl h

theorem pollStep_next (hs : Polling s) (pid : Nat) (now : Time) (ok : Bool) (w : Surroundings)
    (notices : Nat → List AbandonNotice) (recoveryText : PromptRow → String) :
    PollStep s (.next pid now ok w notices recoveryText)
      (promptStep s (.next pid now ok w notices recoveryText)).2 := by
  have hpc := hs pid
  have hidle : ∀ p ids, Function.update s.pc pid PromptPc.idle p = .poll ids →
      s.pc p = .poll ids := by
    intro p ids h
    by_cases hp : p = pid
    · subst hp
      rw [Function.update_self] at h
      cases h
    · rwa [Function.update_of_ne hp] at h
  cases hp : s.pc pid with
  | idle =>
    simp only [promptStep, hp, PromptPc.advance]
    refine .of_rows (polling_update hs trivial) ?_ (fun id r hr => hr) fun p ids h => ?_
    · simp only [PromptAct.handedOut, hp]
    · exact Or.inl (hidle p ids h)
  | poll ids =>
    have hout : (PromptAct.next pid now ok w notices recoveryText).handedOut s = ids := by
      simp only [PromptAct.handedOut, hp]
    simp only [promptStep, hp, PromptPc.advance]
    refine ⟨polling_update hs trivial, ?_, fun p ids h => Or.inl (hidle p ids h)⟩
    intro id r hr
    obtain ⟨r', hr', hp'⟩ := find?_markPolled now ids hr
    rw [hout]
    refine ⟨r', hr', fun h => ?_, fun h => ?_⟩
    · rw [hp', if_pos h]
      rfl
    · rw [hp', if_neg h]
  | _ =>
    rw [hp] at hpc
    exact hpc.elim

theorem pollStep_crash (hs : Polling s) (pid : Nat) :
    PollStep s (.crash pid) (promptStep s (.crash pid)).2 := by
  refine .of_rows (polling_update hs trivial) rfl (fun id r hr => hr) fun p ids h => ?_
  by_cases hp : p = pid
  · subst hp
    dsimp only [promptStep] at h
    rw [Function.update_self] at h
    cases h
  · dsimp only [promptStep] at h
    rw [Function.update_of_ne hp] at h
    exact Or.inl h

theorem pollStep (hs : Polling s) (ha : a.polls = true) : PollStep s a (promptStep s a).2 := by
  cases a with
  | op o =>
    cases o with
    | enqueue p =>
      exact .of_rows hs rfl (fun id r hr => find?_enqueue p hr) fun pid ids h => Or.inl h
    | _ => cases ha
  | begin pid now w call =>
    cases call with
    | poll target session limit => exact pollStep_begin hs pid now w target session limit
    | _ => cases ha
  | next pid now ok w notices recoveryText =>
    exact pollStep_next hs pid now ok w notices recoveryText
  | crash pid => exact pollStep_crash hs pid

/-- 処理済みの伝言は、処理済みのまま残る。 -/
theorem PollStep.processed {s' : PromptState} (h : PollStep s a s') (hp : s.db.processed id) :
    s'.db.processed id := by
  obtain ⟨r, hr, hp⟩ := hp
  obtain ⟨r', hr', hout, hkeep⟩ := h.row id r hr
  refine ⟨r', hr', ?_⟩
  by_cases hid : id ∈ a.handedOut s
  · exact hout hid
  · rw [hkeep hid]
    exact hp

end Step

/-! ## 実行の全体 -/

section Run

variable {db : PromptDb} {acts : List PromptAct}

/-- 書く文の時点で読んだ行がどれも未処理なら、同じ伝言は二度渡らない。 -/
theorem handedOutOnce_of_pending (hacts : acts.all PromptAct.polls = true)
    (hg : Guarded promptStep StillPending (.opened db) acts) : HandedOutOnce db acts := by
  refine trace_pairwise (I := Polling) (g := fun s a => a.polls = true ∧ StillPending s a)
    (P := fun e s => ∀ id ∈ e.op.handedOut e.before, s.db.processed id) ?_ ?_ ?_ ?_
    (polling_opened db) (hg.and_all hacts)
  · exact fun s a hs ha => (pollStep hs ha.1).polling
  · intro s a hs ha id hid
    obtain ⟨r, hr, -⟩ := (Option.any_eq_true _ _).mp (ha.2 id hid)
    obtain ⟨r', hr', hout, -⟩ := (pollStep hs ha.1).row id r hr
    exact ⟨r', hr', hout hid⟩
  · exact fun e s a hs ha h id hid => (pollStep hs ha.1).processed (h id hid)
  · intro e s a hs ha h id hid hid'
    exact not_processed_of_pending (ha.2 id hid') (h id hid)

/-- poll の途中の伝言は、未処理か、もう別の poll が返した。 -/
def PendingOrHandedOut (db : PromptDb) (acts : List PromptAct) (s : PromptState) : Prop :=
  ∀ pid ids, s.pc pid = .poll ids → ∀ id ∈ ids, ∃ r, s.db.find? id = some r
    ∧ (r.processedAt = none
      ∨ ∃ e ∈ trace promptStep (.opened db) acts, id ∈ e.op.handedOut e.before)

theorem polling_run (hacts : acts.all PromptAct.polls = true) :
    Polling (run promptStep (.opened db) acts) := by
  have hg : Guarded promptStep (fun _ a => a.polls = true) (.opened db) acts :=
    ((guarded_of_forall (g := fun _ _ => True) (fun _ _ => trivial) _ acts).and_all hacts).imp
      fun _ _ h => h.1
  exact run_invariant (I := Polling) (fun s a hs ha => (pollStep hs ha).polling) (polling_opened db) hg

/-- 履歴を後ろに一つずつ延ばす帰納法による。 -/
theorem pendingOrHandedOut_run (hacts : acts.all PromptAct.polls = true) :
    PendingOrHandedOut db acts (run promptStep (.opened db) acts) := by
  induction acts using List.reverseRecOn with
  | nil =>
    intro pid ids h
    cases h
  | append_singleton acts a ih =>
    rw [List.all_append, Bool.and_eq_true] at hacts
    have ha : a.polls = true := by simpa using hacts.2
    have hpolling : Polling (run promptStep (.opened db) acts) := polling_run hacts.1
    have hstep := pollStep hpolling ha
    rw [run_append]
    intro pid ids hpc id hid
    rcases hstep.selected pid ids hpc with hold | hnew
    · obtain ⟨r, hr, hcase⟩ := ih hacts.1 pid ids hold id hid
      obtain ⟨r', hr', hout, hkeep⟩ := hstep.row id r hr
      refine ⟨r', hr', ?_⟩
      rw [trace_append]
      by_cases hmark : id ∈ a.handedOut (run promptStep (.opened db) acts)
      · refine Or.inr ⟨_, List.mem_append_right _ List.mem_cons_self, ?_⟩
        exact hmark
      · rw [hkeep hmark]
        refine hcase.imp (fun h => h) ?_
        rintro ⟨e, he, hmem⟩
        exact ⟨e, List.mem_append_left _ he, hmem⟩
    · obtain ⟨r, hr, hp⟩ := hnew id hid
      exact ⟨r, hr, Or.inl hp⟩

/-- 同じ伝言が二度渡らないなら、書く文の時点で読んだ行はどれも未処理である。 -/
theorem pending_of_handedOutOnce (hacts : acts.all PromptAct.polls = true)
    (h : HandedOutOnce db acts) : Guarded promptStep StillPending (.opened db) acts := by
  induction acts using List.reverseRecOn with
  | nil => trivial
  | append_singleton acts a ih =>
    rw [List.all_append, Bool.and_eq_true] at hacts
    unfold HandedOutOnce at h
    rw [trace_append, List.pairwise_append] at h
    refine guarded_append.mpr ⟨ih hacts.1 h.1, ?_, trivial⟩
    intro id hid
    have hpend : PendingOrHandedOut db acts (run promptStep (.opened db) acts) :=
      pendingOrHandedOut_run hacts.1
    have hpc : ∃ pid ids, (run promptStep (.opened db) acts).pc pid = .poll ids ∧ id ∈ ids := by
      cases a with
      | next pid now ok w notices recoveryText =>
        dsimp only [PromptAct.handedOut] at hid
        split at hid
        · next ids hp => exact ⟨pid, ids, hp, hid⟩
        · exact absurd hid List.not_mem_nil
      | _ => exact absurd hid List.not_mem_nil
    obtain ⟨pid, ids, hp, hmem⟩ := hpc
    obtain ⟨r, hr, hcase⟩ := hpend pid ids hp id hmem
    rcases hcase with hnone | ⟨e, he, hout⟩
    · rw [hr, Option.any_some, hnone]
      rfl
    · exact absurd hid (h.2.2 e he _ List.mem_cons_self id hout)

/--
どの接続の poll がどう割り込んでも、同じ伝言が二つの poll から返らないのは、ちょうど、どの poll の書く文の時点でも
読んだ行が未処理のままであるときである。
-/
theorem polls_hand_out_once_iff (db : PromptDb) (acts : List PromptAct)
    (hacts : acts.all PromptAct.polls = true) :
    HandedOutOnce db acts ↔ Guarded promptStep StillPending (.opened db) acts :=
  ⟨pending_of_handedOutOnce hacts, handedOutOnce_of_pending hacts⟩

end Run

/-- 一つの poll の、読む文と書く文。 -/
def pollSelect (pid : Nat) (target : Option String) : PromptAct :=
  .begin pid 1 {} (.poll target none 10)

def pollMark (pid : Nat) : PromptAct := .next pid 1 true {} (fun _ => []) fun r => r.prompt

/-- 宛先の決まった伝言が一つある表。 -/
def oneDirectPrompt : PromptDb :=
  PromptDb.empty.insert { source := "lead", target := "ada", prompt := "rebase", createdAt := 0 }

/-- 続けて行う二つの poll。二つめは何も返さない。 -/
theorem polls_hand_out_once_in_turn :
    HandedOutOnce oneDirectPrompt
      [pollSelect 0 (some "ada"), pollMark 0, pollSelect 1 none, pollMark 1] :=
  (polls_hand_out_once_iff _ _ (by decide)).mpr (by decide)

/-- 二本の接続が同じ行を読み終えてから順に書けば、どちらもその伝言を返す。 -/
theorem polls_hand_out_twice :
    ¬ ∀ db acts, acts.all PromptAct.polls = true → HandedOutOnce db acts := by
  intro h
  have honce := h oneDirectPrompt
    [pollSelect 0 (some "ada"), pollSelect 1 none, pollMark 0, pollMark 1] (by decide)
  unfold HandedOutOnce at honce
  revert honce
  decide

end Cassy
