import Mathlib.Data.Fintype.Basic
import Cassy.Infra.Run
import Cassy.Cloud.FileLeases

/-!
# 帳簿と cloud の一致

呼び出しが一つも無いとき、帳簿で借りているものは cloud でも借りており、cloud で借りているものは帳簿のどこかにある。
これは、遅れて着く一歩が次の四つを守る実行で成り立つ。

* 返しの問いが着いたとき、その借りは改めて借りられていない
* 借りられなかったという答を書くとき、その借りを cloud は与えていない
* 返し終えたものを消すとき、その借りを cloud は与えていない
* 同じ worker の前の番号の借りは、帳簿が頼っている間は返されない

実装は一つ目を守らない。写しから選んだ返しは、同じ agent が同じ file を次の task のために借り直した後に cloud に着き、
帳簿の印だけが残る。
-/

namespace Cassy

open Infra

variable {n : Nat} {env : FileLeaseEnv} {s : FileWorld n}

/-! ## 一致 -/

namespace FileWorld

/-- 借りられたという答を、まだ書いていない呼び出しがある。 -/
def claiming (s : FileWorld n) (id : String) : Bool := decide (∃ pid, (s.procs pid).claims id = true)

/-- 帳簿か呼び出しが、その借りを頼っている。 -/
def relies (s : FileWorld n) (id : String) : Bool := s.ledger.mine id || s.claiming id

/-- cloud が、この agent か同じ worker の前の番号に与えている。期限切れの控えのあるものを含む。 -/
def backed (env : FileLeaseEnv) (s : FileWorld n) (id : String) : Bool :=
  s.ranOut id || (s.cloud id).any fun h => h = env.agent || env.sameWorker h

/-- 呼び出しが一つも無い。 -/
def quiet (s : FileWorld n) : Prop := ∀ pid, s.procs pid = .idle

end FileWorld

/-- 帳簿と cloud の一致。 -/
structure LedgerAgrees (env : FileLeaseEnv) (s : FileWorld n) : Prop where
  mine : ∀ id e, mapGet id s.ledger.leases = some e → e.mine = true → s.backed env id = true
  kept : ∀ id, s.cloud id = some env.agent →
    (mapGet id s.ledger.leases).isSome = true ∨ (mapGet id s.ledger.releasing).isSome = true

/-- 遅れて着く一歩の守ること。 -/
def FileAct.safe (env : FileLeaseEnv) (s : FileWorld n) : FileAct n → Bool
  | .recordAnswer pid =>
    match s.procs pid with
    | .answered c answer =>
      answer = some true || s.cloud c.id ≠ some env.agent || s.ledger.pending c.id || s.claiming c.id
    | _ => true
  | .releaseOne pid reached =>
    match s.procs pid with
    | .releasing now agentId (x :: _) _ =>
      env.lifetime ≤ now - x.2 || !reached || s.cloud x.1 ≠ some agentId || !s.relies x.1
    | _ => true
  | .forget pid =>
    match s.procs pid with
    | .releasing _ _ [] released =>
      released.all fun x => mapGet x.1 s.ledger.releasing ≠ some x.2
        || s.cloud x.1 ≠ some env.agent || s.relies x.1
    | _ => true
  | .others id holder =>
    !s.relies id || s.cloud id = some env.agent || s.ranOut id
      || holder.any fun h => h = env.agent || env.sameWorker h
  | _ => true

/-! ## 帳簿の書き換え -/

namespace FileLedger

variable {l : FileLedger} {id : String}

theorem saved_fields (l : FileLedger) : l.saved.leases = l.leases ∧ l.saved.releasing = l.releasing := by
  unfold saved
  split
  · next h =>
    simp only [Bool.and_eq_true, List.isEmpty_iff] at h
    exact ⟨h.1.1.symm, h.1.2.symm⟩
  · exact ⟨rfl, rfl⟩

@[simp] theorem saved_mine (l : FileLedger) (id : String) : l.saved.mine id = l.mine id := by
  unfold mine
  rw [(saved_fields l).1]

@[simp] theorem saved_pending (l : FileLedger) (id : String) : l.saved.pending id = l.pending id := by
  unfold pending
  rw [(saved_fields l).2]

/-- 借りの答を書いた後の印。 -/
theorem recordAnswer_mine (agent : String) (l : FileLedger) (c : FileClaim) (answer : Option Bool)
    (id : String) :
    (l.recordAnswer agent c answer).mine id
      = if c.id = id then decide (answer = some true) else l.mine id := by
  unfold recordAnswer
  rw [saved_mine]
  unfold mine
  cases answer with
  | none =>
    dsimp only
    rw [mapGet_mapRemove]
    split <;> simp
  | some b =>
    dsimp only
    rw [mapGet_mapInsert]
    split <;> simp

theorem recordAnswer_pending (agent : String) {l : FileLedger} {c : FileClaim} {answer : Option Bool}
    {id : String} (h : c.id ≠ id ∨ answer ≠ some true) :
    (l.recordAnswer agent c answer).pending id = l.pending id := by
  unfold recordAnswer
  rw [saved_pending]
  unfold pending
  cases answer with
  | none => rfl
  | some b =>
    cases b with
    | false => rfl
    | true =>
      dsimp only
      rw [if_pos rfl, mapGet_mapRemove, if_neg (h.resolve_right fun hne => hne rfl)]

/-- 一つの借りの始末は、借りている印を返す途中の印に替える。 -/
theorem endLease_spec (now : Int) (l : FileLedger) (id' id : String) :
    ((l.endLease now id').mine id = true → l.mine id = true)
      ∧ (l.mine id = true ∨ l.pending id = true →
        (l.endLease now id').mine id = true ∨ (l.endLease now id').pending id = true) := by
  unfold endLease
  cases he : mapGet id' l.leases with
  | none => exact ⟨fun h => h, fun h => h⟩
  | some e =>
    dsimp only
    unfold mine pending
    rw [mapGet_mapRemove]
    by_cases hid : id' = id
    · subst hid
      rw [if_pos rfl, he]
      refine ⟨fun h => absurd h Bool.false_ne_true, fun h => Or.inr ?_⟩
      cases hmine : e.mine with
      | true =>
        rw [if_pos rfl, mapGet_mapInsert, if_pos rfl]
        rfl
      | false =>
        rw [if_neg Bool.false_ne_true]
        refine h.resolve_left ?_
        rw [Option.any_some, hmine]
        exact Bool.false_ne_true
    · rw [if_neg hid]
      refine ⟨fun h => h, fun h => h.imp_right fun hp => ?_⟩
      split
      · rw [mapGet_mapInsert, if_neg hid]
        exact hp
      · exact hp

theorem endTask_spec (l : FileLedger) (taskId : String) (now : Int) (id : String) :
    ((l.endTask taskId now).mine id = true → l.mine id = true)
      ∧ (l.mine id = true ∨ l.pending id = true →
        (l.endTask taskId now).mine id = true ∨ (l.endTask taskId now).pending id = true) := by
  have hfold : ∀ (ids : List String) (l : FileLedger),
      ((ids.foldl (endLease now) l).mine id = true → l.mine id = true)
        ∧ (l.mine id = true ∨ l.pending id = true →
          (ids.foldl (endLease now) l).mine id = true ∨ (ids.foldl (endLease now) l).pending id = true) := by
    intro ids
    induction ids with
    | nil => exact fun l => ⟨fun h => h, fun h => h⟩
    | cons id' ids ih =>
      intro l
      obtain ⟨hmine, hkept⟩ := ih (l.endLease now id')
      obtain ⟨hmine₁, hkept₁⟩ := endLease_spec now l id' id
      exact ⟨fun h => hmine₁ (hmine h), fun h => hkept (hkept₁ h)⟩
  unfold endTask
  rw [saved_mine, saved_pending]
  exact hfold _ l

/-- 返したものを消しても、借りの印は変わらない。消えるのは、写しのままに残っていたものだけである。 -/
theorem forget_spec (l : FileLedger) (released : List (String × Int)) (id : String) :
    (l.forget released).mine id = l.mine id
      ∧ (l.pending id = true → (l.forget released).pending id = true
        ∨ ∃ x ∈ released, x.1 = id ∧ mapGet id l.releasing = some x.2) := by
  have hfold : ∀ (released : List (String × Int)) (l : FileLedger),
      (released.foldl forgetOne l).mine id = l.mine id
        ∧ (l.pending id = true → (released.foldl forgetOne l).pending id = true
          ∨ ∃ x ∈ released, x.1 = id ∧ mapGet id l.releasing = some x.2) := by
    intro released
    induction released with
    | nil => exact fun l => ⟨rfl, Or.inl⟩
    | cons x xs ih =>
      intro l
      obtain ⟨hmine, hkept⟩ := ih (l.forgetOne x)
      by_cases hx : mapGet x.1 l.releasing = some x.2
      · have hone : l.forgetOne x = { l with releasing := mapRemove x.1 l.releasing } := if_pos hx
        rw [hone] at hmine hkept
        rw [List.foldl_cons, hone]
        refine ⟨hmine, fun hp => ?_⟩
        by_cases hid : x.1 = id
        · exact Or.inr ⟨x, List.mem_cons_self, hid, hid ▸ hx⟩
        · have hget : mapGet id (mapRemove x.1 l.releasing) = mapGet id l.releasing := by
            rw [mapGet_mapRemove, if_neg hid]
          refine (hkept ?_).imp_right ?_
          · unfold pending
            rw [hget]
            exact hp
          · rintro ⟨y, hy, hyid, hyget⟩
            exact ⟨y, List.mem_cons_of_mem _ hy, hyid, hget ▸ hyget⟩
      · have hone : l.forgetOne x = l := if_neg hx
        rw [hone] at hmine hkept
        rw [List.foldl_cons, hone]
        refine ⟨hmine, fun hp => (hkept hp).imp_right ?_⟩
        rintro ⟨y, hy, hyid, hyget⟩
        exact ⟨y, List.mem_cons_of_mem _ hy, hyid, hyget⟩
  unfold forget
  split
  · exact ⟨rfl, Or.inl⟩
  · rw [saved_mine, saved_pending]
    exact hfold released l

end FileLedger

/-! ## 呼び出しの位置 -/

namespace FileWorld

variable {pid : Fin n} {pc : FilePc} {id : String}

theorem claiming_iff : s.claiming id = true ↔ ∃ pid, (s.procs pid).claims id = true :=
  decide_eq_true_iff

theorem claiming_of_goto (h : (s.goto pid pc).claiming id = true) :
    pc.claims id = true ∨ s.claiming id = true := by
  obtain ⟨p, hp⟩ := claiming_iff.mp h
  dsimp only [goto] at hp
  by_cases hpid : p = pid
  · rw [hpid, Function.update_self] at hp
    exact Or.inl hp
  · rw [Function.update_of_ne hpid] at hp
    exact Or.inr (claiming_iff.mpr ⟨p, hp⟩)

theorem claiming_goto_self (h : pc.claims id = true) : (s.goto pid pc).claiming id = true := by
  refine claiming_iff.mpr ⟨pid, ?_⟩
  dsimp only [goto]
  rw [Function.update_self]
  exact h

/-- 頼っていなかった呼び出しが動いても、頼っている呼び出しは残る。 -/
theorem claiming_goto (hpc : (s.procs pid).claims id = false) (h : s.claiming id = true) :
    (s.goto pid pc).claiming id = true := by
  obtain ⟨p, hp⟩ := claiming_iff.mp h
  refine claiming_iff.mpr ⟨p, ?_⟩
  dsimp only [goto]
  by_cases hpid : p = pid
  · rw [hpid, hpc] at hp
    cases hp
  · rw [Function.update_of_ne hpid]
    exact hp

theorem relies_iff : s.relies id = true ↔ s.ledger.mine id = true ∨ s.claiming id = true := by
  unfold relies
  rw [Bool.or_eq_true]

end FileWorld

/-! ## 一歩で保たれること -/

/-- 頼っているものは cloud にあり、cloud にあるものは頼っているか、返す途中である。 -/
structure FileInv (env : FileLeaseEnv) (s : FileWorld n) : Prop where
  backed : ∀ id, s.relies id = true → s.backed env id = true
  kept : ∀ id, s.cloud id = some env.agent → s.relies id = true ∨ s.ledger.pending id = true

namespace FileInv

open FileWorld

/-- 頼っていない呼び出しを、頼っていない位置に進める。 -/
theorem goto (h : FileInv env s) {pid : Fin n} {pc : FilePc} (hold : ∀ id, (s.procs pid).claims id = false)
    (hnew : ∀ id, pc.claims id = false) : FileInv env (s.goto pid pc) := by
  have hclaiming : ∀ id, (s.goto pid pc).claiming id = true → s.claiming id = true := by
    intro id hid
    refine (claiming_of_goto hid).resolve_left ?_
    rw [hnew id]
    exact Bool.false_ne_true
  constructor
  · intro id hid
    rw [relies_iff] at hid
    exact h.backed id (relies_iff.mpr (hid.imp_right (hclaiming id)))
  · intro id hid
    refine (h.kept id hid).imp_left fun hrel => ?_
    rw [relies_iff] at hrel ⊢
    exact hrel.imp_right (claiming_goto (hold id))

/-- 帳簿だけを書き換える。 -/
theorem ledger (h : FileInv env s) {l : FileLedger}
    (hmine : ∀ id, l.mine id = true → s.ledger.mine id = true)
    (hkept : ∀ id, s.cloud id = some env.agent → s.ledger.mine id = true ∨ s.ledger.pending id = true →
      l.mine id = true ∨ l.pending id = true ∨ s.claiming id = true) :
    FileInv env { s with ledger := l } := by
  constructor
  · intro id hid
    rw [relies_iff] at hid
    exact h.backed id (relies_iff.mpr (hid.imp_left (hmine id)))
  · intro id hid
    have hgoal : l.mine id = true ∨ l.pending id = true ∨ s.claiming id = true →
        ({ s with ledger := l } : FileWorld n).relies id = true ∨ l.pending id = true := by
      rintro (hm | hp | hc)
      · exact Or.inl (relies_iff.mpr (Or.inl hm))
      · exact Or.inr hp
      · exact Or.inl (relies_iff.mpr (Or.inr hc))
    refine hgoal ?_
    rcases h.kept id hid with hrel | hp
    · rcases relies_iff.mp hrel with hm | hc
      · exact hkept id hid (Or.inl hm)
      · exact Or.inr (Or.inr hc)
    · exact hkept id hid (Or.inr hp)

/-- 誰も頼っていない借りの借り手を替える。 -/
theorem hold (h : FileInv env s) {id : String} {holder : Option String}
    (hrel : s.relies id = true → (s.hold id holder).backed env id = true)
    (hagent : holder ≠ some env.agent) : FileInv env (s.hold id holder) := by
  constructor
  · intro id' hid'
    by_cases hid : id' = id
    · rw [hid] at hid' ⊢
      exact hrel hid'
    · have hbacked := h.backed id' hid'
      unfold FileWorld.backed FileWorld.hold at *
      dsimp only
      rw [Function.update_of_ne hid]
      exact hbacked
  · intro id' hid'
    dsimp only [FileWorld.hold] at hid'
    by_cases hid : id' = id
    · rw [hid, Function.update_self] at hid'
      exact absurd hid' hagent
    · rw [Function.update_of_ne hid] at hid'
      exact h.kept id' hid'

/-- 答と、その後の借り手。 -/
theorem acquired_spec (env : FileLeaseEnv) (holder : Option String) (answer : AcquireAnswer) :
    ((FileWorld.acquired env holder answer).2 = some env.agent →
        (FileWorld.acquired env holder answer).1 = some true)
      ∧ ((FileWorld.acquired env holder answer).1 = some true →
        (FileWorld.acquired env holder answer).2.any (fun h => h = env.agent || env.sameWorker h) = true)
      ∧ ((FileWorld.acquired env holder answer).2 = some env.agent
        ∨ (FileWorld.acquired env holder answer).2 = holder) := by
  unfold FileWorld.acquired
  by_cases hagent : holder = some env.agent
  · rw [if_pos hagent]
    exact ⟨fun _ => rfl, fun _ => by rw [hagent]; simp, Or.inr rfl⟩
  · rw [if_neg hagent]
    cases answer with
    | claimed => exact ⟨fun _ => rfl, fun _ => by simp, Or.inl rfl⟩
    | localHolder sameTask =>
      refine ⟨fun h => absurd h hagent, fun h => ?_, Or.inr rfl⟩
      dsimp only at h ⊢
      split at h
      · next hsame =>
        rw [Bool.and_eq_true, Option.any_eq_true] at hsame
        obtain ⟨⟨other, hother, hsame⟩, -⟩ := hsame
        rw [hother, Option.any_some, hsame, Bool.or_true]
      · cases h
    | peerHolds => exact ⟨fun h => absurd h hagent, fun h => (by cases h), Or.inr rfl⟩
    | unavailable => exact ⟨fun h => absurd h hagent, fun h => (by cases h), Or.inr rfl⟩

/-- cloud に問う。 -/
theorem acquire (h : FileInv env s) (pid : Fin n) (answer : AcquireAnswer) :
    FileInv env (s.acquire env pid answer) := by
  unfold FileWorld.acquire
  cases hpc : s.procs pid with
  | asking c =>
    dsimp only
    obtain ⟨hrecord, hbacked, hholder⟩ := acquired_spec env (s.cloud c.id) answer
    generalize FileWorld.acquired env (s.cloud c.id) answer = out at hrecord hbacked hholder
    obtain ⟨record, holder⟩ := out
    dsimp only at hrecord hbacked hholder ⊢
    have hidle : ∀ id, (s.procs pid).claims id = false := fun id => by rw [hpc]; rfl
    -- 控えを消しても消さなくても、頼り方は同じである
    suffices hmain : ∀ ranOut : String → Bool, (∀ id, id ≠ c.id → ranOut id = s.ranOut id) →
        (holder ≠ some env.agent → ranOut = s.ranOut) →
        FileInv env { (s.hold c.id holder).goto pid (.answered c record) with ranOut := ranOut } by
      split
      · next hagent =>
        exact hmain _ (fun id hid => Function.update_of_ne hid ..) fun hne => absurd hagent hne
      · exact hmain s.ranOut (fun _ _ => rfl) fun _ => rfl
    intro ranOut hother hsame
    constructor
    · intro id hid
      have hrel : FilePc.claims id (.answered c record) = true ∨ s.relies id = true := by
        rcases relies_iff.mp hid with hm | hc
        · exact Or.inr (relies_iff.mpr (Or.inl hm))
        · rcases claiming_of_goto (s := s.hold c.id holder) hc with hc | hc
          · exact Or.inl hc
          · exact Or.inr (relies_iff.mpr (Or.inr hc))
      show (ranOut id || (Function.update s.cloud c.id holder id).any _) = true
      rw [Bool.or_eq_true]
      by_cases hc : id = c.id
      · rw [hc, Function.update_self]
        rcases hrel with hclaims | hrel
        · refine Or.inr (hbacked ?_)
          cases record with
          | none => cases hclaims
          | some b =>
            cases b with
            | false => cases hclaims
            | true => rfl
        · rcases hholder with hagent | hholder
          · refine Or.inr (hbacked (hrecord hagent))
          · by_cases hagent : holder = some env.agent
            · exact Or.inr (hbacked (hrecord hagent))
            · have hold := h.backed id hrel
              unfold FileWorld.backed at hold
              rw [Bool.or_eq_true, hc, ← hholder] at hold
              rw [hsame hagent]
              exact hold
      · rw [Function.update_of_ne hc, hother id hc]
        have hrel : s.relies id = true := by
          refine hrel.resolve_left fun hclaims => hc ?_
          cases record with
          | none => cases hclaims
          | some b =>
            cases b with
            | false => cases hclaims
            | true => exact (of_decide_eq_true hclaims).symm
        have hold := h.backed id hrel
        unfold FileWorld.backed at hold
        rwa [Bool.or_eq_true] at hold
    · intro id hid
      by_cases hc : id = c.id
      · left
        have hagent : holder = some env.agent := by
          have hcloud : Function.update s.cloud c.id holder id = some env.agent := hid
          rwa [hc, Function.update_self] at hcloud
        refine relies_iff.mpr (Or.inr ?_)
        refine claiming_goto_self (s := s.hold c.id holder) ?_
        rw [hrecord hagent, hc]
        exact decide_eq_true rfl
      · have hcloud : s.cloud id = some env.agent := by
          have hcloud : Function.update s.cloud c.id holder id = some env.agent := hid
          rwa [Function.update_of_ne hc] at hcloud
        refine (h.kept id hcloud).imp_left fun hrel => ?_
        rw [relies_iff] at hrel ⊢
        exact hrel.imp_right fun hclaim => claiming_goto (s := s.hold c.id holder) (hidle id) hclaim
  | _ => exact h

/-- 答を書く。 -/
theorem recordAnswer (h : FileInv env s) (pid : Fin n)
    (hsafe : (FileAct.recordAnswer pid).safe env s = true) : FileInv env (s.recordAnswer env pid) := by
  dsimp only [FileAct.safe] at hsafe
  unfold FileWorld.recordAnswer
  cases hpc : s.procs pid with
  | answered c answer =>
    rw [hpc] at hsafe
    dsimp only at hsafe ⊢
    simp only [Bool.or_eq_true, decide_eq_true_eq] at hsafe
    have hgoto : ∀ id, (s.goto pid .idle).claiming id = true → s.claiming id = true := fun id hid =>
      (claiming_of_goto hid).resolve_left Bool.false_ne_true
    constructor
    · intro id hid
      refine h.backed id (relies_iff.mpr ?_)
      rcases relies_iff.mp hid with hm | hc
      · have hm : (s.ledger.recordAnswer env.agent c answer).mine id = true := hm
        rw [FileLedger.recordAnswer_mine] at hm
        split at hm
        · next hid =>
          refine Or.inr (claiming_iff.mpr ⟨pid, ?_⟩)
          rw [hpc, of_decide_eq_true hm]
          exact decide_eq_true hid
        · exact Or.inl hm
      · exact Or.inr (hgoto id hc)
    · intro id hid
      have hcloud : s.cloud id = some env.agent := hid
      by_cases hanswer : answer = some true ∧ c.id = id
      · left
        refine relies_iff.mpr (Or.inl ?_)
        show (s.ledger.recordAnswer env.agent c answer).mine id = true
        rw [FileLedger.recordAnswer_mine, if_pos hanswer.2]
        exact decide_eq_true hanswer.1
      · -- この呼び出しは `id` を頼っていない
        have hidle : (s.procs pid).claims id = false := by
          rw [hpc]
          cases answer with
          | none => rfl
          | some b =>
            cases b with
            | false => rfl
            | true => exact decide_eq_false fun he => hanswer ⟨rfl, he⟩
        have hpending : s.ledger.pending id = true →
            (s.ledger.recordAnswer env.agent c answer).pending id = true := by
          intro hp
          rw [FileLedger.recordAnswer_pending]
          · exact hp
          · by_cases he : c.id = id
            · exact Or.inr fun hs => hanswer ⟨hs, he⟩
            · exact Or.inl he
        have hclaiming : s.claiming id = true →
            ({ s.goto pid .idle with ledger := s.ledger.recordAnswer env.agent c answer }
              : FileWorld n).relies id = true :=
          fun hc => relies_iff.mpr (Or.inr (claiming_goto (s := s) hidle hc))
        by_cases he : c.id = id
        · rw [he] at hsafe
          rcases hsafe with ((hs | hne) | hp) | hc
          · exact absurd ⟨hs, he⟩ hanswer
          · exact absurd hcloud hne
          · exact Or.inr (hpending hp)
          · exact Or.inl (hclaiming hc)
        · rcases h.kept id hcloud with hrel | hp
          · left
            rcases relies_iff.mp hrel with hm | hc
            · refine relies_iff.mpr (Or.inl ?_)
              show (s.ledger.recordAnswer env.agent c answer).mine id = true
              rw [FileLedger.recordAnswer_mine, if_neg he]
              exact hm
            · exact hclaiming hc
          · exact Or.inr (hpending hp)
  | _ => exact h

/-- 返す途中の一つ。 -/
theorem releaseOne (h : FileInv env s) (pid : Fin n) (reached : Bool)
    (hsafe : (FileAct.releaseOne pid reached).safe env s = true) :
    FileInv env (s.releaseOne env pid reached) := by
  dsimp only [FileAct.safe] at hsafe
  unfold FileWorld.releaseOne
  cases hpc : s.procs pid with
  | releasing now agentId todo released =>
    have hidle : ∀ id, (s.procs pid).claims id = false := fun id => by rw [hpc]; rfl
    cases todo with
    | nil => exact h
    | cons x todo =>
      rw [hpc] at hsafe
      dsimp only at hsafe ⊢
      split
      · exact h.goto hidle fun _ => rfl
      · next hlife =>
        split
        · next hreached =>
          split
          · next hholds =>
            have hrel : s.relies x.1 = false := by
              simpa [hlife, hreached, hholds] using hsafe
            refine FileInv.goto ?_ hidle fun _ => rfl
            refine h.hold (fun hr => ?_) (by simp)
            rw [hrel] at hr
            cases hr
          · exact h.goto hidle fun _ => rfl
        · exact h.goto hidle fun _ => rfl
  | _ => exact h

/-- 返したものを消す。 -/
theorem forget (h : FileInv env s) (pid : Fin n) (hsafe : (FileAct.forget pid).safe env s = true) :
    FileInv env (s.forget pid) := by
  dsimp only [FileAct.safe] at hsafe
  unfold FileWorld.forget
  cases hpc : s.procs pid with
  | releasing now agentId todo released =>
    cases todo with
    | cons x todo => exact h
    | nil =>
      rw [hpc] at hsafe
      dsimp only at hsafe ⊢
      have hidle : ∀ id, (s.procs pid).claims id = false := fun id => by rw [hpc]; rfl
      have hspec := FileLedger.forget_spec s.ledger released
      refine FileInv.goto (s := { s with ledger := s.ledger.forget released }) ?_ hidle fun _ => rfl
      refine h.ledger (fun id hm => (hspec id).1 ▸ hm) ?_
      rintro id hcloud (hm | hp)
      · exact Or.inl ((hspec id).1.symm ▸ hm)
      · rcases (hspec id).2 hp with hp | ⟨x, hx, rfl, hget⟩
        · exact Or.inr (Or.inl hp)
        · have hrel : s.relies x.1 = true := by
            simpa [hget, hcloud] using List.all_eq_true.mp hsafe x hx
          rcases relies_iff.mp hrel with hm | hc
          · exact Or.inl ((hspec x.1).1.symm ▸ hm)
          · exact Or.inr (Or.inr hc)
  | _ => exact h

/-- 一歩で保たれる。 -/
theorem step (h : FileInv env s) (a : FileAct n) (hsafe : a.safe env s = true) :
    FileInv env (fileStep env s a).2 := by
  cases a with
  | loadClaim pid path taskId now =>
    show FileInv env (s.loadClaim env pid path taskId now)
    unfold FileWorld.loadClaim
    cases hpc : s.procs pid with
    | idle =>
      dsimp only
      split
      · exact h
      · exact h.goto (fun id => by rw [hpc]; rfl) fun _ => rfl
    | _ => exact h
  | acquire pid answer => exact h.acquire pid answer
  | recordAnswer pid => exact h.recordAnswer pid hsafe
  | endTask taskId now =>
    have hspec := s.ledger.endTask_spec taskId now
    exact h.ledger (fun id => (hspec id).1) fun id _ hk => ((hspec id).2 hk).imp_right Or.inl
  | loadReleasing pid now =>
    show FileInv env (s.loadReleasing pid now)
    unfold FileWorld.loadReleasing
    cases hpc : s.procs pid with
    | idle =>
      dsimp only
      split
      · exact h
      · exact h.goto (fun id => by rw [hpc]; rfl) fun _ => rfl
    | _ => exact h
  | releaseOne pid reached => exact h.releaseOne pid reached hsafe
  | forget pid => exact h.forget pid hsafe
  | notify id now =>
    have hmine : ∀ i, (s.ledger.notify env.agent id now).mine i = s.ledger.mine i :=
      fun i => FileLedger.saved_mine _ i
    have hpending : ∀ i, (s.ledger.notify env.agent id now).pending i = s.ledger.pending i :=
      fun i => FileLedger.saved_pending _ i
    refine h.ledger (fun i hm => hmine i ▸ hm) fun i _ hk => ?_
    rw [hmine, hpending]
    exact hk.imp_right Or.inl
  | others id holder =>
    show FileInv env (s.others env id holder)
    unfold FileWorld.others
    split
    · exact h
    · next hne =>
      rw [not_or] at hne
      refine h.hold (fun hrel => ?_) hne.2
      unfold FileAct.safe at hsafe
      show (s.ranOut id || (Function.update s.cloud id holder id).any _) = true
      rw [Function.update_self]
      simpa [hrel, hne.1] using hsafe
  | expire id =>
    show FileInv env (s.expire env id)
    unfold FileWorld.expire
    split
    · refine ⟨fun id' hid' => ?_, fun id' hid' => ?_⟩
      · show (Function.update s.ranOut id true id' || (Function.update s.cloud id none id').any _) = true
        by_cases hid : id' = id
        · rw [hid, Function.update_self, Bool.true_or]
        · rw [Function.update_of_ne hid, Function.update_of_ne hid]
          exact h.backed id' hid'
      · have hcloud : Function.update s.cloud id none id' = some env.agent := hid'
        by_cases hid : id' = id
        · rw [hid, Function.update_self] at hcloud
          cases hcloud
        · rw [Function.update_of_ne hid] at hcloud
          exact h.kept id' hcloud
    · exact h

/-- 呼び出しが無ければ、帳簿と cloud は一致する。 -/
theorem agrees (h : FileInv env s) (hquiet : s.quiet) : LedgerAgrees env s := by
  have hclaiming : ∀ id, s.claiming id ≠ true := by
    intro id hid
    obtain ⟨pid, hpid⟩ := claiming_iff.mp hid
    rw [hquiet pid] at hpid
    cases hpid
  constructor
  · intro id e he hmine
    refine h.backed id (relies_iff.mpr (Or.inl ?_))
    unfold FileLedger.mine
    rw [he]
    exact hmine
  · intro id hid
    refine (h.kept id hid).imp_left fun hrel => ?_
    have hm := (relies_iff.mp hrel).resolve_right (hclaiming id)
    unfold FileLedger.mine at hm
    obtain ⟨e, he, -⟩ := (Option.any_eq_true _ _).mp hm
    rw [he]
    rfl

end FileInv

/-! ## 実行の全体 -/

/-- どの一歩も遅れて着く一歩の約束を守る実行では、呼び出しの無いとき帳簿と cloud は一致する。 -/
theorem ledger_agrees (env : FileLeaseEnv) {acts : List (FileAct n)}
    (hsafe : Guarded (fileStep env) (fun s a => a.safe env s = true) {} acts)
    (hquiet : (run (fileStep env) {} acts).quiet) : LedgerAgrees env (run (fileStep env) {} acts) := by
  refine FileInv.agrees ?_ hquiet
  refine run_invariant (I := FileInv env) (fun s a h ha => h.step a ha) ?_ hsafe
  constructor
  · intro id hid
    rcases FileWorld.relies_iff.mp hid with hm | hc
    · cases hm
    · obtain ⟨pid, hpid⟩ := FileWorld.claiming_iff.mp hc
      cases hpid
  · intro id hid
    cases hid

/-- 一人の worker と、番号の分かりやすい借り。 -/
def fileEnv₀ : FileLeaseEnv where
  agent := "w1"
  leaseId path := "file-" ++ path
  lifetime := 1800
  sameWorker _ := false

/-- 借り、task を終え、返し、次の task のために借り直す。 -/
theorem ledger_agrees_in_turn :
    LedgerAgrees fileEnv₀ (run (fileStep fileEnv₀) ({} : FileWorld 2)
      [.loadClaim 0 "a.rs" "cas-1" 0, .acquire 0 .claimed, .recordAnswer 0, .endTask "cas-1" 10,
        .loadReleasing 1 10, .releaseOne 1 true, .forget 1, .loadClaim 0 "a.rs" "cas-2" 11,
        .acquire 0 .claimed, .recordAnswer 0]) :=
  ledger_agrees fileEnv₀ (by decide) fun pid => by
    revert pid
    decide

/-- 写しから選んだ返しが、次の task のための借り直しの後に着く。 -/
theorem newer_claim_dropped :
    (run (fileStep fileEnv₀) ({} : FileWorld 2)
        [.loadClaim 0 "a.rs" "cas-1" 0, .acquire 0 .claimed, .recordAnswer 0, .endTask "cas-1" 10,
          .loadReleasing 1 10, .loadClaim 0 "a.rs" "cas-2" 11, .acquire 0 .claimed, .recordAnswer 0,
          .releaseOne 1 true, .forget 1]).quiet
      ∧ ¬ LedgerAgrees fileEnv₀ (run (fileStep fileEnv₀) ({} : FileWorld 2)
        [.loadClaim 0 "a.rs" "cas-1" 0, .acquire 0 .claimed, .recordAnswer 0, .endTask "cas-1" 10,
          .loadReleasing 1 10, .loadClaim 0 "a.rs" "cas-2" 11, .acquire 0 .claimed, .recordAnswer 0,
          .releaseOne 1 true, .forget 1]) := by
  constructor
  · intro pid
    revert pid
    decide
  · intro h
    exact absurd (h.mine "file-a.rs" ⟨"a.rs", true, 11, some "cas-2"⟩ (by decide) rfl)
      (by decide)

end Cassy
