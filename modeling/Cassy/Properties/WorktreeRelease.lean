import Cassy.Agent.Worktree

/-!
# worktree の lease を解放できるのは持ち主だけか

解放の `SELECT` と `UPDATE` の間に、期限の切れた lease を別の agent が取り直すと、`UPDATE` は
その agent の lease を解放してしまう（`crossedRelease_frees_other`）。間にそういう取得が無ければ、
解放が他の agent の有効な lease に触れることは無い。

不変条件は「持ち主を確かめ終えた解放があるなら、その worktree の有効な lease はその agent のもの
である」である。これを壊しうるのは取得だけなので、条件も取得の側につける。
-/

namespace Cassy

open Infra

namespace WorktreeShared

variable {s : WorktreeShared}

/-- lease の行。 -/
def lease? (s : WorktreeShared) (w : String) : Option WorktreeLease :=
  s.db.worktreeLeases.find? w

/-- 取得が行を自分のものにするか。有効な lease があれば、延長になるか断られる。 -/
def takesOver (s : WorktreeShared) (w : String) (now : Time) : Bool :=
  ¬ (s.lease? w).any (Db.worktreeLeaseValid now)

/-- 途中の解放が、そのとき有効な lease を自分のものと確かめている。 -/
def Inv (s : WorktreeShared) : Prop :=
  ∀ p w a, s.pc p = .update w a → ∀ l, s.lease? w = some l → l.status = .active → l.agentId = a

/-- 行を自分のものにする取得は、別の agent の途中の解放と重ならない。 -/
def Undisturbed (s : WorktreeShared) : WorktreeAct → Prop
  | .start _ (.tryClaim w agentId _ now) =>
    s.takesOver w now = true → ∀ q a, s.pc q = .update w a → a = agentId
  | _ => True

/-- その一歩を進めている解放の呼び出し手。 -/
def releaser (s : WorktreeShared) : WorktreeAct → Option String
  | .start _ (.release _ agentId) => some agentId
  | .next p =>
    match s.pc p with
    | .idle => none
    | .update _ agentId => some agentId
  | _ => none

/-- 持ち主を替えず、終わった lease を有効にしない書き込み。 -/
def Keeps (db db' : Db) : Prop :=
  ∀ w l', db'.worktreeLeases.find? w = some l' → l'.status = .active →
    ∃ l, db.worktreeLeases.find? w = some l ∧ l.status = .active ∧ l'.agentId = l.agentId

theorem keeps_refl (db : Db) : Keeps db db := fun _ l' h hs => ⟨l', h, hs, rfl⟩

/-- 持ち主を書き換えない `UPDATE`。 -/
theorem keeps_update {db : Db} {p : WorktreeLease → Bool} {f : WorktreeLease → WorktreeLease}
    {hf : ∀ l, (f l).worktreeId = l.worktreeId} (ha : ∀ l, (f l).agentId = l.agentId)
    (hs : ∀ l, (f l).status = .active → l.status = .active) :
    Keeps db { db with worktreeLeases := db.worktreeLeases.update p f hf } := by
  intro w l' hl' hact
  simp only [Table.find?_update] at hl'
  obtain ⟨l, hl, rfl⟩ := Option.map_eq_some_iff.mp hl'
  refine ⟨l, hl, ?_, ?_⟩
  · split at hact
    · exact hs l hact
    · exact hact
  · split
    · exact ha l
    · rfl

theorem Inv.keeps {db' : Db} (h : s.Inv) (hk : Keeps s.db db') : Inv { s with db := db' } := by
  intro p w a hp l' hl' hs'
  obtain ⟨l, hl, hs, ha⟩ := hk w l' hl' hs'
  rw [ha]
  exact h p w a hp l hl hs

/-- 進み具合を戻しても不変条件は保たれる。 -/
theorem Inv.setIdle (h : s.Inv) (p : Nat) : (s.setPc p .idle).Inv := by
  intro q w a hq
  simp only [setPc] at hq
  split at hq
  · exact absurd hq (by simp)
  · exact h q w a hq

/-- 取得の後の行。 -/
theorem tryClaimWorktree_cases {db db' : Db} {w agentId : String} {durationSecs : Int} {now : Time}
    {r : WorktreeClaimResult} (h : db.tryClaimWorktree w agentId durationSecs now = .ok (r, db')) :
    Keeps db db' ∨ (¬ (db.worktreeLeases.find? w).any (Db.worktreeLeaseValid now)
      ∧ ∀ w' l', db'.worktreeLeases.find? w' = some l' →
        if w' = w then l'.agentId = agentId else db.worktreeLeases.find? w' = some l') := by
  unfold Db.tryClaimWorktree at h
  simp only at h
  split at h
  · next held hheld =>
    split at h
    · split at h
      · cases h
        exact .inl (keeps_update (fun _ => rfl) fun _ hs => hs)
      · cases h
        exact .inl (keeps_refl db)
    · next hvalid =>
      simp only [bind_eq_ok, pure_eq_ok, Prod.mk.injEq] at h
      obtain ⟨_, -, -, rfl⟩ := h
      refine .inr ⟨by simpa [hheld] using hvalid, fun w' l' hl' => ?_⟩
      simp only [Table.find?_update] at hl'
      obtain ⟨l, hl, rfl⟩ := Option.map_eq_some_iff.mp hl'
      have hk := Table.key_of_find? hl
      split
      · next hw => simp [hk, hw, Db.claimedWorktreeLease]
      · next hw => simp [hk, hw, hl]
  · next hnone =>
    simp only [bind_eq_ok, pure_eq_ok, Prod.mk.injEq] at h
    obtain ⟨_, -, -, rfl⟩ := h
    refine .inr ⟨by simp [hnone], fun w' l' hl' => ?_⟩
    have hins := Table.find?_insertOrIgnore.symm.trans hl'
    split
    · next hw =>
      rw [hw, hnone, Option.none_or] at hins
      simp only [Db.claimedWorktreeLease, if_true, Option.some.injEq] at hins
      rw [← hins]
    · next hw =>
      rw [if_neg fun he => hw he.symm, Option.or_none] at hins
      exact hins

theorem inv_tryClaim {w agentId : String} {durationSecs : Int} {now : Time} (hi : s.Inv)
    (hg : s.takesOver w now = true → ∀ q a, s.pc q = .update w a → a = agentId) :
    Inv { s with db := (commit s.db (s.db.tryClaimWorktree w agentId durationSecs now)).2 } := by
  rcases commit_snd_cases s.db (s.db.tryClaimWorktree w agentId durationSecs now)
    with heq | ⟨r, db', hb, heq⟩
  · rw [heq]
    exact hi
  · rw [heq]
    rcases tryClaimWorktree_cases hb with hk | ⟨hfree, hrows⟩
    · exact hi.keeps hk
    · intro q w' a hq l' hl' hs'
      have hrow := hrows w' l' hl'
      split at hrow
      · next hw =>
        rw [hw] at hq
        rw [hrow]
        exact (hg (by simpa [takesOver, lease?] using hfree) q a hq).symm
      · exact hi q w' a hq l' hrow hs'

theorem keeps_renew (db : Db) (w agentId : String) (durationSecs : Int) (now : Time) :
    Keeps db (commit db (db.renewWorktreeLease w agentId durationSecs now)).2 := by
  unfold Db.renewWorktreeLease
  simp only
  split
  · exact keeps_refl db
  · exact keeps_update (fun _ => rfl) fun _ hs => hs

/-- 確かめた持ち主は、有効な lease の持ち主である。 -/
theorem checkWorktreeOwner_ok {db : Db} {w agentId : String} {u : Unit}
    (h : db.checkWorktreeOwner w agentId = .ok u) {l : WorktreeLease}
    (hl : db.worktreeLeases.find? w = some l) (hs : l.status = .active) : l.agentId = agentId := by
  unfold Db.checkWorktreeOwner at h
  rw [hl, Option.filter_some, if_pos (by simpa using hs)] at h
  simpa using h

/-- 呼び出しの最初の文で、不変条件が保たれる。 -/
theorem inv_start {p : Nat} {call : WorktreeCall} (hi : s.Inv)
    (hg : s.Undisturbed (.start p call)) : (s.start p call).2.Inv := by
  cases call with
  | tryClaim w agentId durationSecs now => exact inv_tryClaim hi hg
  | renew w agentId durationSecs now => exact hi.keeps (keeps_renew s.db w agentId durationSecs now)
  | release w agentId =>
    cases hc : s.db.checkWorktreeOwner w agentId with
    | error e =>
      simp only [start, hc]
      exact hi
    | ok u =>
      simp only [start, hc]
      intro q w' a hq l hl hs
      simp only [setPc] at hq
      split at hq
      · obtain ⟨rfl, rfl⟩ := ReleasePc.update.inj hq
        exact checkWorktreeOwner_ok hc hl hs
      · exact hi q w' a hq l hl hs
  | reclaimExpired now =>
    exact hi.keeps (keeps_update (fun _ => rfl) fun _ hs => absurd hs (by simp))

/-- 解放の `UPDATE` は、有効な lease を増やさない。 -/
theorem keeps_release (db : Db) (w : String) : Keeps db (db.releaseWorktree w) :=
  keeps_update (fun _ => rfl) fun _ hs => absurd hs (by simp)

/-- 一歩で不変条件が保たれる。 -/
theorem inv_step (s : WorktreeShared) (act : WorktreeAct) (hi : s.Inv) (hg : s.Undisturbed act) :
    (worktreeStep s act).2.Inv := by
  cases act with
  | start p call =>
    simp only [worktreeStep]
    split
    · exact inv_start hi hg
    · exact hi
  | next p =>
    simp only [worktreeStep, next]
    cases s.pc p with
    | idle => exact hi
    | update w a => exact (hi.keeps (keeps_release s.db w)).setIdle p
  | abandon p => exact hi.setIdle p

/-- 不変条件の下で、解放の一歩は他の agent の有効な lease を変えない。 -/
theorem release_frame {act : WorktreeAct} {agentId : String} (hi : s.Inv)
    (hr : s.releaser act = some agentId) {w : String} {l : WorktreeLease}
    (hl : s.lease? w = some l) (hs : l.status = .active) (hne : l.agentId ≠ agentId) :
    (worktreeStep s act).2.lease? w = some l := by
  cases act with
  | abandon p => simp [releaser] at hr
  | start p call =>
    cases call with
    | tryClaim | renew | reclaimExpired => simp [releaser] at hr
    | release w' a =>
      simp only [worktreeStep]
      split
      · simp only [start]
        cases s.db.checkWorktreeOwner w' a <;> exact hl
      · exact hl
  | next p =>
    cases hp : s.pc p with
    | idle => simp [releaser, hp] at hr
    | update w' a =>
      simp only [releaser, hp, Option.some.injEq] at hr
      -- 解放する行は呼び出し手のものなので、`w` の行ではない
      have hw : w ≠ w' := by
        rintro rfl
        exact hne ((hi p w a hp l hl hs).trans hr)
      simp only [worktreeStep, next, hp, setPc, lease?, Db.releaseWorktree, Table.find?_update]
      have hl' : s.db.worktreeLeases.find? w = some l := hl
      have hk : l.worktreeId = w := Table.key_of_find? hl'
      simp [hl', hk, hw]

end WorktreeShared

/-! ## 仕様 -/

open WorktreeShared

/--
解放の仕様。

どの connection も何もしていない状態から始まる実行で、行を自分のものにする取得がどれも、同じ
worktree についての別の agent の途中の解放と重ならないなら、解放の呼び出しのどの文も、他の agent
の有効な lease を変えない。
-/
theorem worktree_release_only_by_holder (db : Db) (acts : List WorktreeAct)
    (hg : Guarded worktreeStep Undisturbed { db } acts) :
    ∀ pre act, pre ++ [act] <+: acts →
      let s := run worktreeStep { db } pre
      ∀ agentId, s.releaser act = some agentId →
        ∀ w l, s.lease? w = some l → l.status = .active → l.agentId ≠ agentId →
          (run worktreeStep { db } (pre ++ [act])).lease? w = some l := by
  rintro pre act ⟨post, rfl⟩ s agentId hr w l hl hs hne
  have hpre : Guarded worktreeStep Undisturbed { db } pre := by
    rw [List.append_assoc, guarded_append] at hg
    exact hg.1
  have hi : s.Inv := run_invariant inv_step (fun _ _ _ h => absurd h (by simp)) hpre
  rw [run_append]
  exact release_frame hi hr hl hs hne

/-- `b` の有効な lease。 -/
def otherLease : WorktreeLease where
  worktreeId := "v"
  agentId := "b"
  status := .active
  acquiredAt := 0
  expiresAt := 900
  renewedAt := 0
  renewalCount := 0

/-- `a` の期限の切れた lease と、`b` の有効な lease。 -/
def staleWorktree : Db where
  agents :=
    { rows :=
        [{ id := "a", name := "swift", registeredAt := 0, lastHeartbeat := 0 },
          { id := "b", name := "calm", registeredAt := 0, lastHeartbeat := 0 }]
      nodup := by decide }
  worktreeLeases :=
    { rows :=
        [{ worktreeId := "w", agentId := "a", status := .active, acquiredAt := 0, expiresAt := 10
           renewedAt := 0, renewalCount := 0 },
          otherLease]
      nodup := by decide }

/-- 解放が終わってから、別の agent が取る。 -/
def serialRelease : List WorktreeAct :=
  [.start 0 (.release "w" "a"), .next 0, .start 1 (.tryClaim "w" "b" 600 20)]

theorem serialRelease_undisturbed :
    Guarded worktreeStep Undisturbed { db := staleWorktree } serialRelease := by
  refine ⟨trivial, trivial, ?_, trivial⟩
  intro _ q a hq
  have hcheck : staleWorktree.checkWorktreeOwner "w" "a" = .ok () := rfl
  -- 取得のときには、どの connection も止まっている
  have hidle : (run worktreeStep { db := staleWorktree } (serialRelease.take 2)).pc q = .idle := by
    by_cases h : q = 0 <;>
      simp [serialRelease, worktreeStep, WorktreeShared.start, WorktreeShared.next,
        WorktreeShared.setPc, hcheck, h]
  exact absurd (hidle.symm.trans hq) (by simp)

/-- `a` が `w` を解放しても、`b` の `v` の lease は変わらない。 -/
theorem worktree_release_only_by_holder_serial :
    Guarded worktreeStep Undisturbed { db := staleWorktree } serialRelease
      ∧ (run worktreeStep { db := staleWorktree } (serialRelease.take 2)).lease? "v"
        = some otherLease :=
  ⟨serialRelease_undisturbed,
    worktree_release_only_by_holder staleWorktree serialRelease serialRelease_undisturbed
      (serialRelease.take 1) (.next 0) ⟨[.start 1 (.tryClaim "w" "b" 600 20)], rfl⟩ "a" rfl "v"
      otherLease rfl rfl (by decide)⟩

/-- 確かめた後に、期限の切れた lease を別の agent が取る。 -/
def crossedRelease : List WorktreeAct :=
  [.start 0 (.release "w" "a"), .start 1 (.tryClaim "w" "b" 600 20), .next 0]

/-- `a` の解放が、`b` の有効な lease を解放する。 -/
theorem crossedRelease_frees_other :
    let s := run worktreeStep { db := staleWorktree } (crossedRelease.take 2)
    s.releaser (.next 0) = some "a"
      ∧ (s.lease? "w").map (fun l => (l.agentId, l.status, l.expiresAt))
        = some ("b", .active, seconds 600 + 20)
      ∧ ((run worktreeStep { db := staleWorktree } crossedRelease).lease? "w").map
        (fun l => (l.agentId, l.status)) = some ("b", .released) := by
  decide

end Cassy
