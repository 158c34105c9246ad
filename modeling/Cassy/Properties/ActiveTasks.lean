import Cassy.Properties.LeaseOps

/-!
# `active_tasks` の帳尻

`agents.active_tasks` は、その agent が握る `active` な lease の数を別の表に写したものである。
操作のたびに手で足し引きされるので、一つでも足し引きを忘れると以後ずっとずれる。

忘れているのは二箇所である。

* `mark_stale` は lease を `revoked` に移すが、`active_tasks` を減らさない
* `try_claim` は、期限が切れたまま `active` で残っている行を上書きするとき、
  前の持ち主の `active_tasks` を減らさない

どちらも、同じことをする兄弟（`graceful_shutdown`、`reclaim_expired_leases`）は減らしている。
この二箇所を踏まない実行では帳尻が合い続ける（`balanced_run`）。
-/

namespace Cassy

open Infra

namespace Db

/-- agent が握る `active` な lease の数。 -/
def heldCount (db : Db) (id : String) : Nat := db.taskLeases.count (heldBy id)

/-- `agents.active_tasks` を引く。 -/
def activeTasks? (db : Db) (id : String) : Option Nat :=
  (db.agents.find? id).map Agent.activeTasks

end Db

/-- すべての agent の `active_tasks` が、握っている lease の数に等しい。 -/
def Balanced (db : Db) : Prop := ∀ a ∈ db.agents.rows, a.activeTasks = db.heldCount a.id

instance (db : Db) : Decidable (Balanced db) :=
  inferInstanceAs (Decidable (∀ a ∈ db.agents.rows, a.activeTasks = db.heldCount a.id))

section

variable {db db' : Db}

theorem balanced_iff : Balanced db ↔ ∀ id n, db.activeTasks? id = some n → n = db.heldCount id := by
  constructor
  · intro h id n hn
    obtain ⟨a, ha, rfl⟩ := Option.map_eq_some_iff.mp hn
    obtain ⟨hmem, rfl⟩ := Table.find?_eq_some_iff.mp ha
    exact h a hmem
  · intro h a ha
    exact h a.id a.activeTasks (by rw [Db.activeTasks?, Table.find?_of_mem ha, Option.map_some])

/--
帳尻の保存。

`active_tasks` が `g` で写り、握っている lease の数も同じ `g` で写るなら、帳尻は合ったままである。
操作ごとの証明は `g` を出すだけになる。
-/
theorem Balanced.of_change (h : Balanced db) {g : String → Nat → Nat}
    (ha : ∀ id, db'.activeTasks? id = (db.activeTasks? id).map (g id))
    (hc : ∀ id, (db.agents.find? id).isSome → db'.heldCount id = g id (db.heldCount id)) :
    Balanced db' := by
  refine balanced_iff.mpr fun id n hn => ?_
  rw [ha, Option.map_eq_some_iff] at hn
  obtain ⟨m, hm, rfl⟩ := hn
  have hsome : (db.agents.find? id).isSome := by
    obtain ⟨a, hf, -⟩ := Option.map_eq_some_iff.mp hm
    simp [hf]
  rw [hc id hsome, balanced_iff.mp h id m hm]

/-! ## `active_tasks` の側 -/

theorem activeTasks?_of_agents (h : db'.agents = db.agents) (id : String) :
    db'.activeTasks? id = db.activeTasks? id := by
  rw [Db.activeTasks?, Db.activeTasks?, h]

/-- 一つの agent の `active_tasks` を書き換える文。 -/
theorem activeTasks?_updateAgent {i : String} {f : Agent → Agent} {hf : ∀ a, (f a).id = a.id}
    {g : Nat → Nat} (hg : ∀ a, (f a).activeTasks = g a.activeTasks) (id : String) :
    (db.updateAgent i f hf).activeTasks? id
      = (db.activeTasks? id).map fun n => if id = i then g n else n := by
  unfold Db.activeTasks? Db.updateAgent
  rw [Table.find?_update, Option.map_map, Option.map_map]
  cases h : db.agents.find? id with
  | none => rfl
  | some a =>
    have hk := Table.key_of_find? h
    subst hk
    simp only [Option.map_some, Function.comp_apply, decide_eq_true_eq, Option.some.injEq]
    split
    · exact hg a
    · rfl

theorem activeTasks?_decrement (i : String) (k : Nat) (id : String) :
    (db.decrementActiveTasks i k).activeTasks? id
      = (db.activeTasks? id).map fun n => if id = i then n - k else n :=
  activeTasks?_updateAgent (fun _ => rfl) id

theorem activeTasks?_increment (i : String) (id : String) :
    (db.incrementActiveTasks i).activeTasks? id
      = (db.activeTasks? id).map fun n => if id = i then n + 1 else n :=
  activeTasks?_updateAgent (fun _ => rfl) id

/-- agent ごとの数だけ順に減らす文の列。同じ agent が何度現れてもよい。 -/
theorem activeTasks?_foldl_decrement (id : String) : ∀ (counts : List (String × Nat)) (db : Db),
    (counts.foldl (fun db c => db.decrementActiveTasks c.1 c.2) db).activeTasks? id
      = (db.activeTasks? id).map fun n =>
        n - ((counts.filter fun c => c.1 = id).map Prod.snd).sum
  | [], db => by simp
  | c :: counts, db => by
    rw [List.foldl_cons, activeTasks?_foldl_decrement id counts, activeTasks?_decrement,
      Option.map_map]
    refine congrArg (Option.map · _) (funext fun n => ?_)
    simp only [Function.comp_apply, List.filter_cons, decide_eq_true_eq]
    by_cases hc : c.1 = id
    · rw [if_pos hc.symm, if_pos hc, List.map_cons, List.sum_cons]
      omega
    · rw [if_neg (Ne.symm hc), if_neg hc]

/-- 集計の、一つの agent の分。 -/
theorem agentCounts_sum (expired : List TaskLease) (id : String) :
    (((Db.agentCounts expired).filter fun c => c.1 = id).map Prod.snd).sum
      = expired.countP fun l => l.agentId = id := by
  have hnd : ((expired.map TaskLease.agentId).dedup).Nodup := List.nodup_dedup _
  rw [Db.agentCounts, List.filter_map, List.map_map]
  by_cases hmem : id ∈ expired.map TaskLease.agentId
  · have hf : (expired.map TaskLease.agentId).dedup.filter (fun i => i = id) = [id] := by
      rw [List.filter_eq, List.count_eq_one_of_mem hnd (List.mem_dedup.mpr hmem)]
      rfl
    have hcomp : ((fun c : String × Nat => decide (c.1 = id)) ∘ fun i : String =>
        (i, expired.countP fun l => l.agentId = i)) = fun i => decide (i = id) := rfl
    rw [hcomp, hf]
    simp
  · have hf : (expired.map TaskLease.agentId).dedup.filter (fun i => i = id) = [] := by
      rw [List.filter_eq_nil_iff]
      intro i hi he
      rw [decide_eq_true_eq] at he
      exact hmem (he ▸ List.mem_dedup.mp hi)
    have hcomp : ((fun c : String × Nat => decide (c.1 = id)) ∘ fun i : String =>
        (i, expired.countP fun l => l.agentId = i)) = fun i => decide (i = id) := rfl
    rw [hcomp, hf, List.map_nil, List.sum_nil, eq_comm, List.countP_eq_zero]
    intro l hl he
    rw [decide_eq_true_eq] at he
    exact hmem (List.mem_map.mpr ⟨l, hl, he⟩)

/-! ## lease の側 -/

theorem heldBy_iff {id : String} {l : TaskLease} :
    Db.heldBy id l = true ↔ l.agentId = id ∧ l.status = .active := by simp [Db.heldBy]

theorem heldCount_of_taskLeases (h : db'.taskLeases = db.taskLeases) (id : String) :
    db'.heldCount id = db.heldCount id := by
  rw [Db.heldCount, Db.heldCount, h]

/-- 握られている一行を `active` から外す。 -/
theorem heldCount_setLeaseStatus_key {t : String} {l : TaskLease} {status : LeaseStatus}
    (hl : db.taskLeases.find? t = some l) (ha : l.status = .active) (hs : status ≠ .active)
    (id : String) :
    (db.setLeaseStatus (fun l => l.taskId = t) status).heldCount id
      = if id = l.agentId then db.heldCount id - 1 else db.heldCount id := by
  have hcount : (db.setLeaseStatus (fun l => l.taskId = t) status).heldCount id
      + (if Db.heldBy id l then 1 else 0)
      = db.heldCount id + (if Db.heldBy id { l with status } then 1 else 0) :=
    Table.count_update_key (t := db.taskLeases) (q := Db.heldBy id)
      (f := fun l : TaskLease => { l with status }) (fun _ => rfl) hl
  have hq : Db.heldBy id { l with status } = false := by simp [Db.heldBy, hs]
  have hq' : Db.heldBy id l = decide (id = l.agentId) := by simp [Db.heldBy, ha, eq_comm]
  rw [hq, hq'] at hcount
  simp only [decide_eq_true_eq, Bool.false_eq_true, if_false, Nat.add_zero] at hcount
  split
  · next hid =>
    rw [if_pos hid] at hcount
    omega
  · next hid =>
    rw [if_neg hid] at hcount
    omega

/-- 一つの agent の握る行をすべて `active` から外す。 -/
theorem heldCount_setLeaseStatus_heldBy {i : String} {status : LeaseStatus}
    (hs : status ≠ .active) (id : String) :
    (db.setLeaseStatus (Db.heldBy i) status).heldCount id
      = if id = i then 0 else db.heldCount id := by
  have hcount : (db.setLeaseStatus (Db.heldBy i) status).heldCount id
      + db.taskLeases.count (fun l => Db.heldBy id l && Db.heldBy i l) = db.heldCount id :=
    Table.count_update_of_false (t := db.taskLeases) (p := Db.heldBy i) (q := Db.heldBy id)
      (f := fun l : TaskLease => { l with status }) (fun _ => rfl)
      fun l _ _ => by simp [Db.heldBy, hs]
  split
  · next hid =>
    have hall : db.taskLeases.count (fun l => Db.heldBy id l && Db.heldBy i l)
        = db.heldCount id := by simp [hid, Db.heldCount]
    omega
  · next hid =>
    have hzero : db.taskLeases.count (fun l => Db.heldBy id l && Db.heldBy i l) = 0 := by
      refine Table.count_eq_zero_iff.mpr fun l _ => ?_
      rw [Bool.and_eq_false_iff]
      by_cases hl : l.agentId = id
      · exact Or.inr (by simp [Db.heldBy, hl, hid])
      · exact Or.inl (by simp [Db.heldBy, hl])
    omega

/-- 期限切れの行を `expired` に移す。 -/
theorem heldCount_expireLeases {now : Time} (id : String) :
    (db.expireLeases now).heldCount id
      = db.heldCount id - (db.expiredLeases now).countP fun l => l.agentId = id := by
  have hcount : (db.expireLeases now).heldCount id
      + db.taskLeases.count (fun l => Db.heldBy id l && Db.isExpired now l) = db.heldCount id :=
    Table.count_update_of_false (t := db.taskLeases) (p := Db.isExpired now) (q := Db.heldBy id)
      (f := fun l : TaskLease => { l with status := .expired }) (fun _ => rfl)
      fun l _ _ => by simp [Db.heldBy]
  have heq : db.taskLeases.count (fun l => Db.heldBy id l && Db.isExpired now l)
      = (db.expiredLeases now).countP fun l => l.agentId = id := by
    unfold Table.count Db.expiredLeases
    rw [List.countP_filter]
    refine List.countP_congr fun l _ => ?_
    simp only [Db.heldBy, Db.isExpired, Bool.and_eq_true, decide_eq_true_eq]
    tauto
  omega

/-! ## 一歩 -/

/-- 帳尻を問題にする操作。 -/
def CounterOp : AgentOp → Bool
  | .tryClaim .. | .releaseLease .. | .releaseLeaseForTask .. | .releaseLeaseIfOwnerEpoch ..
  | .reclaimExpiredLeases .. | .markStale .. | .gracefulShutdown .. => true
  | .register .. | .renewLease .. | .heartbeat .. | .unregister .. | .deleteTask .. => false

/--
足し引きを忘れる箇所を踏まない操作。

`mark_stale` は有効な lease を持たない agent にだけ、登録された agent の `try_claim` は
期限切れのまま `active` で残る行の無い task にだけ使う。
-/
def CounterSafe (db : Db) : AgentOp → Prop
  | .tryClaim taskId agentId _ _ now =>
    db.agents.find? agentId = none
      ∨ (db.taskLeases.find? taskId).all fun l => ¬ (l.status = .active ∧ l.expiresAt ≤ now)
  | .markStale id => ∀ l ∈ db.taskLeases.rows, Db.heldBy id l = false
  | _ => True

instance (db : Db) (op : AgentOp) : Decidable (CounterSafe db op) :=
  match op with
  | .tryClaim taskId agentId _ _ now => inferInstanceAs (Decidable
    (db.agents.find? agentId = none ∨ (db.taskLeases.find? taskId).all
      (fun l => ¬ (l.status = .active ∧ l.expiresAt ≤ now)) = true))
  | .markStale id => inferInstanceAs (Decidable
    (∀ l ∈ db.taskLeases.rows, Db.heldBy id l = false))
  | .register .. | .releaseLease .. | .releaseLeaseForTask .. | .releaseLeaseIfOwnerEpoch ..
  | .renewLease .. | .heartbeat .. | .reclaimExpiredLeases .. | .unregister ..
  | .gracefulShutdown .. | .deleteTask .. => .isTrue trivial

/-- 一行の解放。三つの解放操作に共通する。 -/
theorem Balanced.release (h : Balanced db) {t : String} {l : TaskLease} {reason : Option String}
    (hl : db.taskLeases.find? t = some l) (ha : l.status = .active) :
    Balanced ((db.setLeaseStatus (fun l => l.taskId = t) .released).releaseRow t l.agentId
      l.epoch reason) :=
  h.of_change (g := fun id n => if id = l.agentId then n - 1 else n)
    (fun id => (activeTasks?_of_agents (Db.logLeaseEvent_agents ..) id).trans
      (activeTasks?_decrement l.agentId 1 id))
    fun id _ => (heldCount_of_taskLeases (Db.releaseRow_taskLeases ..) id).trans
      (heldCount_setLeaseStatus_key hl ha (by decide) id)

theorem activeLease?_eq_some {t : String} {l : TaskLease} (h : db.activeLease? t = some l) :
    db.taskLeases.find? t = some l ∧ l.status = .active := by
  simpa [Db.activeLease?, Option.filter_eq_some_iff] using h

/-- 取り直した lease は、前の持ち主の一つ分を新しい持ち主に移す。 -/
theorem heldCount_reclaimed {held : TaskLease} {taskId agentId : String} {durationSecs : Int}
    {reason : Option String} {now : Time} (hf : db.taskLeases.find? taskId = some held)
    (id : String) :
    (db.reclaimed held taskId agentId durationSecs reason now).heldCount id
      + (if Db.heldBy id held then 1 else 0) = db.heldCount id + if id = agentId then 1 else 0 := by
  have hc : (db.reclaimed held taskId agentId durationSecs reason now).heldCount id
      + (if Db.heldBy id held then 1 else 0) = db.heldCount id
        + (if Db.heldBy id { Db.claimedLease taskId agentId durationSecs reason now
            (held.epoch + 1) with taskId := held.taskId } then 1 else 0) :=
    Table.count_update_key (t := db.taskLeases) (q := Db.heldBy id)
      (f := fun l : TaskLease =>
        { Db.claimedLease taskId agentId durationSecs reason now (held.epoch + 1)
          with taskId := l.taskId }) (fun _ => rfl) hf
  have hq : Db.heldBy id { Db.claimedLease taskId agentId durationSecs reason now
      (held.epoch + 1) with taskId := held.taskId } = decide (id = agentId) := by
    simp [Db.heldBy, Db.claimedLease, eq_comm]
  rw [hq] at hc
  simpa using hc

/-- 親から子への横取り、または空いた行の取り直し。 -/
theorem Balanced.reclaimed (h : Balanced db) {held : TaskLease} {taskId agentId : String}
    {durationSecs : Int} {reason : Option String} {now : Time}
    (hf : db.taskLeases.find? taskId = some held)
    (htake : Db.leaseValid now held = true → db.canTakeover agentId held.agentId = true)
    (hsafe : ¬ (held.status = .active ∧ held.expiresAt ≤ now)) :
    Balanced (db.reclaimed held taskId agentId durationSecs reason now) := by
  have hcount : ∀ id, (db.reclaimed held taskId agentId durationSecs reason now).heldCount id
      + (if Db.heldBy id held then 1 else 0) = db.heldCount id + if id = agentId then 1 else 0 :=
    heldCount_reclaimed hf
  by_cases hv : Db.leaseValid now held = true
  · -- 有効な lease の横取り。親の分を減らし、子の分を増やす
    have hact : held.status = .active := by
      simp only [Db.leaseValid, decide_eq_true_eq] at hv
      exact hv.1
    have hne : held.agentId ≠ agentId := by
      have ht := htake hv
      simp only [Db.canTakeover, decide_eq_true_eq] at ht
      exact ht.1
    refine h.of_change (g := fun id n =>
      (if id = agentId then (if id = held.agentId then n - 1 else n) + 1
        else if id = held.agentId then n - 1 else n)) (fun id => ?_) fun id _ => ?_
    · have hagents : (db.reclaimed held taskId agentId durationSecs reason now).agents
          = ((db.decrementActiveTasks held.agentId 1).incrementActiveTasks agentId).agents := by
        rw [Db.reclaimed, if_pos hv]
        rfl
      rw [activeTasks?_of_agents hagents, activeTasks?_increment, activeTasks?_decrement,
        Option.map_map]
      rfl
    · have hc := hcount id
      by_cases hid : id = held.agentId
      · have hb : Db.heldBy id held = true := heldBy_iff.mpr ⟨hid.symm, hact⟩
        have hida : id ≠ agentId := by rw [hid]; exact hne
        rw [hb, if_pos rfl, if_neg hida] at hc
        rw [if_neg hida, if_pos hid]
        omega
      · have hb : Db.heldBy id held = false := by simp [Db.heldBy, Ne.symm hid]
        rw [hb] at hc
        simp only [Bool.false_eq_true, if_false, Nat.add_zero] at hc
        rw [if_neg hid, hc]
        split <;> rfl
  · -- 空いた行の取り直し。前の持ち主は既に数えられていない
    have hact : held.status ≠ .active := by
      intro ha
      refine hsafe ⟨ha, not_lt.mp fun hlt => hv ?_⟩
      simp [Db.leaseValid, ha, hlt]
    refine h.of_change (g := fun id n => if id = agentId then n + 1 else n) (fun id => ?_)
      fun id _ => ?_
    · have hagents : (db.reclaimed held taskId agentId durationSecs reason now).agents
          = (db.incrementActiveTasks agentId).agents := by
        rw [Db.reclaimed, if_neg hv]
        rfl
      rw [activeTasks?_of_agents hagents, activeTasks?_increment]
    · have hc := hcount id
      have hb : Db.heldBy id held = false := by simp [Db.heldBy, hact]
      rw [hb] at hc
      simp only [Bool.false_eq_true, if_false, Nat.add_zero] at hc
      rw [hc]
      split <;> rfl

theorem Balanced.tryClaim (h : Balanced db) {taskId agentId : String} {durationSecs : Int}
    {reason : Option String} {now : Time} {r : ClaimResult}
    (hsafe : CounterSafe db (.tryClaim taskId agentId durationSecs reason now))
    (hb : db.tryClaim taskId agentId durationSecs reason now = .ok (r, db')) : Balanced db' := by
  rcases Db.tryClaim_ok_cases hb with ⟨_, _, _, _, _, rfl⟩ | ⟨held, hf, htake, hsome, _, rfl⟩ |
    ⟨leases, hf, _, hins, _, rfl⟩
  · exact h
  · refine h.reclaimed hf htake ?_
    rcases hsafe with hn | hsafe
    · simp [hn] at hsome
    · simp only [hf, Option.all_some, decide_eq_true_eq] at hsafe
      exact hsafe
  · refine h.of_change (g := fun id n => if id = agentId then n + 1 else n) (fun id => ?_)
      fun id _ => ?_
    · rw [← activeTasks?_increment]
      rfl
    · have hc : leases.count (Db.heldBy id) = db.heldCount id
          + (if Db.heldBy id (Db.claimedLease taskId agentId durationSecs reason now 1)
            then 1 else 0) := Table.count_insert? hins
      have hq : Db.heldBy id (Db.claimedLease taskId agentId durationSecs reason now 1)
          = decide (id = agentId) := by simp [Db.heldBy, Db.claimedLease, eq_comm]
      rw [hq] at hc
      refine (heldCount_of_taskLeases (Db.recordClaim_taskLeases _) id).trans (hc.trans ?_)
      simp only [decide_eq_true_eq]
      split <;> rfl

/-- 世代を見せた解放は、一行の解放である。 -/
theorem ownedAt_update_eq {t : String} {l : TaskLease} (hl : db.taskLeases.find? t = some l)
    (hact : l.status = .active) (status : LeaseStatus) :
    db.setLeaseStatus (Db.ownedAt t l.agentId l.epoch) status
      = db.setLeaseStatus (fun l => l.taskId = t) status := by
  unfold Db.setLeaseStatus
  rw [Table.update_congr fun l' hl' => ?_]
  rw [Db.ownedAt, decide_eq_decide]
  constructor
  · exact fun ho => ho.1
  · intro ht
    rw [Table.find?_eq_some_iff.mpr ⟨hl', ht⟩] at hl
    obtain rfl := Option.some.inj hl
    exact ⟨ht, rfl, hact, rfl⟩

/-- 期限切れの回収。読んだ数だけ減らすので、間に何も挟まらなければ帳尻は合う。 -/
theorem Balanced.reclaim (h : Balanced db) {now : Time} {n : Nat}
    (hb : db.reclaimExpiredLeases now = .ok (n, db')) : Balanced db' := by
  simp only [Db.reclaimExpiredLeases, Except.ok.injEq, Prod.mk.injEq] at hb
  obtain ⟨-, rfl⟩ := hb
  refine h.of_change
    (g := fun id n => n - (db.expiredLeases now).countP fun l => l.agentId = id)
    (fun id => ?_) fun id _ => ?_
  · rw [activeTasks?_of_agents (Db.foldl_logLeaseEvent_agents ..), activeTasks?_foldl_decrement,
      agentCounts_sum]
    rfl
  · rw [heldCount_of_taskLeases (Db.foldl_logLeaseEvent_taskLeases ..)]
    refine (heldCount_of_taskLeases ?_ id).trans (heldCount_expireLeases id)
    exact foldl_fixed (f := fun db (c : String × Nat) => db.decrementActiveTasks c.1 c.2)
      (p := Db.taskLeases) (fun _ _ => rfl) _ _

/-- 有効な lease を持たない agent の `mark_stale`。 -/
theorem Balanced.markStale (h : Balanced db) {id : String} {u : Unit}
    (hsafe : CounterSafe db (.markStale id)) (hb : db.markStale id = .ok (u, db')) :
    Balanced db' := by
  simp only [Db.markStale, Except.ok.injEq, Prod.mk.injEq] at hb
  obtain ⟨-, rfl⟩ := hb
  refine h.of_change (g := fun _ n => n) (fun i => ?_) fun i _ => ?_
  · rw [activeTasks?_of_agents (Db.retireLeases_agents ..)]
    unfold Db.activeTasks?
    rw [Table.find?_update, Option.map_map, Option.map_id']
    cases db.agents.find? i with
    | none => rfl
    | some a =>
      simp only [Option.map_some, Function.comp_apply, Option.some.injEq]
      split <;> rfl
  · rw [heldCount_of_taskLeases (Db.retireLeases_taskLeases ..),
      heldCount_setLeaseStatus_heldBy (by decide)]
    split
    · next hi =>
      rw [hi]
      exact (Table.count_eq_zero_iff.mpr hsafe).symm
    · rfl

/-- 引退では lease も `active_tasks` も空になる。 -/
theorem Balanced.gracefulShutdown (h : Balanced db) {id : String}
    {capture : Except StoreError Unit} {ids : List String}
    (hb : db.gracefulShutdown id capture = .ok (ids, db')) : Balanced db' := by
  rw [Db.gracefulShutdown_ok hb]
  refine h.of_change (g := fun i n => if i = id then 0 else n) (fun i => ?_) fun i _ => ?_
  · rw [activeTasks?_updateAgent (g := fun _ => 0) (fun _ => rfl),
      activeTasks?_of_agents (Db.retireLeases_agents ..)]
  · rw [heldCount_of_taskLeases (Db.updateAgent_taskLeases ..),
      heldCount_of_taskLeases (Db.retireLeases_taskLeases ..),
      heldCount_setLeaseStatus_heldBy (by decide)]

/-- **一歩は帳尻を保つ。** -/
theorem balanced_step {op : AgentOp} (h : Balanced db) (hop : CounterOp op = true)
    (hsafe : CounterSafe db op) : Balanced (agentStep db op).2 := by
  rcases commit_snd_cases db (op.body db) with hs | ⟨r, db', hb, hs⟩
  · rw [agentStep, hs]
    exact h
  · rw [agentStep, hs]
    cases op
    case register | renewLease | heartbeat | unregister | deleteTask => simp [CounterOp] at hop
    all_goals
      simp only [AgentOp.body, mapResult_eq_ok] at hb
    case tryClaim taskId agentId durationSecs reason now =>
      obtain ⟨c, hb, -⟩ := hb
      exact h.tryClaim hsafe hb
    case releaseLease taskId agentId =>
      obtain ⟨u, hb, -⟩ := hb
      obtain ⟨l, hl, rfl, rfl⟩ := Db.releaseLease_ok hb
      obtain ⟨hf, hact⟩ := activeLease?_eq_some hl
      exact h.release hf hact
    case releaseLeaseForTask taskId reason =>
      obtain ⟨u, hb, -⟩ := hb
      rcases Db.releaseLeaseForTask_ok hb with ⟨l, hl, -, rfl⟩ | ⟨-, -, rfl⟩
      · obtain ⟨hf, hact⟩ := activeLease?_eq_some hl
        exact h.release hf hact
      · exact h
    case releaseLeaseIfOwnerEpoch taskId agentId epoch reason =>
      obtain ⟨u, hb, -⟩ := hb
      rcases Db.releaseLeaseIfOwnerEpoch_ok hb with ⟨l, hf, rfl, hact, rfl, -, rfl⟩ | ⟨-, -, rfl⟩
      · rw [ownedAt_update_eq hf hact]
        exact h.release hf hact
      · exact h
    case reclaimExpiredLeases now =>
      obtain ⟨n, hb, -⟩ := hb
      exact h.reclaim hb
    case markStale id =>
      obtain ⟨u, hb, -⟩ := hb
      exact h.markStale hsafe hb
    case gracefulShutdown id capture =>
      obtain ⟨ids, hb, -⟩ := hb
      exact h.gracefulShutdown hb

end

/-! ## 実行の全体 -/

/--
**帳尻の不変条件。**

帳尻の合った表から始めた実行は、忘れる箇所を踏まない限り、途中のどの状態でも帳尻が合う。
-/
theorem balanced_run (db : Db) (ops pre : List AgentOp) (h : Balanced db)
    (hops : Guarded agentStep (fun db op => CounterOp op = true ∧ CounterSafe db op) db ops)
    (hpre : pre <+: ops) : Balanced (run agentStep db pre) :=
  run_invariant_prefix (fun _ _ hb hg => balanced_step hb hg.1 hg.2) h hops hpre

/-- agent が二つ登録された、lease の無い表。`b` は `a` の子である。 -/
def twoAgents : Db where
  agents := (Table.empty.insertOrIgnore
    { id := "a", name := "a", registeredAt := 0, lastHeartbeat := 0 }).insertOrIgnore
    { id := "b", name := "b", parentId := some "a", registeredAt := 0, lastHeartbeat := 0 }

/-- 取得、子による横取り、期限切れの回収、取り直し、引退。 -/
def takeoverRun : List AgentOp :=
  [.tryClaim "t" "a" 600 none 0, .tryClaim "t" "b" 600 none 1,
    .reclaimExpiredLeases (seconds 700), .tryClaim "t" "a" 600 none (seconds 701),
    .gracefulShutdown "a" (.ok ()), .markStale "b"]

theorem balanced_takeoverRun :
    Balanced (run agentStep twoAgents takeoverRun)
      ∧ (run agentStep twoAgents (takeoverRun.take 2)).activeTasks? "b" = some 1 :=
  ⟨balanced_run twoAgents takeoverRun takeoverRun (by decide) (by decide)
    (List.prefix_refl _), by decide⟩

/--
忘れる箇所を踏むと帳尻が合わなくなる。

`mark_stale` の後の `a` と、期限切れの行を `b` に上書きされた `a` は、どちらも lease を
一つも握っていないのに `active_tasks` が 1 のまま残る。
-/
theorem markStale_and_overwrite_unbalance :
    Balanced twoAgents
      ∧ ¬ Balanced (run agentStep twoAgents [.tryClaim "t" "a" 600 none 0, .markStale "a"])
      ∧ ¬ Balanced (run agentStep twoAgents
        [.tryClaim "t" "a" 600 none 0, .tryClaim "t" "b" 600 none (seconds 700)]) := by
  refine ⟨by decide, by decide, by decide⟩

end Cassy
