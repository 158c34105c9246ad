import Cassy.Agent.Ops
import Cassy.Properties.ActiveTasks

/-!
# 期限切れの回収の正確さ

回収が返す数、`active_tasks` の減らし方、履歴の `expired` は、どれも最初の `SELECT` の結果から
作られる。実際に移るのは二つ目の文 `UPDATE` の時点で条件に合う行である。二つの文の間に
割り込みがあると、この二つは食い違う。

食い違わないための必要十分条件は、`UPDATE` の時点の期限切れの行が、task と持ち主と世代について
`SELECT` の時点のものと同じであることである（`reclaim_exact_iff`）。
-/

namespace Cassy

open Infra

/-- 回収が後で使う、lease の三つの列。 -/
def leaseIdentity (l : TaskLease) : String × String × UInt64 := (l.taskId, l.agentId, l.epoch)

/--
回収の正確さ。返した数、減らした数、残した履歴が、`UPDATE` の移した行に一対一に対応する。
-/
structure ReclaimExact (s : Reclaiming) (n : Nat) : Prop where
  count : n = s.moved.length
  decrements : ∀ id, ((s.decrements.filter fun c => c.1 = id).map Prod.snd).sum
    = s.moved.countP fun l => l.agentId = id
  logged : s.logged.Perm (s.moved.map Db.expiredEntry)

/-- 機械の記録と次の文の関係。 -/
def ReclaimInv (s : Reclaiming) : Prop :=
  match s.pc with
  | .select => s.decrements = [] ∧ s.logged = []
  | .expire expired => s.selected = expired ∧ s.decrements = [] ∧ s.logged = []
  | .decrement expired rest =>
    s.selected = expired ∧ (s.decrements ++ rest).Perm (Db.agentCounts expired) ∧ s.logged = []
  | .log expired rest =>
    s.selected = expired ∧ s.decrements.Perm (Db.agentCounts expired)
      ∧ s.logged ++ rest.map Db.expiredEntry = expired.map Db.expiredEntry
  | .returned n =>
    n = s.selected.length ∧ s.decrements.Perm (Db.agentCounts s.selected)
      ∧ s.logged = s.selected.map Db.expiredEntry

section

variable {order : List (String × Nat) → List (String × Nat)} {now : Time}

/-- 回収の一文は記録との関係を保つ。 -/
theorem reclaimInv_next (horder : ∀ l, (order l).Perm l) {s : Reclaiming} (h : ReclaimInv s) :
    ReclaimInv (s.next order now) := by
  unfold ReclaimInv at h
  unfold Reclaiming.next
  split at h
  · next hpc =>
    rw [hpc]
    exact ⟨rfl, h.1, h.2⟩
  · next expired hpc =>
    rw [hpc]
    refine ⟨h.1, ?_, h.2.2⟩
    simp only [h.2.1, List.nil_append]
    exact horder _
  · next expired rest hpc =>
    rw [hpc]
    obtain ⟨hsel, hdec, hlog⟩ := h
    cases rest with
    | nil => exact ⟨hsel, by simpa using hdec, by simp [hlog]⟩
    | cons c rest => exact ⟨hsel, by simpa using hdec, hlog⟩
  · next expired rest hpc =>
    rw [hpc]
    obtain ⟨hsel, hdec, hlog⟩ := h
    cases rest with
    | nil => exact ⟨by rw [hsel], by rw [hsel]; exact hdec, by rw [hsel]; simpa using hlog⟩
    | cons l rest => exact ⟨hsel, hdec, by simpa using hlog⟩
  · next n hpc =>
    rw [hpc]
    unfold ReclaimInv
    rw [hpc]
    exact h

/-- 回収の一文が、表に書き、記録に残すもの。 -/
structure ReclaimWrites (s s' : Reclaiming) : Prop where
  /-- 移した行だけが `expired` になる。移さない文は lease に触れない。 -/
  leases : s'.db.taskLeases.rows = s.db.taskLeases.rows.map (fun l =>
      if l ∈ s'.moved then { l with status := .expired } else l)
    ∨ s'.db.taskLeases = s.db.taskLeases ∧ s'.moved = s.moved
  /-- 記録した数だけ `active_tasks` が減る。 -/
  agents : ∃ counts, s'.decrements = s.decrements ++ counts
    ∧ ∀ id, s'.db.activeTasks? id = (s.db.activeTasks? id).map fun n =>
      n - ((counts.filter fun c => c.1 = id).map Prod.snd).sum
  /-- 記録した項だけ履歴が伸びる。 -/
  history : ∃ entries, s'.logged = s.logged ++ entries
    ∧ s'.db.leaseHistory = s.db.leaseHistory ++ entries

/-- 表に何も書かない文。 -/
theorem ReclaimWrites.of_db {s s' : Reclaiming} (hdb : s'.db = s.db) (hmoved : s'.moved = s.moved)
    (hdec : s'.decrements = s.decrements) (hlog : s'.logged = s.logged) : ReclaimWrites s s' := by
  refine ⟨.inr ⟨by rw [hdb], hmoved⟩, ⟨[], by rw [hdec, List.append_nil], fun id => ?_⟩,
    ⟨[], by rw [hlog, List.append_nil], by rw [hdb, List.append_nil]⟩⟩
  rw [hdb]
  cases s.db.activeTasks? id <;> rfl

/-- 回収の記録は、その文が `task_leases`、`agents`、履歴に書いたものである。 -/
theorem reclaimWrites_next (s : Reclaiming) : ReclaimWrites s (s.next order now) := by
  unfold Reclaiming.next
  split
  · exact .of_db rfl rfl rfl rfl
  · refine ⟨.inl ?_, ⟨[], (List.append_nil _).symm, fun id => ?_⟩, ⟨[], (List.append_nil _).symm,
      (List.append_nil _).symm⟩⟩
    · show (s.db.expireLeases now).taskLeases.rows = _
      unfold Db.expireLeases Db.setLeaseStatus
      rw [Table.update_rows]
      refine List.map_congr_left fun l hl => ?_
      have hmem : l ∈ s.db.expiredLeases now ↔ Db.isExpired now l = true := by
        rw [Db.expiredLeases, List.mem_filter]
        exact and_iff_right hl
      simp only [hmem]
    · have hsame : (s.db.expireLeases now).activeTasks? id = s.db.activeTasks? id :=
        activeTasks?_of_agents rfl id
      show (s.db.expireLeases now).activeTasks? id = _
      rw [hsame]
      cases s.db.activeTasks? id <;> rfl
  · exact .of_db rfl rfl rfl rfl
  · next c rest _ =>
    refine ⟨.inr ⟨rfl, rfl⟩, ⟨[c], rfl, fun id => ?_⟩, ⟨[], (List.append_nil _).symm,
      (List.append_nil _).symm⟩⟩
    rw [activeTasks?_decrement]
    by_cases hid : id = c.1
    · simp [hid]
    · simp [hid, Ne.symm hid]
  · exact .of_db rfl rfl rfl rfl
  · next l rest _ =>
    refine ⟨.inr ⟨rfl, rfl⟩, ⟨[], (List.append_nil _).symm, fun id => ?_⟩, ⟨_, rfl, rfl⟩⟩
    have hsame : (s.db.logLeaseEvent (Db.expiredEntry l)).activeTasks? id = s.db.activeTasks? id :=
      activeTasks?_of_agents (Db.logLeaseEvent_agents ..) id
    show (s.db.logLeaseEvent (Db.expiredEntry l)).activeTasks? id = _
    rw [hsame]
    cases s.db.activeTasks? id <;> rfl
  · exact .of_db rfl rfl rfl rfl

theorem reclaimInv_step (horder : ∀ l, (order l).Perm l) (s : Reclaiming) (a : ReclaimAct)
    (h : ReclaimInv s) : ReclaimInv (reclaimStep order now s a).2 := by
  cases a with
  | env op => exact h
  | next => exact reclaimInv_next horder h

/-- 回収は必ず数を返す。残りの文の数だけ進めればよい。 -/
theorem reclaim_returns (s : Reclaiming) :
    ∃ k n, (run (reclaimStep order now) s (List.replicate k .next)).pc = .returned n := by
  have hlog : ∀ (rest expired : List TaskLease) (s : Reclaiming), s.pc = .log expired rest →
      ∃ k n, (run (reclaimStep order now) s (List.replicate k .next)).pc = .returned n := by
    intro rest
    induction rest with
    | nil =>
      intro expired s hpc
      exact ⟨1, expired.length, by simp [reclaimStep, Reclaiming.next, hpc]⟩
    | cons l rest ih =>
      intro expired s hpc
      obtain ⟨k, n, hk⟩ := ih expired (s.next order now) (by simp [Reclaiming.next, hpc])
      exact ⟨k + 1, n, hk⟩
  have hdec : ∀ (rest : List (String × Nat)) (expired : List TaskLease) (s : Reclaiming),
      s.pc = .decrement expired rest →
      ∃ k n, (run (reclaimStep order now) s (List.replicate k .next)).pc = .returned n := by
    intro rest
    induction rest with
    | nil =>
      intro expired s hpc
      obtain ⟨k, n, hk⟩ := hlog expired expired (s.next order now)
        (by simp [Reclaiming.next, hpc])
      exact ⟨k + 1, n, hk⟩
    | cons c rest ih =>
      intro expired s hpc
      obtain ⟨k, n, hk⟩ := ih expired (s.next order now) (by simp [Reclaiming.next, hpc])
      exact ⟨k + 1, n, hk⟩
  cases hpc : s.pc with
  | select =>
    obtain ⟨k, n, hk⟩ := hdec (order (Db.agentCounts (s.db.expiredLeases now)))
      (s.db.expiredLeases now) ((s.next order now).next order now)
      (by simp [Reclaiming.next, hpc])
    exact ⟨k + 2, n, hk⟩
  | expire expired =>
    obtain ⟨k, n, hk⟩ := hdec (order (Db.agentCounts expired)) expired (s.next order now)
      (by simp [Reclaiming.next, hpc])
    exact ⟨k + 1, n, hk⟩
  | decrement expired rest => exact hdec rest expired s hpc
  | log expired rest => exact hlog rest expired s hpc
  | returned n => exact ⟨0, n, hpc⟩

end

/-- 三つの列から作れる値は、三つの列の並べ替えで並べ替わる。 -/
theorem map_perm_of_identity {γ : Type} {f : TaskLease → γ}
    {g : String × String × UInt64 → γ} (hf : ∀ l, f l = g (leaseIdentity l))
    {xs ys : List TaskLease} (h : (xs.map leaseIdentity).Perm (ys.map leaseIdentity)) :
    (xs.map f).Perm (ys.map f) := by
  have hmap : ∀ zs : List TaskLease, zs.map f = (zs.map leaseIdentity).map g := by
    intro zs
    rw [List.map_map]
    exact List.map_congr_left fun l _ => hf l
  rw [hmap, hmap]
  exact h.map g

section

variable {order : List (String × Nat) → List (String × Nat)} {now : Time}

/-- 記録の言葉での必要十分条件。 -/
theorem reclaimExact_iff_identity {s : Reclaiming} {n : Nat} (hinv : ReclaimInv s)
    (hret : s.pc = .returned n) :
    ReclaimExact s n ↔ (s.selected.map leaseIdentity).Perm (s.moved.map leaseIdentity) := by
  unfold ReclaimInv at hinv
  rw [hret] at hinv
  obtain ⟨hn, hdec, hlog⟩ := hinv
  constructor
  · intro h
    have hp := h.logged
    rw [hlog] at hp
    -- 履歴の一項から三つの列が読み取れる
    have hid := hp.map fun e => (e.taskId, e.agentId, e.epoch)
    rw [List.map_map, List.map_map] at hid
    exact hid
  · intro hp
    refine ⟨?_, fun id => ?_, ?_⟩
    · have hlen := hp.length_eq
      rw [List.length_map, List.length_map] at hlen
      rw [hn, hlen]
    · have hsum : ((s.decrements.filter fun c => c.1 = id).map Prod.snd).sum
          = (((Db.agentCounts s.selected).filter fun c => c.1 = id).map Prod.snd).sum :=
        ((hdec.filter _).map _).sum_nat
      rw [hsum, agentCounts_sum]
      have hagents := (map_perm_of_identity (f := TaskLease.agentId) (g := fun i => i.2.1)
        (fun _ => rfl) hp).countP_eq (fun a => decide (a = id))
      rw [List.countP_map, List.countP_map] at hagents
      exact hagents
    · rw [hlog]
      exact map_perm_of_identity (f := Db.expiredEntry)
        (g := fun i => ⟨i.1, i.2.1, .expired, i.2.2, none, none, none⟩) (fun _ => rfl) hp

/-! ## 割り込みの位置 -/

/-- 割り込みだけが続く間は、表だけが動く。 -/
theorem run_env : ∀ (pre : List AgentOp) (s : Reclaiming),
    run (reclaimStep order now) s (pre.map .env) = { s with db := run agentStep s.db pre }
  | [], _ => rfl
  | op :: pre, s => by
    rw [List.map_cons, run_cons, run_env pre]
    rfl

/-- 割り込みだけの列か、割り込みの後に回収の文が来る列かのどちらかである。 -/
theorem split_env : ∀ acts : List ReclaimAct,
    (∃ pre : List AgentOp, acts = pre.map .env)
      ∨ ∃ (pre : List AgentOp) (rest : List ReclaimAct), acts = pre.map .env ++ .next :: rest
  | [] => Or.inl ⟨[], rfl⟩
  | .next :: rest => Or.inr ⟨[], rest, rfl⟩
  | .env op :: acts => by
    rcases split_env acts with ⟨pre, rfl⟩ | ⟨pre, rest, rfl⟩
    · exact Or.inl ⟨op :: pre, rfl⟩
    · exact Or.inr ⟨op :: pre, rest, rfl⟩

/-- `UPDATE` を済ませた後は、読んだものと移したものの記録は動かない。 -/
def PastExpire (selected moved : List TaskLease) (s : Reclaiming) : Prop :=
  s.selected = selected ∧ s.moved = moved ∧ s.pc ≠ .select ∧ ∀ expired, s.pc ≠ .expire expired

theorem pastExpire_step {selected moved : List TaskLease} (s : Reclaiming) (a : ReclaimAct)
    (h : PastExpire selected moved s) :
    PastExpire selected moved (reclaimStep order now s a).2 := by
  obtain ⟨hsel, hmov, hpc, hpc'⟩ := h
  cases a with
  | env op => exact ⟨hsel, hmov, hpc, hpc'⟩
  | next =>
    simp only [reclaimStep, Reclaiming.next]
    split
    · next h => exact absurd h hpc
    · next h => exact absurd h (hpc' _)
    · exact ⟨hsel, hmov, by simp, by simp⟩
    · exact ⟨hsel, hmov, by simp, by simp⟩
    · exact ⟨hsel, hmov, by simp, by simp⟩
    · exact ⟨hsel, hmov, by simp, by simp⟩
    · exact ⟨hsel, hmov, hpc, hpc'⟩

end

/--
**回収が正確であるための必要十分条件。**

他の connection の transaction がどう割り込んでも、数を返した回収の実行は、`SELECT` の前の割り込み
`pre` と、`SELECT` と `UPDATE` の間の割り込み `mid` に分かれる。回収が正確であるのは、`UPDATE` の
直前の期限切れの行が `SELECT` の直前のものと、task と持ち主と世代について同じときであり、
そのときに限る。
-/
theorem reclaim_exact_iff (order : List (String × Nat) → List (String × Nat))
    (horder : ∀ l, (order l).Perm l) (now : Time) (db : Db) (acts : List ReclaimAct) (n : Nat)
    (hret : (run (reclaimStep order now) { db } acts).pc = .returned n) :
    ∃ (pre mid : List AgentOp) (rest : List ReclaimAct),
      acts = pre.map .env ++ .next :: (mid.map .env ++ .next :: rest)
        ∧ (ReclaimExact (run (reclaimStep order now) { db } acts) n
          ↔ (((run agentStep db pre).expiredLeases now).map leaseIdentity).Perm
            (((run agentStep db (pre ++ mid)).expiredLeases now).map leaseIdentity)) := by
  rcases split_env acts with ⟨pre, rfl⟩ | ⟨pre, tail, rfl⟩
  · rw [run_env] at hret
    simp at hret
  rcases split_env tail with ⟨mid, rfl⟩ | ⟨mid, rest, rfl⟩
  · rw [run_append, run_env, run_cons, run_env] at hret
    simp [reclaimStep, Reclaiming.next] at hret
  refine ⟨pre, mid, rest, rfl, ?_⟩
  have hinv : ReclaimInv (run (reclaimStep order now) { db }
      (pre.map .env ++ .next :: (mid.map .env ++ .next :: rest))) :=
    run_invariant' (I := ReclaimInv) (reclaimInv_step horder) ⟨rfl, rfl⟩
  have hpast : PastExpire ((run agentStep db pre).expiredLeases now)
      ((run agentStep db (pre ++ mid)).expiredLeases now)
      (run (reclaimStep order now) { db }
        (pre.map .env ++ .next :: (mid.map .env ++ .next :: rest))) := by
    rw [run_append, run_append, run_env, run_cons, run_append, run_env, run_cons]
    refine run_invariant' pastExpire_step ?_
    exact ⟨rfl, rfl, by simp [reclaimStep, Reclaiming.next], by
      simp [reclaimStep, Reclaiming.next]⟩
  rw [reclaimExact_iff_identity hinv hret, hpast.1, hpast.2.1]

/-! ## 具体的な実行 -/

/-- 期限の切れた lease を握ったまま生きている agent と、その進行中の task。 -/
def overdueLease : Db where
  agents := Table.empty.insertOrIgnore
    { id := "a", name := "a", registeredAt := 0, lastHeartbeat := 0, activeTasks := 1 }
  tasks := Table.empty.insertOrIgnore
    { id := "t", status := .inProgress, assignee := some "a" }
  taskLeases := Table.empty.insertOrIgnore (Db.claimedLease "t" "a" 600 none 0 1)

/-- 期限の切れていない lease を、別の agent が握っている。 -/
def twoLeases : Db where
  agents := overdueLease.agents.insertOrIgnore
    { id := "b", name := "b", registeredAt := 0, lastHeartbeat := 0, activeTasks := 1 }
  tasks := overdueLease.tasks.insertOrIgnore
    { id := "u", status := .inProgress, assignee := some "b" }
  taskLeases := overdueLease.taskLeases.insertOrIgnore (Db.claimedLease "u" "b" 900 none 0 1)

/-- 別の agent の heartbeat が割り込んでも、期限切れの行は変わらず、回収は正確である。 -/
theorem reclaim_exact_iff_otherHeartbeat :
    ReclaimExact (run (reclaimStep id (seconds 700)) { db := twoLeases }
      (.next :: .env (.heartbeat "b" (seconds 700)) :: List.replicate 5 .next)) 1 := by
  obtain ⟨pre, mid, rest, hacts, hiff⟩ := reclaim_exact_iff id (fun _ => List.Perm.refl _)
    (seconds 700) twoLeases (.next :: .env (.heartbeat "b" (seconds 700)) :: List.replicate 5 .next) 1
    (by decide)
  cases pre with
  | cons op pre => cases hacts
  | nil =>
    obtain ⟨-, htail⟩ := List.cons.inj hacts
    cases mid with
    | nil => cases htail
    | cons op mid =>
      obtain ⟨hop, htail⟩ := List.cons.inj htail
      cases hop
      cases mid with
      | cons op mid => cases htail
      | nil => exact hiff.mpr (List.Perm.of_eq (by decide))

/--
`SELECT` と `UPDATE` の間に heartbeat が届くと、回収は食い違う。

lease は延長されて一つも移らないのに、回収は 1 を返し、`active_tasks` を 1 減らし、
`expired` を一つ履歴に残す。
-/
theorem heartbeat_breaks_reclaim :
    (run (reclaimStep id (seconds 700)) { db := overdueLease }
        (.next :: .env (.heartbeat "a" (seconds 700)) :: List.replicate 5 .next)).pc = .returned 1
      ∧ ¬ ReclaimExact (run (reclaimStep id (seconds 700)) { db := overdueLease }
        (.next :: .env (.heartbeat "a" (seconds 700)) :: List.replicate 5 .next)) 1
      ∧ (run (reclaimStep id (seconds 700)) { db := overdueLease }
        (.next :: .env (.heartbeat "a" (seconds 700)) :: List.replicate 5 .next)).moved = [] := by
  refine ⟨by decide, fun h => ?_, by decide⟩
  exact absurd h.count (by decide)

end Cassy
