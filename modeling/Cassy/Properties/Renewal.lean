import Cassy.Properties.LeaseOps

/-!
# lease を延ばせるのは誰か

`heartbeat` と `renew_lease` が延ばす lease を、どの状態・どの agent・どの時刻についても
ちょうど言い当てる。延ばされるのは、その agent が握る有効な lease のうち、task が進行中で、
担当者の記名がその agent に引き当たるものである。残りの行は何も変わらない。

三つの但し書きがつく。

* id は大文字と小文字を区別せずに比べられる。大文字と小文字だけが違う id の agent がいると、
  記名は別の行に引き当たるのに延長が通る
* 期限は「今から一定時間後」に置き直される。前の期限の方が遅ければ、期限は早まる
* 世代は符号つきの列に入る。`2 ^ 63` 以上の世代は読むときに 0 になり、延長の文が当たらない
-/

namespace Cassy

open Infra

namespace Db

variable {db : Db}
variable {agentId : String} {now : Time}

/-! ## 記名の引き当て -/

/-- 新しい順に探して当たる行は、当たる行のうち登録の最も新しいものである。 -/
theorem find?_identities {p : Agent → Bool} {a : Agent} (h : db.identities.find? p = some a) :
    a ∈ db.agents.rows ∧ p a = true
      ∧ ∀ b ∈ db.agents.rows, p b = true → b.registeredAt ≤ a.registeredAt := by
  have : IsTrans Agent fun a b => b.registeredAt ≤ a.registeredAt :=
    ⟨fun _ _ _ hab hbc => le_trans hbc hab⟩
  have : Std.Total fun a b : Agent => b.registeredAt ≤ a.registeredAt :=
    ⟨fun a b => le_total b.registeredAt a.registeredAt⟩
  have hsort : db.identities.Pairwise fun a b => b.registeredAt ≤ a.registeredAt :=
    List.pairwise_insertionSort _ _
  have hmem : ∀ b, b ∈ db.identities ↔ b ∈ db.agents.rows := fun b => List.mem_insertionSort _
  obtain ⟨hp, as, bs, heq, has⟩ := List.find?_eq_some_iff_append.mp h
  refine ⟨(hmem a).mp (List.mem_of_find?_eq_some h), hp, fun b hb hpb => ?_⟩
  rw [← hmem, heq] at hb
  rw [heq, List.pairwise_append, List.pairwise_cons] at hsort
  rcases List.mem_append.mp hb with hb | hb
  · have := has b hb
    simp [hpb] at this
  · rcases List.mem_cons.mp hb with rfl | hb
    · exact le_rfl
    · exact hsort.2.1.1 b hb

theorem find?_identities_eq_none {p : Agent → Bool} :
    db.identities.find? p = none ↔ ∀ b ∈ db.agents.rows, p b = false := by
  have hmem : ∀ b, b ∈ db.identities ↔ b ∈ db.agents.rows := fun b => List.mem_insertionSort _
  rw [List.find?_eq_none]
  simp [hmem]

/--
記名 `token` が指す agent。

id が一致する行があればその中で最も新しいもの、無ければ名前が一致する行の中で最も新しいもの
である。どちらも ASCII の大文字と小文字を区別しない。
-/
def Designates (db : Db) (token : Text) (a : Agent) : Prop :=
  let byId := fun b : Agent => eqIgnoreAsciiCase b.id.toList token
  let byName := fun b : Agent => eqIgnoreAsciiCase b.name.toList token
  a ∈ db.agents.rows ∧
    ((byId a = true ∧ ∀ b ∈ db.agents.rows, byId b = true → b.registeredAt ≤ a.registeredAt)
      ∨ ((∀ b ∈ db.agents.rows, byId b = false) ∧ byName a = true
        ∧ ∀ b ∈ db.agents.rows, byName b = true → b.registeredAt ≤ a.registeredAt))

theorem resolveIdentity_designates {token : Text} {a : Agent}
    (h : db.resolveIdentity token = some a) : db.Designates token a := by
  unfold resolveIdentity at h
  cases hid : db.identities.find? fun a => eqIgnoreAsciiCase a.id.toList token with
  | some a' =>
    rw [hid, Option.some_or] at h
    obtain rfl := Option.some.inj h
    obtain ⟨hmem, hp, hnew⟩ := find?_identities hid
    exact ⟨hmem, .inl ⟨hp, hnew⟩⟩
  | none =>
    rw [hid, Option.none_or] at h
    obtain ⟨hmem, hp, hnew⟩ := find?_identities h
    exact ⟨hmem, .inr ⟨find?_identities_eq_none.mp hid, hp, hnew⟩⟩

/-- 引き当てが失敗するのは、id も名前も当たらないときだけである。 -/
theorem resolveIdentity_eq_none {token : Text} (h : db.resolveIdentity token = none) :
    ∀ b ∈ db.agents.rows, eqIgnoreAsciiCase b.id.toList token = false
      ∧ eqIgnoreAsciiCase b.name.toList token = false := by
  obtain ⟨hid, hname⟩ := Option.or_eq_none_iff.mp h
  exact fun b hb =>
    ⟨find?_identities_eq_none.mp hid b hb, find?_identities_eq_none.mp hname b hb⟩

/-- id・名前・登録時刻を変えない更新は、引き当てを変えない。 -/
theorem resolveIdentity_updateAgent {id : String} {f : Agent → Agent} {hf : ∀ a, (f a).id = a.id}
    (hname : ∀ a, (f a).name = a.name) (hreg : ∀ a, (f a).registeredAt = a.registeredAt)
    (token : Text) :
    ((db.updateAgent id f hf).resolveIdentity token).map Agent.id
      = (db.resolveIdentity token).map Agent.id := by
  have hg : ∀ a : Agent, let b := if decide (a.id = id) then f a else a
      b.id = a.id ∧ b.name = a.name ∧ b.registeredAt = a.registeredAt := by
    intro a
    by_cases h : a.id = id
    · simp [h, hf, hname, hreg]
    · simp [h]
  have hid : (db.updateAgent id f hf).identities
      = db.identities.map fun a => if decide (a.id = id) then f a else a := by
    refine (List.map_insertionSort _ _ _ _ fun a _ b _ => ?_).symm
    rw [(hg a).2.2, (hg b).2.2]
  unfold resolveIdentity
  rw [hid, List.find?_map, List.find?_map, ← Option.map_or, Option.map_map]
  have hcomp : (Agent.id ∘ fun a : Agent => if decide (a.id = id) then f a else a) = Agent.id :=
    funext fun a => (hg a).1
  have hpid : ((fun a : Agent => eqIgnoreAsciiCase a.id.toList token)
      ∘ fun a : Agent => if decide (a.id = id) then f a else a)
      = fun a => eqIgnoreAsciiCase a.id.toList token :=
    funext fun a => by simp only [Function.comp_apply, (hg a).1]
  have hpname : ((fun a : Agent => eqIgnoreAsciiCase a.name.toList token)
      ∘ fun a : Agent => if decide (a.id = id) then f a else a)
      = fun a => eqIgnoreAsciiCase a.name.toList token :=
    funext fun a => by simp only [Function.comp_apply, (hg a).2.1]
  rw [hcomp, hpid, hpname]

/-! ## 延ばしてよい lease -/

/-- 行を延ばす。 -/
def extended (expiresAt now : Time) (l : TaskLease) : TaskLease :=
  { l with expiresAt, renewedAt := now, renewalCount := l.renewalCount + 1 }

/-- `agentId` が延ばしてよい lease。 -/
structure Extendable (db : Db) (agentId : String) (l : TaskLease) : Prop where
  holder : l.agentId = agentId
  active : l.status = .active
  live : ∃ a, db.agents.find? agentId = some a ∧ a.status.isLive = true
  assigned : ∃ t assignee a, db.tasks.find? l.taskId = some t ∧ t.status = .inProgress
    ∧ t.assignee = some assignee ∧ trim assignee.toList ≠ []
    ∧ db.resolveIdentity (trim assignee.toList) = some a
    ∧ eqIgnoreAsciiCase a.id.toList agentId.toList = true
  signed : l.epoch.toNat < 2 ^ 63

theorem epochFromRow_eq_self_iff {e : UInt64} : epochFromRow e = e ↔ e.toNat < 2 ^ 63 := by
  unfold epochFromRow
  split
  · next h => exact ⟨fun _ => h, fun _ => rfl⟩
  · next h =>
    refine ⟨fun he => ?_, fun hlt => absurd hlt h⟩
    rw [← he]
    decide

theorem extendable_iff {l : TaskLease} :
    db.Extendable agentId l ↔ db.renewable agentId l = true ∧ epochFromRow l.epoch = l.epoch := by
  rw [epochFromRow_eq_self_iff]
  unfold renewable
  simp only [decide_eq_true_eq, Option.any_eq_true, Bool.not_eq_true]
  constructor
  · rintro ⟨rfl, hs, hlive, ⟨t, assignee, a, ht, hp, ha, hne, hr, he⟩, hsig⟩
    refine ⟨⟨rfl, hs, hlive, t, ht, hp, assignee, ha, ?_, a, hr, he⟩, hsig⟩
    simpa using hne
  · rintro ⟨⟨rfl, hs, hlive, t, ht, hp, assignee, ha, hne, a, hr, he⟩, hsig⟩
    exact ⟨rfl, hs, hlive, ⟨t, assignee, a, ht, hp, ha, by simpa using hne, hr, he⟩, hsig⟩

/-- 延長の `UPDATE` の後の行。 -/
theorem find?_renewRow {taskId : String} {epoch : UInt64} {expiresAt : Time} {k : String} :
    (db.renewRow taskId agentId epoch expiresAt now).taskLeases.find? k
      = (db.taskLeases.find? k).map fun l =>
        if ownedAt taskId agentId epoch l then extended expiresAt now l else l := by
  rw [renewRow, Table.find?_update]
  rfl

/-- 相異なる task の lease を次々に延ばした後の行。一つの行に当たる文は高々一つである。 -/
theorem find?_foldl_renewRow {expiresAt : Time} {k : String} :
    ∀ (leases : List TaskLease) (db : Db), (leases.map TaskLease.taskId).Nodup →
    (leases.foldl (fun db l => db.renewRow l.taskId agentId l.epoch expiresAt now)
      db).taskLeases.find? k
      = (db.taskLeases.find? k).map fun l =>
        if leases.any fun r => ownedAt r.taskId agentId r.epoch l
        then extended expiresAt now l else l
  | [], db, _ => by simp
  | r :: leases, db, hnd => by
    rw [List.map_cons, List.nodup_cons] at hnd
    rw [List.foldl_cons, find?_foldl_renewRow leases _ hnd.2, find?_renewRow, Option.map_map]
    refine Option.map_congr fun l _ => ?_
    simp only [Function.comp_apply, List.any_cons]
    by_cases hr : ownedAt r.taskId agentId r.epoch l = true
    · -- 後に続く文は別の task の行しか選ばない
      have hrest : (leases.any fun r' =>
          ownedAt r'.taskId agentId r'.epoch (extended expiresAt now l)) = false := by
        rw [List.any_eq_false]
        intro r' hr' ho
        simp only [ownedAt, decide_eq_true_eq] at hr ho
        have ht : r'.taskId = r.taskId := ho.1.symm.trans hr.1
        exact hnd.1 (List.mem_map.mpr ⟨r', hr', ht⟩)
      simp [hr, hrest]
    · simp [hr]

theorem renewableTaskLeases_nodup (agentId : String) :
    ((db.renewableTaskLeases agentId).map TaskLease.taskId).Nodup := by
  unfold renewableTaskLeases
  rw [List.map_map]
  exact (List.Sublist.map TaskLease.taskId List.filter_sublist).nodup db.taskLeases.nodup

/-- 延長してよい lease を並べた文が当たるのは、ちょうど `Extendable` な行である。 -/
theorem any_ownedAt_iff {l : TaskLease} (hl : l ∈ db.taskLeases.rows) :
    ((db.renewableTaskLeases agentId).any fun r => ownedAt r.taskId agentId r.epoch l) = true
      ↔ db.Extendable agentId l := by
  rw [extendable_iff, List.any_eq_true]
  simp only [renewableTaskLeases, List.mem_map, List.mem_filter]
  constructor
  · rintro ⟨_, ⟨r, ⟨hr, hren⟩, rfl⟩, ho⟩
    simp only [ownedAt, decide_eq_true_eq] at ho
    obtain ⟨ht, -, -, he⟩ := ho
    obtain rfl : l = r := Table.eq_of_key hl hr ht
    exact ⟨hren, he.symm⟩
  · rintro ⟨hren, he⟩
    refine ⟨_, ⟨l, ⟨hl, hren⟩, rfl⟩, ?_⟩
    have hren' := hren
    simp only [renewable, decide_eq_true_eq] at hren'
    simp [ownedAt, hren'.1, hren'.2.1, he]

instance {agentId : String} {l : TaskLease} : Decidable (db.Extendable agentId l) :=
  decidable_of_iff _ extendable_iff.symm

/-! ## 二つの操作 -/

/-- heartbeat が agent の行に書くもの。 -/
def heartbeatAgent (now : Time) (a : Agent) : Agent :=
  { a with lastHeartbeat := now, status := .active, startupConfirmed := true }

/-- heartbeat は自分の行を書いてから延ばす lease を選ぶが、選ばれる lease は変わらない。 -/
theorem extendable_heartbeat {a : Agent} {l : TaskLease} (ha : db.agents.find? agentId = some a)
    (hlive : a.status.isLive = true) :
    (db.updateAgent agentId (heartbeatAgent now)).Extendable agentId l
      ↔ db.Extendable agentId l := by
  have hres : ∀ token,
      ((db.updateAgent agentId (heartbeatAgent now)).resolveIdentity token).map Agent.id
        = (db.resolveIdentity token).map Agent.id :=
    resolveIdentity_updateAgent (fun _ => rfl) (fun _ => rfl)
  have hagent : (db.updateAgent agentId (heartbeatAgent now)).agents.find? agentId
      = some (heartbeatAgent now a) := by
    have hfind := @Table.find?_update _ _ _ _ db.agents (fun a => decide (a.id = agentId))
      (heartbeatAgent now) (fun _ => rfl) agentId
    refine hfind.trans ?_
    simp [ha, Table.key_of_find? ha]
  constructor
  · rintro ⟨hh, hs, -, ⟨t, assignee, b, ht, hp, hassign, hne, hr, he⟩, hsig⟩
    have hid := hres (trim assignee.toList)
    rw [hr, Option.map_some] at hid
    obtain ⟨b', hr', hb'⟩ := Option.map_eq_some_iff.mp hid.symm
    exact ⟨hh, hs, ⟨a, ha, hlive⟩,
      ⟨t, assignee, b', ht, hp, hassign, hne, hr', by rw [hb']; exact he⟩, hsig⟩
  · rintro ⟨hh, hs, -, ⟨t, assignee, b, ht, hp, hassign, hne, hr, he⟩, hsig⟩
    have hid := hres (trim assignee.toList)
    rw [hr, Option.map_some] at hid
    obtain ⟨b', hr', hb'⟩ := Option.map_eq_some_iff.mp hid
    exact ⟨hh, hs, ⟨_, hagent, rfl⟩,
      ⟨t, assignee, b', ht, hp, hassign, hne, hr', by rw [hb']; exact he⟩, hsig⟩

/-- agent が生きているか。 -/
def isLiveAgent (db : Db) (agentId : String) : Bool :=
  (db.agents.find? agentId).any fun a => a.status.isLive

theorem heartbeat_of_not_live (h : db.isLiveAgent agentId = false) :
    ∃ e, db.heartbeat agentId now = .error e := by
  unfold isLiveAgent at h
  unfold heartbeat
  cases ha : db.agents.find? agentId with
  | none => exact ⟨_, rfl⟩
  | some a =>
    rw [ha, Option.any_some] at h
    simp [h]

/-- heartbeat の後の lease の行。 -/
theorem find?_heartbeat {k : String} :
    (commit db (db.heartbeat agentId now)).2.taskLeases.find? k
      = (db.taskLeases.find? k).map fun l =>
        if db.Extendable agentId l
        then extended (now + seconds taskLeaseHeartbeatRenewalSecs) now l else l := by
  cases hlive : db.isLiveAgent agentId with
  | false =>
    obtain ⟨e, he⟩ : ∃ e, db.heartbeat agentId now = .error e := heartbeat_of_not_live hlive
    have hno : ∀ l, ¬ db.Extendable agentId l := by
      rintro l ⟨-, -, ⟨a, ha, hs⟩, -, -⟩
      simp [isLiveAgent, ha, hs] at hlive
    simp [he, hno]
  | true =>
    obtain ⟨a, ha, hs⟩ := Option.any_eq_true _ _ |>.mp hlive
    have hok : (commit db (db.heartbeat agentId now)).2.taskLeases
        = ((db.updateAgent agentId (heartbeatAgent now)).renewAll agentId
          (now + seconds taskLeaseHeartbeatRenewalSecs) now).taskLeases := by
      unfold heartbeat
      rw [ha]
      simp only [hs, if_true, commit_ok]
      rfl
    rw [hok, renewAll, find?_foldl_renewRow _ _ (renewableTaskLeases_nodup agentId)]
    refine Option.map_congr fun l hl => ?_
    have hmem : l ∈ (db.updateAgent agentId (heartbeatAgent now)).taskLeases.rows :=
      Table.mem_of_find? hl
    simp only [any_ownedAt_iff hmem, extendable_heartbeat ha hs]

/-- `renew_lease` の後の lease の行。延ばされるのは名指された task の行だけである。 -/
theorem find?_renewLease {taskId : String} {durationSecs : Int} {k : String} :
    (commit db (db.renewLease taskId agentId durationSecs now)).2.taskLeases.find? k
      = (db.taskLeases.find? k).map fun l =>
        if l.taskId = taskId ∧ db.Extendable agentId l
        then extended (now + seconds durationSecs) now l else l := by
  cases hfind : (db.renewableTaskLeases agentId).find? fun l => decide (l.taskId = taskId) with
  | none =>
    have hno : ∀ l ∈ db.taskLeases.rows, ¬ (l.taskId = taskId ∧ db.Extendable agentId l) := by
      rintro l hl ⟨ht, hext⟩
      obtain ⟨r, hr, ho⟩ := List.any_eq_true.mp ((any_ownedAt_iff hl).mpr hext)
      simp only [ownedAt, decide_eq_true_eq] at ho
      have := List.find?_eq_none.mp hfind r hr
      simp [← ho.1, ht] at this
    have herr : ∃ e, db.renewLease taskId agentId durationSecs now = .error e := by
      unfold renewLease
      rw [hfind]
      exact ⟨_, rfl⟩
    obtain ⟨e, he⟩ := herr
    rw [he, commit_error]
    cases hk : db.taskLeases.find? k with
    | none => rfl
    | some l => rw [Option.map_some, if_neg (hno l (Table.mem_of_find? hk))]
  | some r =>
    have ht : r.taskId = taskId := by simpa using List.find?_some hfind
    have hok : (commit db (db.renewLease taskId agentId durationSecs now)).2.taskLeases
        = (db.renewRow taskId agentId r.epoch (now + seconds durationSecs) now).taskLeases := by
      unfold renewLease
      rw [hfind]
      rfl
    rw [hok, find?_renewRow]
    refine Option.map_congr fun l hl => ?_
    have hmem := Table.mem_of_find? hl
    congr 1
    rw [eq_iff_iff, ← any_ownedAt_iff hmem, List.any_eq_true]
    constructor
    · intro ho
      refine ⟨?_, r, List.mem_of_find?_eq_some hfind, by rw [ht]; exact ho⟩
      simp only [ownedAt, decide_eq_true_eq] at ho
      exact ho.1
    · rintro ⟨hlt, r', hr', ho⟩
      -- 同じ task の lease は一つしか無い
      have hrr : r' = r := by
        simp only [ownedAt, decide_eq_true_eq] at ho
        exact List.inj_on_of_nodup_map (renewableTaskLeases_nodup agentId) hr'
          (List.mem_of_find?_eq_some hfind) (ho.1.symm.trans (hlt.trans ht.symm))
      rw [hrr, ht] at ho
      exact ho

theorem renewAll_worktreeLeases {expiresAt : Time} :
    (db.renewAll agentId expiresAt now).worktreeLeases = db.worktreeLeases := by
  have hrow : ∀ (db : Db) (l : TaskLease),
      (db.renewRow l.taskId agentId l.epoch expiresAt now).worktreeLeases = db.worktreeLeases :=
    fun _ _ => rfl
  exact foldl_fixed hrow _ _

/-- heartbeat の後の worktree の lease の行。 -/
theorem find?_worktree_heartbeat {k : String} :
    (commit db (db.heartbeat agentId now)).2.worktreeLeases.find? k
      = (db.worktreeLeases.find? k).map fun l =>
        if db.isLiveAgent agentId ∧ l.agentId = agentId ∧ l.status = .active
        then { l with
          expiresAt := now + seconds taskLeaseHeartbeatRenewalSecs, renewedAt := now
          renewalCount := l.renewalCount + 1 }
        else l := by
  cases hlive : db.isLiveAgent agentId with
  | false =>
    obtain ⟨e, he⟩ : ∃ e, db.heartbeat agentId now = .error e := heartbeat_of_not_live hlive
    simp [he]
  | true =>
    obtain ⟨a, ha, hs⟩ := Option.any_eq_true _ _ |>.mp hlive
    unfold heartbeat
    rw [ha]
    simp only [hs, if_true, commit_ok]
    refine Table.find?_update.trans ?_
    rw [renewAll_worktreeLeases]
    simp only [true_and, decide_eq_true_eq]
    rfl

/-- `renew_lease` は worktree の lease に触らない。 -/
theorem renewLease_worktreeLeases {taskId : String} {durationSecs : Int} :
    (commit db (db.renewLease taskId agentId durationSecs now)).2.worktreeLeases
      = db.worktreeLeases := by
  unfold renewLease
  cases (db.renewableTaskLeases agentId).find? fun l => decide (l.taskId = taskId) <;> rfl

end Db

/-! ## 仕様 -/

open Db

/--
延長の権限の仕様。

記名の引き当ては `Designates` の通りで、当たる行が無いときだけ失敗する。heartbeat と
`renew_lease` は、落ちた場合も含めて、`Extendable` な行の期限をちょうど置き直し、他の行には
触れない。heartbeat はそれに加えて、agent の握る有効な worktree の lease を延ばす。
-/
theorem lease_renewal_authority (db : Db) (agentId : String) (now : Time) :
    (∀ token a, db.resolveIdentity token = some a → db.Designates token a)
      ∧ (∀ token, db.resolveIdentity token = none → ∀ b ∈ db.agents.rows,
        eqIgnoreAsciiCase b.id.toList token = false
          ∧ eqIgnoreAsciiCase b.name.toList token = false)
      ∧ (∀ k, (commit db (db.heartbeat agentId now)).2.taskLeases.find? k
        = (db.taskLeases.find? k).map fun l =>
          if db.Extendable agentId l
          then extended (now + seconds taskLeaseHeartbeatRenewalSecs) now l else l)
      ∧ (∀ taskId durationSecs k,
        (commit db (db.renewLease taskId agentId durationSecs now)).2.taskLeases.find? k
          = (db.taskLeases.find? k).map fun l =>
            if l.taskId = taskId ∧ db.Extendable agentId l
            then extended (now + seconds durationSecs) now l else l)
      ∧ (∀ k, (commit db (db.heartbeat agentId now)).2.worktreeLeases.find? k
        = (db.worktreeLeases.find? k).map fun l =>
          if db.isLiveAgent agentId ∧ l.agentId = agentId ∧ l.status = .active
          then { l with
            expiresAt := now + seconds taskLeaseHeartbeatRenewalSecs, renewedAt := now
            renewalCount := l.renewalCount + 1 }
          else l)
      ∧ ∀ taskId durationSecs,
        (commit db (db.renewLease taskId agentId durationSecs now)).2.worktreeLeases
          = db.worktreeLeases :=
  ⟨fun _ _ => resolveIdentity_designates, fun _ => resolveIdentity_eq_none,
    fun _ => find?_heartbeat, fun _ _ _ => find?_renewLease, fun _ => find?_worktree_heartbeat,
    fun _ _ => renewLease_worktreeLeases⟩

/-- id が大文字と小文字だけ違う二つの agent。担当者の記名は新しい方に引き当たる。 -/
def twinDb : Db where
  agents :=
    { rows :=
        [{ id := "Fox", name := "swift", registeredAt := 0, lastHeartbeat := 0 },
          { id := "fox", name := "calm", registeredAt := 1, lastHeartbeat := 0 }]
      nodup := by decide }
  tasks :=
    { rows := [{ id := "t", status := .inProgress, assignee := some "fox" }]
      nodup := by decide }
  taskLeases :=
    { rows :=
        [{ taskId := "t", agentId := "Fox", status := .active, acquiredAt := 0
           expiresAt := seconds 1800, renewedAt := 0, renewalCount := 0, epoch := 1
           claimReason := none }]
      nodup := by decide }

/-- 記名が引き当たるのは `fox` なのに、`Fox` の heartbeat が期限を置き直す。しかも早める。 -/
theorem twinHeartbeat_moves_expiry :
    (twinDb.resolveIdentity "fox".toList).map Agent.id = some "fox"
      ∧ (twinDb.taskLeases.find? "t").map TaskLease.expiresAt = some (seconds 1800)
      ∧ ((commit twinDb (twinDb.heartbeat "Fox" 1)).2.taskLeases.find? "t").map
        TaskLease.expiresAt = some (seconds 600 + 1) := by
  decide

end Cassy
