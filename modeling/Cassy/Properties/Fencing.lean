import Cassy.Properties.LeaseOps

/-!
# lease の世代による fencing

`release_lease_if_owner_epoch` は、以前の取得で得た `(agent, epoch)` を見せて
「その世代の lease だけを解放する」操作である。これが効くには、同じ task の取得が返す
`epoch` が増え続けなければならない。

行が残っている限り `epoch` は減らず、取得のたびに一つ増える。数え直しが起きるのは行が
消えたときだけで、それは二つある。

* `unregister` — 外部キーの cascade が、その agent の lease の行を消す
* task の `delete` — lease の行も消す

もう一つ、`u64` の最大値からの取得は 0 に折り返す。この三つを除けば fencing は成り立ち
（`lease_fencing`）、除かなければ成り立たない（`unregister_breaks_fencing`）。

有効な lease が終わるのは、終わらせてよい操作によるときだけである（`lease_ends_by_right`）。
-/

namespace Cassy

open Infra

/-! ## 世代は減らない -/

/-- 行が残り、世代が減らない。 -/
def EpochsKept (db db' : Db) : Prop :=
  ∀ t l, db.taskLeases.find? t = some l →
    ∃ l', db'.taskLeases.find? t = some l' ∧ l.epoch ≤ l'.epoch

namespace EpochsKept

variable {db db' db'' : Db}

theorem refl (db : Db) : EpochsKept db db := fun _ l h => ⟨l, h, UInt64.le_refl _⟩

theorem trans (h : EpochsKept db db') (h' : EpochsKept db' db'') : EpochsKept db db'' := by
  intro t l hl
  obtain ⟨l', hl', hle⟩ := h t l hl
  obtain ⟨l'', hl'', hle'⟩ := h' t l' hl'
  exact ⟨l'', hl'', UInt64.le_trans hle hle'⟩

theorem of_eq (h : db'.taskLeases = db.taskLeases) : EpochsKept db db' :=
  fun _ l hl => ⟨l, h ▸ hl, UInt64.le_refl _⟩

/-- 世代を減らさない `UPDATE`。 -/
theorem of_update {p : TaskLease → Bool} {f : TaskLease → TaskLease}
    (h : ∀ hf, db'.taskLeases = db.taskLeases.update p f hf)
    (hf : ∀ l, (f l).taskId = l.taskId)
    (he : ∀ l ∈ db.taskLeases.rows, p l = true → l.epoch ≤ (f l).epoch) : EpochsKept db db' := by
  intro t l hl
  rw [h hf, Table.find?_update, hl]
  refine ⟨_, rfl, ?_⟩
  beta_reduce
  split
  · next hp => exact he l (Table.mem_of_find? hl) hp
  · exact UInt64.le_refl _

/-- 状態だけを書き換える `UPDATE`。 -/
theorem of_setLeaseStatus {p : TaskLease → Bool} {status : LeaseStatus}
    (h : db'.taskLeases = (db.setLeaseStatus p status).taskLeases) : EpochsKept db db' :=
  of_update (fun _ => h) (fun _ => rfl) fun _ _ _ => UInt64.le_refl _

theorem of_renewRow {taskId agentId : String} {epoch : UInt64} {expiresAt now : Time}
    (h : db'.taskLeases = (db.renewRow taskId agentId epoch expiresAt now).taskLeases) :
    EpochsKept db db' :=
  of_update (fun _ => h) (fun _ => rfl) fun _ _ _ => UInt64.le_refl _

theorem foldl_renewRow {agentId : String} {expiresAt now : Time} :
    ∀ (leases : List TaskLease) (db : Db),
      EpochsKept db (leases.foldl
        (fun db l => db.renewRow l.taskId agentId l.epoch expiresAt now) db)
  | [], db => refl db
  | _ :: leases, _ => (of_renewRow rfl).trans (foldl_renewRow leases _)

/-- `p` に当たる行が無ければ、`DELETE` は何も消さない。 -/
theorem of_delete {p : TaskLease → Bool} (h : db'.taskLeases = db.taskLeases.delete p)
    (hp : ∀ l ∈ db.taskLeases.rows, p l = false) : EpochsKept db db' := by
  intro t l hl
  rw [h, Table.find?_delete, hl, Option.filter_some,
    if_pos (by simp [hp l (Table.mem_of_find? hl)])]
  exact ⟨l, rfl, UInt64.le_refl _⟩

theorem of_reclaim {now : Time} {n : Nat} (h : db.reclaimExpiredLeases now = .ok (n, db')) :
    EpochsKept db db' := by
  simp only [Db.reclaimExpiredLeases, Except.ok.injEq, Prod.mk.injEq] at h
  have hl : db'.taskLeases = (db.setLeaseStatus (Db.isExpired now) .expired).taskLeases := by
    rw [← h.2, Db.foldl_logLeaseEvent_taskLeases]
    exact foldl_fixed (f := fun db (c : String × Nat) => db.decrementActiveTasks c.1 c.2)
      (p := Db.taskLeases) (fun _ _ => rfl) _ _
  exact of_setLeaseStatus hl

end EpochsKept

/-! ## 一歩 -/

/--
世代が数え直されない操作。

`unregister` は、登録があってその agent の名の lease の行があると、行ごと消す。
task の `delete` も同じである。`u64` の最大値を超える取得は 0 に戻る。
-/
def FenceSafe (db : Db) : AgentOp → Prop
  | .tryClaim taskId _ _ _ _ =>
    (db.taskLeases.find? taskId).all fun l => l.epoch ≠ UInt64.ofNat (2 ^ 64 - 1)
  | .unregister id _ =>
    db.agents.find? id = none ∨ ∀ l ∈ db.taskLeases.rows, l.agentId ≠ id
  | .deleteTask id => db.tasks.find? id = none ∨ db.taskLeases.find? id = none
  | _ => True

instance (db : Db) (op : AgentOp) : Decidable (FenceSafe db op) :=
  match op with
  | .tryClaim taskId _ _ _ _ => inferInstanceAs (Decidable
    ((db.taskLeases.find? taskId).all (fun l => l.epoch ≠ UInt64.ofNat (2 ^ 64 - 1)) = true))
  | .unregister id _ => inferInstanceAs (Decidable
    (db.agents.find? id = none ∨ ∀ l ∈ db.taskLeases.rows, l.agentId ≠ id))
  | .deleteTask id => inferInstanceAs (Decidable
    (db.tasks.find? id = none ∨ db.taskLeases.find? id = none))
  | .register .. | .releaseLease .. | .releaseLeaseForTask .. | .releaseLeaseIfOwnerEpoch ..
  | .renewLease .. | .heartbeat .. | .reclaimExpiredLeases .. | .markStale ..
  | .gracefulShutdown .. => .isTrue trivial

/-- 最大値でなければ、次の世代は大きい。 -/
theorem epoch_lt_succ {e : UInt64} (h : e ≠ UInt64.ofNat (2 ^ 64 - 1)) : e < e + 1 := by
  rw [UInt64.lt_iff_toNat_lt, UInt64.toNat_add]
  have hlt := e.toNat_lt
  have hne : e.toNat ≠ 2 ^ 64 - 1 := by
    intro he
    exact h (UInt64.toNat_inj.mp (by rw [he]; rfl))
  have h1 : (1 : UInt64).toNat = 1 := rfl
  rw [h1, Nat.mod_eq_of_lt (by omega)]
  omega

/-- 取得が成功したときの行。前の行があれば、それより新しい世代である。 -/
theorem tryClaim_success {db db' : Db} {taskId agentId : String} {durationSecs : Int}
    {reason : Option String} {now : Time} {lease : TaskLease}
    (h : db.tryClaim taskId agentId durationSecs reason now = .ok (.success lease, db')) :
    lease.taskId = taskId ∧ lease.agentId = agentId
      ∧ (∀ held, db.taskLeases.find? taskId = some held → lease.epoch = held.epoch + 1)
      ∧ db'.taskLeases.find? taskId = some lease := by
  rcases Db.tryClaim_ok_cases h with ⟨_, _, _, _, hr, _⟩ | ⟨held, hf, _, _, hr, rfl⟩ |
    ⟨leases, hf, _, hins, hr, rfl⟩
  · simp at hr
  · obtain rfl := ClaimResult.success.inj hr
    refine ⟨rfl, rfl, fun held' hf' => ?_, ?_⟩
    · rw [hf] at hf'
      rw [← Option.some.inj hf']
      rfl
    · rw [Db.reclaimed, Db.recordClaim_taskLeases, Table.find?_update, hf, Option.map_some,
        if_pos (by simpa using Table.key_of_find? hf)]
      rw [Table.key_of_find? hf]
      rfl
  · obtain rfl := ClaimResult.success.inj hr
    refine ⟨rfl, rfl, fun held' hf' => by simp [hf] at hf', ?_⟩
    rw [Db.recordClaim_taskLeases, Table.find?_insert? hins]
    exact if_pos rfl

theorem epochsKept_tryClaim {db db' : Db} {taskId agentId : String} {durationSecs : Int}
    {reason : Option String} {now : Time} {r : ClaimResult}
    (hsafe : FenceSafe db (.tryClaim taskId agentId durationSecs reason now))
    (h : db.tryClaim taskId agentId durationSecs reason now = .ok (r, db')) :
    EpochsKept db db' := by
  rcases Db.tryClaim_ok_cases h with ⟨_, _, _, _, _, rfl⟩ | ⟨held, hf, _, _, _, rfl⟩ |
    ⟨leases, hf, _, hins, _, rfl⟩
  · exact .refl _
  · refine .of_update (fun _ => Db.recordClaim_taskLeases _) (fun _ => rfl) fun l hl hp => ?_
    have hkey : l.taskId = taskId := by simpa using hp
    have hlh : l = held := by
      rw [Table.find?_eq_some_iff.mpr ⟨hl, hkey⟩] at hf
      exact Option.some.inj hf
    rw [hlh]
    simp only [FenceSafe, hf, Option.all_some, decide_eq_true_eq] at hsafe
    exact UInt64.le_of_lt (epoch_lt_succ hsafe)
  · intro t l hl
    rw [Db.recordClaim_taskLeases, Table.find?_insert? hins]
    have hne : ¬ (Db.claimedLease taskId agentId durationSecs reason now 1).taskId = t := by
      intro he
      rw [← he] at hl
      simp only [Db.claimedLease] at hl
      rw [hf] at hl
      simp at hl
    rw [if_neg hne]
    exact ⟨l, hl, UInt64.le_refl _⟩

/-- **一歩は世代を減らさない。** 数え直しの起きる操作だけを除く。 -/
theorem epochsKept_step {db : Db} {op : AgentOp} (hsafe : FenceSafe db op) :
    EpochsKept db (agentStep db op).2 := by
  rcases commit_snd_cases db (op.body db) with h | ⟨r, db', hb, h⟩
  · exact .of_eq (by rw [agentStep, h])
  · rw [agentStep, h]
    cases op
    all_goals
      simp only [AgentOp.body, mapResult_eq_ok] at hb
      obtain ⟨u, hb, -⟩ := hb
    case register agent env capture rehomedAt => exact .of_eq (Db.register_taskLeases hb)
    case tryClaim taskId agentId durationSecs reason now => exact epochsKept_tryClaim hsafe hb
    case releaseLease taskId agentId =>
      obtain ⟨l, -, -, rfl⟩ := Db.releaseLease_ok hb
      exact .of_setLeaseStatus (Db.releaseRow_taskLeases ..)
    case releaseLeaseForTask taskId reason =>
      rcases Db.releaseLeaseForTask_ok hb with ⟨l, -, -, rfl⟩ | ⟨-, -, rfl⟩
      · exact .of_setLeaseStatus (Db.releaseRow_taskLeases ..)
      · exact .refl _
    case releaseLeaseIfOwnerEpoch taskId agentId epoch reason =>
      rcases Db.releaseLeaseIfOwnerEpoch_ok hb with ⟨l, -, -, -, -, -, rfl⟩ | ⟨-, -, rfl⟩
      · exact .of_setLeaseStatus (Db.releaseRow_taskLeases ..)
      · exact .refl _
    case renewLease taskId agentId durationSecs now =>
      obtain ⟨l, -, -, hl⟩ := Db.renewLease_ok hb
      exact .of_renewRow hl
    case heartbeat id now =>
      obtain ⟨a, -, -, hl⟩ := Db.heartbeat_ok hb
      exact (EpochsKept.of_eq (Db.updateAgent_taskLeases ..)).trans
        ((EpochsKept.foldl_renewRow _ _).trans (.of_eq hl))
    case reclaimExpiredLeases now => exact .of_reclaim hb
    case markStale id =>
      simp only [Db.markStale, Except.ok.injEq, Prod.mk.injEq] at hb
      exact .of_setLeaseStatus (by rw [← hb.2, Db.retireLeases_taskLeases]; rfl)
    case gracefulShutdown id capture =>
      rw [Db.gracefulShutdown_ok hb]
      exact .of_setLeaseStatus (Db.retireLeases_taskLeases ..)
    case unregister id capture =>
      rcases Db.unregister_ok hb with ⟨hs, rfl⟩ | ⟨-, rfl⟩
      · have hnone : ∀ l ∈ db.taskLeases.rows, l.agentId ≠ id := by
          rcases hsafe with hn | hn
          · simp [hn] at hs
          · exact hn
        refine EpochsKept.trans (.of_setLeaseStatus rfl) (.of_delete rfl ?_)
        intro l hl
        simp only [Db.setLeaseStatus, Table.update_rows, List.mem_map] at hl
        obtain ⟨l₀, hl₀, rfl⟩ := hl
        have hne := hnone l₀ hl₀
        simp [hne]
      · exact .of_setLeaseStatus rfl
    case deleteTask id =>
      obtain ⟨hs, hl, -⟩ := Db.deleteTask_ok hb
      refine .of_delete hl fun l hmem => ?_
      rcases hsafe with hn | hn
      · simp [hn] at hs
      · simpa using Table.find?_eq_none_iff.mp hn l hmem

/-! ## 実行の全体 -/

/-- lease の操作の履歴の一項。 -/
abbrev AgentEvent := Event Db AgentOp (Except StoreError AgentRes)

/-- `lease` を得た取得である。 -/
def ClaimEvent (e : AgentEvent) (lease : TaskLease) : Prop :=
  e.result = .ok (.claim (.success lease))

/--
世代による fencing。

* `increasing` — 同じ task の取得が返す世代は増え続ける
* `stale_release` — 取得の後に別の取得があれば、前の取得の `(agent, epoch)` を見せた解放は
  `false` を返し、何も変えない
-/
structure LeaseFencing (db : Db) (ops : List AgentOp) : Prop where
  increasing : (trace agentStep db ops).Pairwise fun e e' =>
    ∀ lease lease', ClaimEvent e lease → ClaimEvent e' lease' →
      lease.taskId = lease'.taskId → lease.epoch < lease'.epoch
  stale_release : ∀ e₁ e₂ e₃, [e₁, e₂, e₃].Sublist (trace agentStep db ops) →
    ∀ lease₁ lease₂ reason, ClaimEvent e₁ lease₁ → ClaimEvent e₂ lease₂ →
      lease₁.taskId = lease₂.taskId →
      e₃.op = .releaseLeaseIfOwnerEpoch lease₁.taskId lease₁.agentId lease₁.epoch reason →
      e₃.result = .ok (.bool false) ∧ (agentStep e₃.before e₃.op).2 = e₃.before

/-- 取得の成功は `try_claim` の成功である。 -/
theorem claim_of_result {db : Db} {op : AgentOp} {lease : TaskLease}
    (h : (agentStep db op).1 = .ok (.claim (.success lease))) :
    ∃ taskId agentId durationSecs reason now,
      op = .tryClaim taskId agentId durationSecs reason now
        ∧ db.tryClaim taskId agentId durationSecs reason now
          = .ok (.success lease, (agentStep db op).2) := by
  have hb := agentStep_ok h
  cases op <;> simp only [AgentOp.body, mapResult_eq_ok, reduceCtorEq, and_false, exists_false,
    AgentRes.claim.injEq, exists_eq_right] at hb
  exact ⟨_, _, _, _, _, rfl, hb⟩

/-- 取得の痕跡。行が残り、世代は得た世代を下回らない。 -/
def ClaimKept (e : AgentEvent) (db : Db) : Prop :=
  ∀ lease, ClaimEvent e lease →
    ∃ l, db.taskLeases.find? lease.taskId = some l ∧ lease.epoch ≤ l.epoch

theorem claimKept_new (db : Db) (op : AgentOp) :
    ClaimKept ⟨db, op, (agentStep db op).1⟩ (agentStep db op).2 := by
  intro lease h
  obtain ⟨_, _, _, _, _, -, hc⟩ := claim_of_result h
  obtain ⟨rfl, -, -, hf⟩ := tryClaim_success hc
  exact ⟨lease, hf, UInt64.le_refl _⟩

theorem claimKept_step {e : AgentEvent} {db : Db} {op : AgentOp} (hsafe : FenceSafe db op)
    (h : ClaimKept e db) : ClaimKept e (agentStep db op).2 := by
  intro lease he
  obtain ⟨l, hl, hle⟩ := h lease he
  obtain ⟨l', hl', hle'⟩ := epochsKept_step hsafe _ l hl
  exact ⟨l', hl', UInt64.le_trans hle hle'⟩

/-- 後の取得は、痕跡より新しい世代を返す。 -/
theorem claim_after {e : AgentEvent} {db : Db} {op : AgentOp} {lease lease' : TaskLease}
    (hsafe : FenceSafe db op) (h : ClaimKept e db) (he : ClaimEvent e lease)
    (h' : (agentStep db op).1 = .ok (.claim (.success lease')))
    (ht : lease.taskId = lease'.taskId) : lease.epoch < lease'.epoch := by
  obtain ⟨_, _, _, _, _, rfl, hc⟩ := claim_of_result h'
  obtain ⟨rfl, -, hnext, -⟩ := tryClaim_success hc
  obtain ⟨l, hl, hle⟩ := h lease he
  rw [ht] at hl
  simp only [FenceSafe, hl, Option.all_some, decide_eq_true_eq] at hsafe
  rw [hnext l hl]
  exact UInt64.lt_of_le_of_lt hle (epoch_lt_succ hsafe)

/-- 痕跡より古い世代を見せた解放は、何もしない。 -/
theorem release_after {e : AgentEvent} {db : Db} {lease : TaskLease} {agentId reason : String}
    {epoch : UInt64} (h : ClaimKept e db) (he : ClaimEvent e lease) (hlt : epoch < lease.epoch) :
    agentStep db (.releaseLeaseIfOwnerEpoch lease.taskId agentId epoch reason)
      = (.ok (.bool false), db) := by
  obtain ⟨l, hl, hle⟩ := h lease he
  have hcount : db.taskLeases.count (Db.ownedAt lease.taskId agentId epoch) = 0 := by
    refine Table.count_eq_zero_iff.mpr fun l' hl' => ?_
    simp only [Db.ownedAt, decide_eq_false_iff_not, not_and]
    intro ht _ _ hep
    rw [Table.find?_eq_some_iff.mpr ⟨hl', ht⟩] at hl
    rw [Option.some.inj hl] at hep
    exact UInt64.lt_irrefl _ (UInt64.lt_of_lt_of_le (hep ▸ hlt) hle)
  simp [agentStep, AgentOp.body, Db.releaseLeaseIfOwnerEpoch, hcount, mapResult, Except.map]

/--
**世代による fencing。**

どの表から始めても、数え直しの起きる操作を含まない実行では、同じ task の取得が返す世代は
増え続け、古い世代を見せた解放は後の取得の lease に触らない。
-/
theorem lease_fencing (db : Db) (ops : List AgentOp)
    (hsafe : Guarded agentStep FenceSafe db ops) : LeaseFencing db ops := by
  have hpair : (trace agentStep db ops).Pairwise fun e e' => ∀ lease, ClaimEvent e lease →
      (∀ lease', ClaimEvent e' lease' → lease.taskId = lease'.taskId →
        lease.epoch < lease'.epoch)
      ∧ ∀ agentId epoch reason, epoch < lease.epoch →
        e'.op = .releaseLeaseIfOwnerEpoch lease.taskId agentId epoch reason →
        e'.result = .ok (.bool false) ∧ (agentStep e'.before e'.op).2 = e'.before := by
    refine trace_pairwise (I := fun _ => True) (g := FenceSafe) (P := ClaimKept)
      (fun _ _ _ _ => trivial) (fun db op _ _ => claimKept_new db op)
      (fun e db op _ hs hk => claimKept_step hs hk) (fun e db op _ hs hk lease he => ⟨?_, ?_⟩)
      trivial hsafe
    · exact fun lease' he' ht => claim_after hs hk he he' ht
    · rintro agentId epoch reason hlt rfl
      have hrel : agentStep db (.releaseLeaseIfOwnerEpoch lease.taskId agentId epoch reason)
          = (.ok (.bool false), db) := release_after hk he hlt
      exact ⟨congrArg Prod.fst hrel, congrArg Prod.snd hrel⟩
  refine ⟨hpair.imp fun h lease lease' he he' ht => (h lease he).1 lease' he' ht, ?_⟩
  intro e₁ e₂ e₃ hsub lease₁ lease₂ reason h₁ h₂ ht hop
  obtain ⟨h12, h23⟩ : _ ∧ _ := by
    have := hpair.sublist hsub
    simp only [List.pairwise_cons, List.mem_cons, List.not_mem_nil, or_false] at this
    exact ⟨this.1 e₂ (Or.inl rfl), this.2.1 e₃ rfl⟩
  rw [ht] at hop
  exact (h23 lease₂ h₂).2 _ _ _ ((h12 lease₁ h₁).1 lease₂ h₂ ht) hop

/-! ## lease の終わり -/

/-- 同じ取得の lease である。更新は期限だけを変える。 -/
structure SameHold (l l' : TaskLease) : Prop where
  taskId : l'.taskId = l.taskId
  agentId : l'.agentId = l.agentId
  epoch : l'.epoch = l.epoch
  status : l'.status = l.status

theorem SameHold.refl (l : TaskLease) : SameHold l l := ⟨rfl, rfl, rfl, rfl⟩

theorem SameHold.trans {l l' l'' : TaskLease} (h : SameHold l l') (h' : SameHold l' l'') :
    SameHold l l'' :=
  ⟨h'.taskId.trans h.taskId, h'.agentId.trans h.agentId, h'.epoch.trans h.epoch, h'.status.trans h.status⟩

/-- `l` の後にも、同じ取得の lease がある。 -/
def Kept (l : TaskLease) (db : Db) : Prop :=
  ∃ l', db.taskLeases.find? l.taskId = some l' ∧ SameHold l l'

/--
lease を終わらせてよい操作。

期限の後の取得と回収、握っている agent の子による取得、握っている agent か世代を名指す解放、task を名指す解放、握っている
agent の引退、task の削除である。登録と更新と heartbeat は終わらせない。
-/
def MayEnd (db : Db) (l : TaskLease) : AgentOp → Prop
  | .tryClaim taskId agentId _ _ now =>
    taskId = l.taskId ∧ (l.expiresAt ≤ now ∨ db.canTakeover agentId l.agentId = true)
  | .releaseLease taskId agentId => taskId = l.taskId ∧ agentId = l.agentId
  | .releaseLeaseForTask taskId _ => taskId = l.taskId
  | .releaseLeaseIfOwnerEpoch taskId agentId epoch _ =>
    taskId = l.taskId ∧ agentId = l.agentId ∧ epoch = l.epoch
  | .reclaimExpiredLeases now => l.expiresAt < now
  | .markStale id | .gracefulShutdown id _ | .unregister id _ => id = l.agentId
  | .deleteTask id => id = l.taskId
  | .register .. | .renewLease .. | .heartbeat .. => False

section Ends

variable {db db' : Db} {l : TaskLease}

theorem Kept.of_eq (hl : db.taskLeases.find? l.taskId = some l) (h : db'.taskLeases = db.taskLeases) :
    Kept l db' := ⟨l, by rw [h, hl], .refl l⟩

/-- 選ばれないか、期限だけを書き換えられる lease は残る。 -/
theorem Kept.of_update {p : TaskLease → Bool} {f : TaskLease → TaskLease}
    (hl : db.taskLeases.find? l.taskId = some l)
    (h : ∀ hf, db'.taskLeases = db.taskLeases.update p f hf) (hf : ∀ l, (f l).taskId = l.taskId)
    (hp : p l = true → SameHold l (f l)) : Kept l db' := by
  refine ⟨if p l then f l else l, ?_, ?_⟩
  · rw [h hf, Table.find?_update, hl, Option.map_some]
  · split
    · next hpl => exact hp hpl
    · exact .refl l

theorem Kept.foldl_renewRow {agentId : String} {expiresAt now : Time} (leases : List TaskLease)
    (h : Kept l db) : Kept l (leases.foldl
      (fun db l => db.renewRow l.taskId agentId l.epoch expiresAt now) db) := by
  induction leases generalizing db with
  | nil => exact h
  | cons r leases ih =>
    obtain ⟨l', hl', hsame⟩ := h
    refine ih ?_
    rw [← hsame.taskId] at hl'
    have hkept : Kept l' (db.renewRow r.taskId agentId r.epoch expiresAt now) :=
      .of_update hl' (fun _ => rfl) (fun _ => rfl) fun _ => ⟨rfl, rfl, rfl, rfl⟩
    obtain ⟨l'', hl'', hsame'⟩ := hkept
    exact ⟨l'', by rw [← hsame.taskId, hl''], hsame.trans hsame'⟩

theorem reclaimExpiredLeases_taskLeases {now : Time} {n : Nat}
    (h : db.reclaimExpiredLeases now = .ok (n, db')) :
    db'.taskLeases = (db.setLeaseStatus (Db.isExpired now) .expired).taskLeases := by
  simp only [Db.reclaimExpiredLeases, Except.ok.injEq, Prod.mk.injEq] at h
  rw [← h.2, Db.foldl_logLeaseEvent_taskLeases]
  exact foldl_fixed (f := fun db (c : String × Nat) => db.decrementActiveTasks c.1 c.2)
    (p := Db.taskLeases) (fun _ _ => rfl) _ _

/-! ### 終わらせてよい操作でなければ残る -/

section Operations

variable {taskId agentId id reason : String} {now : Time}
  (hl : db.taskLeases.find? l.taskId = some l)
include hl

/-- 同じ task の取得なら、期限の後か、子による取得である。 -/
theorem Kept.tryClaim {durationSecs : Int} {reason : Option String} {r : ClaimResult}
    (hactive : l.status = .active)
    (hend : ¬ MayEnd db l (.tryClaim taskId agentId durationSecs reason now))
    (h : db.tryClaim taskId agentId durationSecs reason now = .ok (r, db')) : Kept l db' := by
  rcases Db.tryClaim_ok_cases h with ⟨_, _, _, _, _, rfl⟩ | ⟨held, hf, hvalid, _, _, rfl⟩ |
    ⟨leases, hf, _, hins, _, rfl⟩
  · exact .of_eq hl rfl
  · refine .of_update hl (fun _ => Db.recordClaim_taskLeases _) (fun _ => rfl) fun hp => ?_
    have ht : l.taskId = taskId := by simpa using hp
    rw [← ht, hl] at hf
    obtain rfl := Option.some.inj hf
    obtain ⟨hexpires, htakeover⟩ := not_or.mp fun hor => hend ⟨ht.symm, hor⟩
    have hlive : Db.leaseValid now l = true := by
      rw [Db.leaseValid, decide_eq_true_eq]
      exact ⟨hactive, Int.not_le.mp hexpires⟩
    exact absurd (hvalid hlive) htakeover
  · refine ⟨l, ?_, .refl l⟩
    rw [Db.recordClaim_taskLeases, Table.find?_insert? hins, if_neg, hl]
    intro ht
    have hsame : taskId = l.taskId := ht
    rw [hsame, hl] at hf
    cases hf

theorem Kept.releaseLease {u : Unit} (hend : ¬ MayEnd db l (.releaseLease taskId agentId))
    (h : db.releaseLease taskId agentId = .ok (u, db')) : Kept l db' := by
  obtain ⟨held, hheld, hagent, rfl⟩ := Db.releaseLease_ok h
  refine .of_update hl (fun _ => Db.releaseRow_taskLeases ..) (fun _ => rfl) fun hp => ?_
  have ht : l.taskId = taskId := by simpa using hp
  rw [Db.activeLease?, ← ht, hl] at hheld
  obtain rfl := Option.some.inj (Option.filter_eq_some_iff.mp hheld).1
  exact absurd ⟨ht.symm, hagent.symm⟩ hend

theorem Kept.releaseLeaseForTask {b : Bool}
    (hend : ¬ MayEnd db l (.releaseLeaseForTask taskId reason))
    (h : db.releaseLeaseForTask taskId reason = .ok (b, db')) : Kept l db' := by
  rcases Db.releaseLeaseForTask_ok h with ⟨held, -, -, rfl⟩ | ⟨-, -, rfl⟩
  · refine .of_update hl (fun _ => Db.releaseRow_taskLeases ..) (fun _ => rfl) fun hp => ?_
    have ht : l.taskId = taskId := by simpa using hp
    exact absurd ht.symm hend
  · exact .of_eq hl rfl

theorem Kept.releaseLeaseIfOwnerEpoch {epoch : UInt64} {b : Bool}
    (hend : ¬ MayEnd db l (.releaseLeaseIfOwnerEpoch taskId agentId epoch reason))
    (h : db.releaseLeaseIfOwnerEpoch taskId agentId epoch reason = .ok (b, db')) : Kept l db' := by
  rcases Db.releaseLeaseIfOwnerEpoch_ok h with ⟨held, -, -, -, -, -, rfl⟩ | ⟨-, -, rfl⟩
  · refine .of_update hl (fun _ => Db.releaseRow_taskLeases ..) (fun _ => rfl) fun hp => ?_
    simp only [Db.ownedAt, decide_eq_true_eq] at hp
    exact absurd ⟨hp.1.symm, hp.2.1.symm, hp.2.2.2.symm⟩ hend
  · exact .of_eq hl rfl

theorem Kept.heartbeat {u : Unit} (h : db.heartbeat id now = .ok (u, db')) : Kept l db' := by
  obtain ⟨a, -, -, hleases⟩ := Db.heartbeat_ok h
  unfold Kept
  rw [hleases]
  exact Kept.foldl_renewRow _ (.of_eq hl (Db.updateAgent_taskLeases ..))

theorem Kept.reclaimExpiredLeases {n : Nat} (hend : ¬ MayEnd db l (.reclaimExpiredLeases now))
    (h : db.reclaimExpiredLeases now = .ok (n, db')) : Kept l db' := by
  refine .of_update hl (fun _ => reclaimExpiredLeases_taskLeases h) (fun _ => rfl) fun hp => ?_
  simp only [Db.isExpired, decide_eq_true_eq] at hp
  exact absurd hp.2 hend

/-- `mark_stale` と `graceful_shutdown` の引き上げる lease は、その agent のものである。 -/
theorem Kept.of_retire {status : LeaseStatus} (hother : ¬ l.agentId = id)
    (h : ∀ hf, db'.taskLeases = db.taskLeases.update (Db.heldBy id)
      (fun l => { l with status := status }) hf) : Kept l db' := by
  refine .of_update hl h (fun _ => rfl) fun hp => ?_
  simp only [Db.heldBy, decide_eq_true_eq] at hp
  exact absurd hp.1 hother

theorem Kept.unregister {capture : Except StoreError Unit} {u : Unit} (hother : ¬ l.agentId = id)
    (h : db.unregister id capture = .ok (u, db')) : Kept l db' := by
  have hkept : Kept l (db.setLeaseStatus (fun l => l.agentId = id) .released) :=
    .of_update hl (fun _ => rfl) (fun _ => rfl) fun hp => absurd (by simpa using hp) hother
  rcases Db.unregister_ok h with ⟨-, rfl⟩ | ⟨-, rfl⟩
  · obtain ⟨l', hl', hsame⟩ := hkept
    refine ⟨l', ?_, hsame⟩
    rw [Db.deleteAgent, Table.find?_delete, hl', Option.filter_some, if_pos]
    simpa [hsame.agentId] using hother
  · exact hkept

theorem Kept.deleteTask {u : Unit} (hother : ¬ l.taskId = id) (h : db.deleteTask id = .ok (u, db')) :
    Kept l db' := by
  obtain ⟨-, hleases, -⟩ := Db.deleteTask_ok h
  refine ⟨l, ?_, .refl l⟩
  rw [hleases, Table.find?_delete, hl, Option.filter_some, if_pos]
  simpa using hother

end Operations

/-- **一歩。** 有効な lease は残るか、終わらせてよい操作で終わる。 -/
theorem kept_or_mayEnd (hl : db.taskLeases.find? l.taskId = some l) (hactive : l.status = .active)
    (op : AgentOp) : Kept l (agentStep db op).2 ∨ MayEnd db l op := by
  by_cases hend : MayEnd db l op
  · exact .inr hend
  refine .inl ?_
  rcases commit_snd_cases db (op.body db) with h | ⟨r, db', hb, h⟩
  · exact .of_eq hl (by rw [agentStep, h])
  rw [agentStep, h]
  cases op
  all_goals
    simp only [AgentOp.body, mapResult_eq_ok] at hb
    obtain ⟨u, hb, -⟩ := hb
  case register agent env capture rehomedAt => exact .of_eq hl (Db.register_taskLeases hb)
  case tryClaim taskId agentId durationSecs reason now => exact .tryClaim hl hactive hend hb
  case releaseLease taskId agentId => exact .releaseLease hl hend hb
  case releaseLeaseForTask taskId reason => exact .releaseLeaseForTask hl hend hb
  case releaseLeaseIfOwnerEpoch taskId agentId epoch reason =>
    exact .releaseLeaseIfOwnerEpoch hl hend hb
  case renewLease taskId agentId durationSecs now =>
    obtain ⟨held, -, -, hleases⟩ := Db.renewLease_ok hb
    exact .of_update hl (fun _ => hleases) (fun _ => rfl) fun _ => ⟨rfl, rfl, rfl, rfl⟩
  case heartbeat id now => exact .heartbeat hl hb
  case reclaimExpiredLeases now => exact .reclaimExpiredLeases hl hend hb
  case markStale id =>
    simp only [Db.markStale, Except.ok.injEq, Prod.mk.injEq] at hb
    rw [← hb.2]
    exact .of_retire hl (fun he => hend he.symm) fun _ => Db.retireLeases_taskLeases ..
  case gracefulShutdown id capture =>
    rw [Db.gracefulShutdown_ok hb]
    exact .of_retire hl (fun he => hend he.symm) fun _ => Db.retireLeases_taskLeases ..
  case unregister id capture => exact .unregister hl (fun he => hend he.symm) hb
  case deleteTask id => exact .deleteTask hl (fun he => hend he.symm) hb

/-- 終わらせてよい操作が来るまで、有効な lease は同じ agent の同じ世代のままである。 -/
theorem lease_ends_by_right (db : Db) (ops : List AgentOp) (l : TaskLease)
    (hl : db.taskLeases.find? l.taskId = some l) (hactive : l.status = .active) :
    Kept l (run agentStep db ops) ∨
    ∃ e ∈ trace agentStep db ops, ∃ l', e.before.taskLeases.find? l.taskId = some l' ∧ SameHold l l'
      ∧ MayEnd e.before l' e.op := by
  induction ops generalizing db l with
  | nil => exact .inl ⟨l, hl, .refl l⟩
  | cons op ops ih =>
    rcases kept_or_mayEnd hl hactive op with ⟨l', hl', hsame⟩ | hend
    · rw [← hsame.taskId] at hl'
      rcases ih (agentStep db op).2 l' hl' (hsame.status.trans hactive) with
        ⟨l'', hl'', hsame'⟩ | ⟨e, he, l'', hl'', hsame', hend⟩
      · exact .inl ⟨l'', by rw [← hsame.taskId]; exact hl'', hsame.trans hsame'⟩
      · exact .inr ⟨e, List.mem_cons_of_mem _ he, l'', by rw [← hsame.taskId, hl''], hsame.trans hsame', hend⟩
    · exact .inr ⟨⟨db, op, (agentStep db op).1⟩, List.mem_cons_self, l, hl, .refl l, hend⟩

end Ends

/-! ## 具体的な実行 -/

/-- 登録する agent。 -/
def worker (id : String) : Agent := { id, name := id, registeredAt := 0, lastHeartbeat := 0 }

/-- 取得、解放、別の agent による取得、古い世代を見せた解放。 -/
def handoverRun : List AgentOp :=
  [.register (worker "a") none (.ok ()) "", .register (worker "b") none (.ok ()) "",
    .tryClaim "t" "a" 600 none 0, .releaseLease "t" "a", .tryClaim "t" "b" 600 none 1,
    .releaseLeaseIfOwnerEpoch "t" "a" 1 "late"]

theorem lease_fencing_handoverRun : LeaseFencing {} handoverRun :=
  lease_fencing {} handoverRun (by decide)

/-- 取得した agent が登録を消して登録し直し、同じ task を取り直す。 -/
def reregisterRun : List AgentOp :=
  [.register (worker "a") none (.ok ()) "", .tryClaim "t" "a" 600 none 0,
    .unregister "a" (.ok ()), .register (worker "a") none (.ok ()) "",
    .tryClaim "t" "a" 600 none 1, .releaseLeaseIfOwnerEpoch "t" "a" 1 "late"]

/-- 世代 `epoch` で取得した lease。 -/
def leaseAt (epoch : UInt64) (now : Time) : TaskLease :=
  Db.claimedLease "t" "a" 600 none now epoch

/-- `a` の lease は、`a` の解放で終わる。 -/
theorem lease_ends_by_right_handoverRun :
    Kept (leaseAt 1 0) (run agentStep (run agentStep {} (handoverRun.take 3)) (handoverRun.drop 3)) ∨
    ∃ e ∈ trace agentStep (run agentStep {} (handoverRun.take 3)) (handoverRun.drop 3),
      ∃ l', e.before.taskLeases.find? (leaseAt 1 0).taskId = some l' ∧ SameHold (leaseAt 1 0) l'
        ∧ MayEnd e.before l' e.op :=
  lease_ends_by_right _ _ (leaseAt 1 0) (by decide) rfl

/--
登録を消すと世代は 1 から数え直される。

二度の取得がどちらも世代 1 を返し、最初の取得の `("a", 1)` を見せた解放が
二度目の取得の lease を解放してしまう。
-/
theorem unregister_breaks_fencing :
    ¬ LeaseFencing { tasks := Table.empty.insertOrIgnore { id := "t" } } reregisterRun
      ∧ (trace agentStep { tasks := Table.empty.insertOrIgnore { id := "t" } }
          reregisterRun).map Event.result
        = [.ok .unit, .ok (.claim (.success (leaseAt 1 0))), .ok .unit, .ok .unit,
          .ok (.claim (.success (leaseAt 1 1))), .ok (.bool true)] := by
  have hres : (trace agentStep { tasks := Table.empty.insertOrIgnore { id := "t" } }
      reregisterRun).map Event.result
        = [.ok .unit, .ok (.claim (.success (leaseAt 1 0))), .ok .unit, .ok .unit,
          .ok (.claim (.success (leaseAt 1 1))), .ok (.bool true)] := by decide
  refine ⟨fun h => ?_, hres⟩
  have hlt := List.pairwise_iff_getElem.mp h.increasing 1 4 (by decide)
    (by decide) (by decide) (leaseAt 1 0) (leaseAt 1 1)
    (by unfold ClaimEvent; decide) (by unfold ClaimEvent; decide) rfl
  exact absurd hlt (by decide)

end Cassy
