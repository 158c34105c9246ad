import Cassy.Infra.Run
import Cassy.Properties.AuthorityOps

/-!
# 検証の権限は一度きりで、古い権限は締め出される

検証と配達の操作をどう並べて実行しても次が成り立つことを示す。

* 割り当ての判定は高々一度。判定済みは無効化にしか進まず、無効化は戻らない
* 権限の消費は高々一度。消費するのは束縛された検証者で、割り当ては発行のときのもの
* 引き取りや無効化の後では、それより前に発行された権限は消費できない

どれも履歴の二つの出来事の間の関係なので、出来事が残した痕跡が消えないことを
`AuthorityStep` から引き、`trace_pairwise` で履歴の全体に広げる。
-/

namespace Cassy

open Infra

/-- 履歴の一項。 -/
abbrev ProofEvent := Event ProofState ProofOp (Except StoreError ProofRes)

namespace ProofOp

/-- 消費を求めた検証者。 -/
def consumer? : ProofOp → Option String
  | consumeCapability _ _ verifier _ _ _ => some verifier
  | consumeHandoff _ _ verifier _ _ => some verifier
  | _ => none

/-- 判定を求めた割り当て。 -/
def resolves? : ProofOp → Option String
  | resolveDispatch dispatchId _ _ _ _ => some dispatchId
  | _ => none

end ProofOp

namespace ProofEvent

/-- 判定に成功した割り当て。 -/
def resolved? (e : ProofEvent) : Option String :=
  match e.result with
  | .ok _ => e.op.resolves?
  | .error _ => none

/-- 発行された権限。 -/
def issued? (e : ProofEvent) : Option VerifierCapability :=
  match e.result with
  | .ok (.issued c) => some c
  | _ => none

/-- 束縛された権限。 -/
def bound? (e : ProofEvent) : Option VerifierCapability :=
  match e.result with
  | .ok (.bound c) => some c
  | _ => none

/-- 消費された権限。 -/
def consumed? (e : ProofEvent) : Option VerifierCapability :=
  match e.result with
  | .ok (.consumed c) => some c
  | _ => none

/-- 引き取られた割り当て。 -/
def adopted (e : ProofEvent) : List String :=
  match e.result with
  | .ok (.adopted ids) => ids
  | _ => []

/-- 操作の最後の時計の読み。 -/
def clock (e : ProofEvent) : Time := e.op.readings.getLastD e.before.clock

end ProofEvent

/-- 権限 `c` が、束縛された検証者によって、発行された割り当ての上で消費される。 -/
def Consumption (db : ProofDb) (verifier : String) (c : VerifierCapability) : Prop :=
  ∃ row d, db.capabilities.find? c.id = some row ∧ c = { row with consumedAt := c.consumedAt }
    ∧ row.consumedAt = none ∧ row.verifierAgentId = some verifier
    ∧ row.dispatchId = some d.id ∧ db.dispatches.find? d.id = some d
    ∧ d.capabilityId = some c.id ∧ d.verifierAgentId = some verifier
    ∧ (d.state = .claimed ∨ (d.state = .timedOut ∧ db.latestDispatch? d.taskId = some d))

/-! ## 操作の仕様 -/

section Specs

variable {H : Digests} {db db' : ProofDb} {op : ProofOp}
variable {c : VerifierCapability} {supervisorId : String} {deadOwners : List Agent}
  {retired : String → Option ProofDb.RetiredAgent}

theorem sweepExpiredHandoffs_dispatches {now : Time} :
    (db.sweepExpiredHandoffs now).dispatches = db.dispatches :=
  foldl_fixed (p := ProofDb.dispatches)
    (f := fun (db : ProofDb) (id : String) =>
      (db.deletePendingHandoff id).deleteUnboundCapability id)
    (fun _ _ => rfl) _ _

/-- 発行された権限は表に入り、その時点で `pending` の割り当てを指す。 -/
theorem issued_spec (h : op.body H db = .ok (.issued c, db')) :
    op.issuedAt? = some c.issuedAt ∧ c ∈ db'.capabilities.rows
      ∧ db'.dispatches = db.dispatches
      ∧ ∃ d, db.dispatches.find? d.id = some d ∧ c.dispatchId = some d.id ∧ d.state = .pending := by
  cases op with
  | issueCapability taskId issuer rid secret now issuedAt =>
    simp only [ProofOp.body, mapResult_eq_ok, ProofDb.issueVerifierCapability,
      ProofDb.insertCapability, bind_eq_ok, okOr_eq_ok, pure_eq_ok, Prod.mk.injEq] at h
    obtain ⟨r, ⟨d, hd, _, ⟨capabilities, hins, rfl⟩, rfl, rfl⟩, hr⟩ := h
    simp only [ProofRes.issued.injEq] at hr
    rw [Option.filter_eq_some_iff] at hd
    simp only [decide_eq_true_eq] at hd
    subst hr
    exact ⟨rfl, (Table.mem_insert? hins).mpr (Or.inr rfl), rfl, d,
      (ProofDb.latestDispatch?_mem hd.1).1, rfl, hd.2.1⟩
  | issueHandoff taskId dispatchId issuer toolUseId secret rid now =>
    simp only [ProofOp.body, mapResult_eq_ok, ProofDb.issueServerVerifierHandoff,
      ProofDb.insertCapability, ProofDb.insertHandoff, ProofDb.getDispatch, bind_eq_ok,
      ensure_eq_ok, okOr_eq_ok, pure_eq_ok, Prod.mk.injEq] at h
    obtain ⟨_, ⟨-, -, -, -, d, hd, -, ⟨-, -, hs, -⟩, _, ⟨_, hins, rfl⟩, _, ⟨-, -, _, -, rfl⟩,
      rfl, rfl⟩, hr⟩ := h
    simp only [ProofRes.issued.injEq] at hr
    rw [sweepExpiredHandoffs_dispatches] at hd
    subst hr
    refine ⟨rfl, (Table.mem_insert? hins).mpr (Or.inr rfl), sweepExpiredHandoffs_dispatches, d,
      ?_, rfl, hs⟩
    exact Table.find?_of_mem (Table.mem_of_find? hd)
  | external => simp [ProofOp.body] at h
  | _ => simp [ProofOp.body, mapResult_eq_ok] at h

/-- 消費の更新の後、その権限は使用済みである。 -/
theorem find?_consumed {t : Table VerifierCapability.id} {p : VerifierCapability → Bool}
    {at' : Time} (hf : ∀ c : VerifierCapability, { c with consumedAt := some at' }.id = c.id)
    (hcount : 0 < t.count p) {id : String} (hp : ∀ r, p r = true → r.id = id)
    {row : VerifierCapability} (hrow : t.find? id = some row) :
    ∃ row', (t.update p (fun c => { c with consumedAt := some at' }) hf).find? id = some row'
      ∧ row'.consumedAt.isSome := by
  rw [Table.find?_update, hrow, Option.map_some]
  refine ⟨_, rfl, ?_⟩
  rw [if_pos (Table.of_count_pos hcount hp hrow)]
  rfl

/-- 消費は、束縛された検証者が、権限の指す割り当ての上で行う。 -/
theorem consumed_spec (h : op.body H db = .ok (.consumed c, db')) :
    (∃ verifier, op.consumer? = some verifier ∧ Consumption db verifier c)
      ∧ ∃ row, db'.capabilities.find? c.id = some row ∧ row.consumedAt.isSome := by
  cases op with
  | consumeCapability token taskId verifier now now' consumedAt =>
    simp only [ProofOp.body, mapResult_eq_ok, ProofDb.consumeVerifierCapability,
      ProofDb.loadCapability, ProofDb.getDispatch, bind_eq_ok, ensure_eq_ok, okOr_eq_ok,
      pure_eq_ok, Prod.mk.injEq] at h
    obtain ⟨_, ⟨id, -, row, hrow, _, hdid, d, hd, -,
      ⟨htask, hv, hc, -, -, hs, hdv, hdc, -, -⟩, -, hcount, rfl, rfl⟩, hr⟩ := h
    simp only [ProofRes.consumed.injEq] at hr
    subst hr
    have hid : row.id = id := Table.key_of_find? hrow
    have hdid' : d.id = _ := Table.key_of_find? hd
    rw [← hid] at hrow
    refine ⟨⟨verifier, rfl, row, d, hrow, rfl, hc, hv, by rw [hdid, hdid'], ?_, hdc, hdv,
      Or.inl hs⟩, ?_⟩
    · exact Table.find?_of_mem (Table.mem_of_find? hd)
    · exact find?_consumed (fun _ => rfl) hcount.symm.le (fun r hr => by
        simp only [decide_eq_true_eq] at hr; exact hr.1.trans hid.symm) hrow
  | consumeHandoff capabilityId taskId verifier expected now =>
    simp only [ProofOp.body, mapResult_eq_ok, ProofDb.consumeServerHandoff,
      ProofDb.loadCapability, ProofDb.getDispatch, bind_eq_ok, ensure_eq_ok, okOr_eq_ok,
      pure_eq_ok, Prod.mk.injEq] at h
    obtain ⟨_, ⟨row, hrow, -, -, _, hdid, d, hd, -, hlate, -,
      ⟨htask, hv, hc, -, hdt, hs, hdv, hdc, -, -⟩, db₁, hrev, -, hcount, -, -, rfl, rfl⟩, hr⟩ := h
    simp only [ProofRes.consumed.injEq] at hr
    subst hr
    have hid : row.id = capabilityId := Table.key_of_find? hrow
    have hdid' : d.id = _ := Table.key_of_find? hd
    rw [← hid] at hrow
    have hcaps : db₁.capabilities = db.capabilities := by
      unfold ProofDb.reviveTimedOut at hrev
      split at hrev
      · simp only [bind_eq_ok, ensure_eq_ok, pure_eq_ok] at hrev
        obtain ⟨-, -, rfl⟩ := hrev
        rfl
      · rw [← Except.ok.inj hrev]
    have hstate : d.state = .claimed
        ∨ (d.state = .timedOut ∧ db.latestDispatch? d.taskId = some d) := by
      rcases hs with hs | hs
      · -- 遅れた判定は、期待した割り当てが最新のままであることを確かめている
        obtain ⟨expected', rfl, hcur⟩ := (Option.any_eq_true _ _).mp hs
        simp only [ProofDb.isLateCurrent, decide_eq_true_eq] at hcur
        rcases hcur.2.2.1 with hclaimed | htimed
        · exact Or.inl hclaimed
        · obtain ⟨-, hlatest⟩ := hlate rfl
          obtain ⟨current, hcurrent, hcid⟩ := (Option.any_eq_true _ _).mp hlatest
          have hmem := ProofDb.latestDispatch?_mem hcurrent
          have : current = d := Table.eq_of_key (Table.mem_of_find? hmem.1)
            (Table.mem_of_find? hd) (by simpa using hcid)
          exact Or.inr ⟨htimed, by rw [hdt, ← this]; exact hcurrent⟩
      · exact Or.inl hs
    refine ⟨⟨verifier, rfl, row, d, hrow, rfl, hc, hv, by rw [hdid, hdid'], ?_, hdc, hdv,
      hstate⟩, ?_⟩
    · exact Table.find?_of_mem (Table.mem_of_find? hd)
    · rw [← hcaps] at hrow
      exact find?_consumed (fun _ => rfl) hcount.symm.le (fun r hr => by
        simp only [decide_eq_true_eq] at hr; exact hr.1) hrow
  | external => simp [ProofOp.body] at h
  | _ => simp [ProofOp.body, mapResult_eq_ok] at h

/-- 判定は、判定の前の割り当てを判定済みにする。 -/
theorem resolved_spec {r : ProofRes} {id : String} (h : op.body H db = .ok (r, db'))
    (hop : op.resolves? = some id) :
    (∃ d, db.dispatches.find? id = some d ∧ d.state ≠ .resolved ∧ d.state ≠ .invalidated)
      ∧ ∃ d', db'.dispatches.find? id = some d' ∧ d'.state = .resolved := by
  cases op with
  | resolveDispatch dispatchId verifier capabilityId direct now =>
    simp only [ProofOp.resolves?, Option.some.injEq] at hop
    subst hop
    simp only [ProofOp.body, mapResult_eq_ok, ProofDb.resolveDispatch, ProofDb.getDispatch,
      bind_eq_ok, ensure_eq_ok, okOr_eq_ok, pure_eq_ok, Prod.mk.injEq] at h
    obtain ⟨_, ⟨d, hd, -, -, -, hcount, d', hd', rfl, rfl⟩, -⟩ := h
    have hid : d.id = dispatchId := Table.key_of_find? hd
    rw [← hid] at hd hd'
    have hun : ProofDb.isUnresolved d = true := by
      have := Table.of_count_pos hcount.symm.le (fun r hr => by simpa using (And.left (by
        simpa using hr) : r.id = d.id)) hd
      simpa using this
    refine ⟨⟨d, hid ▸ hd, ?_⟩, d', hid ▸ hd', ?_⟩
    · simp only [ProofDb.isUnresolved, decide_eq_true_eq] at hun
      rcases hun with h | h | h <;> simp [h]
    · simp only [ProofDb.updateDispatch, Table.find?_update, hd, Option.map_some,
        Option.some.injEq] at hd'
      rw [← hd']
      simp [hun]
  | _ => simp [ProofOp.resolves?] at hop

/-- 束縛の更新の後に読み直した権限は、検証者を持つ。 -/
theorem find?_bound {t : Table VerifierCapability.id} {p : VerifierCapability → Bool}
    {f : VerifierCapability → VerifierCapability} (hf : ∀ c, (f c).id = c.id)
    (hv : ∀ c, (f c).verifierAgentId.isSome) (hcount : 0 < t.count p) {id : String}
    (hp : ∀ r, p r = true → r.id = id) (hc : (t.update p f hf).find? id = some c) :
    (t.update p f hf).find? c.id = some c ∧ c.verifierAgentId.isSome := by
  refine ⟨Table.find?_of_mem (Table.mem_of_find? hc), ?_⟩
  rw [Table.find?_update, Option.map_eq_some_iff] at hc
  obtain ⟨row, hrow, rfl⟩ := hc
  rw [if_pos (Table.of_count_pos hcount hp hrow)]
  exact hv row

theorem bindServerHandoffWithConn_bound {issuer verifier : String} {now : Time}
    (h : db.bindServerHandoffWithConn issuer verifier now = .ok (c, db')) :
    db'.capabilities.find? c.id = some c ∧ c.verifierAgentId.isSome := by
  simp only [ProofDb.bindServerHandoffWithConn, ProofDb.loadCapability, bind_eq_ok, ensure_eq_ok,
    okOr_eq_ok, pure_eq_ok, Prod.mk.injEq] at h
  obtain ⟨id, -, row, -, -, -, _, -, d, -, -, -, -, hcount, -, -, -, -, c', hc', rfl, rfl⟩ := h
  refine find?_bound
    (f := fun c => { c with verifierAgentId := some verifier, boundAt := some now })
    (fun _ => rfl) (fun _ => rfl) hcount.symm.le (fun r hr => ?_) hc'
  simp only [decide_eq_true_eq] at hr
  exact hr.1

/-- 束縛された権限は、検証者つきで表にある。 -/
theorem bound_spec (h : op.body H db = .ok (.bound c, db')) :
    db'.capabilities.find? c.id = some c ∧ c.verifierAgentId.isSome := by
  cases op with
  | bindCapability token verifier now now' boundAt =>
    simp only [ProofOp.body, mapResult_eq_ok, ProofDb.bindVerifierCapability,
      ProofDb.loadCapability, bind_eq_ok, ensure_eq_ok, okOr_eq_ok, pure_eq_ok, Prod.mk.injEq,
      ProofRes.bound.injEq] at h
    obtain ⟨_, ⟨id, -, _, -, _, -, _, -, -, -, -, hcount, c', hc', rfl, rfl⟩, rfl⟩ := h
    refine find?_bound
      (f := fun c => { c with verifierAgentId := some verifier, boundAt := some boundAt })
      (fun _ => rfl) (fun _ => rfl) hcount.symm.le (fun r hr => ?_) hc'
    simp only [decide_eq_true_eq] at hr
    exact hr.1
  | bindHandoff issuer verifier now =>
    simp only [ProofOp.body, mapResult_eq_ok, ProofDb.bindServerVerifierHandoff, bind_eq_ok,
      ProofRes.bound.injEq] at h
    obtain ⟨_, ⟨-, -, hb⟩, rfl⟩ := h
    exact bindServerHandoffWithConn_bound hb
  | bindHandoffAndRegister issuer child env capture rehomedAt now =>
    simp only [ProofOp.body, mapResult_eq_ok, ProofDb.bindServerHandoffAndRegisterChild,
      bind_eq_ok, ensure_eq_ok, pure_eq_ok, Prod.mk.injEq, ProofRes.bound.injEq] at h
    obtain ⟨_, ⟨-, -, -, -, -, -, -, -, ⟨_, _⟩, hb, _, -, rfl, rfl⟩, rfl⟩ := h
    have := bindServerHandoffWithConn_bound hb
    exact this
  | external => simp [ProofOp.body] at h
  | _ => simp [ProofOp.body, mapResult_eq_ok] at h

/-! ### 引き取り -/

/-- 引き取った割り当ての権限は、すべて使用済みになる。 -/
theorem adoptOne_retires {machine session : String} {deadlineAt now : Time} {id : String}
    (h : db.adoptOne supervisorId machine session deadOwners retired deadlineAt now id
      = .ok (true, db')) :
    ∀ c ∈ db'.capabilities.rows, c.dispatchId = some id → c.consumedAt.isSome := by
  simp only [ProofDb.adoptOne, bind_eq_ok] at h
  obtain ⟨dispatch, -, h⟩ := h
  split at h
  · simp only [bind_eq_ok, ensure_eq_ok, pure_eq_ok, Prod.mk.injEq] at h
    obtain ⟨-, -, -, rfl⟩ := h
    intro c hc hcid
    obtain ⟨c₀, -, rfl⟩ := List.mem_map.mp hc
    split at hcid
    · next hp =>
      rw [if_pos hp]
      simp [ProofDb.retireCapability]
    · next hp => exact absurd (decide_eq_true hcid) hp
  · simp at h

/-- 引き取りは権限の行を消さない。 -/
theorem adoptOne_carries {machine session : String} {deadlineAt now : Time} {id : String} {b : Bool}
    (h : db.adoptOne supervisorId machine session deadOwners retired deadlineAt now id
      = .ok (b, db')) : ∀ c ∈ db.capabilities.rows, ∃ c' ∈ db'.capabilities.rows, c.Carries c' := by
  simp only [ProofDb.adoptOne, bind_eq_ok] at h
  obtain ⟨dispatch, -, h⟩ := h
  split at h
  · simp only [bind_eq_ok, ensure_eq_ok, pure_eq_ok, Prod.mk.injEq] at h
    obtain ⟨-, -, -, rfl⟩ := h
    intro c hc
    refine ⟨_, List.mem_map.mpr ⟨c, hc, rfl⟩, ?_⟩
    split
    · exact ProofDb.retireCapability_carries now c
    · exact .refl c
  · cases h
    exact fun c hc => ⟨c, hc, .refl c⟩

theorem adoptAll_carries {machine session : String} {deadlineAt now : Time}
    {ids taken : List String}
    (h : ProofDb.adoptAll db supervisorId machine session deadOwners retired deadlineAt now ids
      = .ok (taken, db')) :
    ∀ c ∈ db.capabilities.rows, ∃ c' ∈ db'.capabilities.rows, c.Carries c' := by
  induction ids generalizing db taken with
  | nil =>
    simp only [ProofDb.adoptAll, Except.ok.injEq, Prod.mk.injEq] at h
    rw [← h.2]
    exact fun c hc => ⟨c, hc, .refl c⟩
  | cons id rest ih =>
    simp only [ProofDb.adoptAll, bind_eq_ok, pure_eq_ok, Prod.mk.injEq] at h
    obtain ⟨⟨b, db₁⟩, hone, ⟨ids', db₂⟩, hrest, -, rfl⟩ := h
    intro c hc
    obtain ⟨c₁, hc₁, hcar⟩ := adoptOne_carries hone c hc
    obtain ⟨c₂, hc₂, hcar'⟩ := ih hrest c₁ hc₁
    exact ⟨c₂, hc₂, hcar.trans hcar'⟩

theorem adoptAll_retires {machine session : String} {deadlineAt now : Time}
    {ids taken : List String}
    (hopen : ∀ id ∈ ids, ∀ d, db.dispatches.find? id = some d → ProofDb.isUnresolved d = true)
    (h : ProofDb.adoptAll db supervisorId machine session deadOwners retired deadlineAt now ids
      = .ok (taken, db')) :
    ∀ id ∈ taken, ∀ c ∈ db'.capabilities.rows, c.dispatchId = some id → c.consumedAt.isSome := by
  induction ids generalizing db taken with
  | nil =>
    simp only [ProofDb.adoptAll, Except.ok.injEq, Prod.mk.injEq] at h
    simp [← h.1]
  | cons id rest ih =>
    simp only [ProofDb.adoptAll, bind_eq_ok, pure_eq_ok, Prod.mk.injEq] at h
    obtain ⟨⟨b, db₁⟩, hone, ⟨ids', db₂⟩, hrest, htaken, rfl⟩ := h
    have hopen' : ∀ k ∈ rest, ∀ d, db₁.dispatches.find? k = some d →
        ProofDb.isUnresolved d = true := fun k hk =>
      ProofDb.adoptOne_unresolved hone (hopen k (List.mem_cons_of_mem _ hk))
    have hih := ih hopen' hrest
    intro k hk c hc hck
    rw [← htaken] at hk
    split at hk
    · next hb =>
      rcases List.mem_cons.mp hk with rfl | hk
      · -- 先に引き取った割り当ての権限は、後の引き取りでも使用済みのままである
        have hstep : AuthorityStep (fun _ => False) (fun _ => False) db₁ db₂ :=
          ProofDb.adoptAll_step hopen' hrest
        obtain ⟨c₁, hc₁, hcar⟩ := (hstep.capability_from c hc).resolve_left id
        simp only at hb
        subst hb
        have hs := adoptOne_retires hone c₁ hc₁ (hcar.dispatchId_eq ▸ hck)
        rw [hcar.consumed_eq hs]
        exact hs
      · exact hih k hk c hc hck
    · exact hih k hk c hc hck

/-- 引き取られた割り当ての権限は、残らず使用済みになる。 -/
theorem adopted_spec {ids : List String} (h : op.body H db = .ok (.adopted ids, db')) :
    ∀ id ∈ ids, (∀ c ∈ db'.capabilities.rows, c.dispatchId = some id → c.consumedAt.isSome)
      ∧ ∀ c ∈ db.capabilities.rows, c.dispatchId = some id →
        ∃ c' ∈ db'.capabilities.rows, c'.id = c.id ∧ c'.consumedAt.isSome := by
  cases op with
  | adoptOrphaned supervisorId deadOwners deadlineAt localMachine retired now =>
    simp only [ProofOp.body, mapResult_eq_ok, ProofRes.adopted.injEq] at h
    obtain ⟨_, h, rfl⟩ := h
    unfold ProofDb.adoptOrphanedDispatches at h
    split at h
    · simp only [Except.ok.injEq, Prod.mk.injEq] at h
      simp [← h.1]
    · intro id hid
      have hret := adoptAll_retires ProofDb.orphanCandidates_unresolved h id hid
      refine ⟨hret, fun c hc hcid => ?_⟩
      obtain ⟨c', hc', hcar⟩ := adoptAll_carries h c hc
      exact ⟨c', hc', hcar.id_eq, hret c' hc' (hcar.dispatchId_eq.trans hcid)⟩
  | external => simp [ProofOp.body] at h
  | _ => simp [ProofOp.body, mapResult_eq_ok] at h

end Specs

/-! ## 一歩 -/

section Steps

variable {H : Digests} {s : ProofState} {op : ProofOp}

theorem proofStep_ok {r : ProofRes} (h : (proofStep H s op).1 = .ok r) :
    op.body H s.db = .ok (r, (proofStep H s op).2.db) := commit_fst_ok h

/-- 一歩は権限の一歩である。落ちた操作は何もしない。 -/
theorem proofStep_authority (H : Digests) (s : ProofState) (op : ProofOp) :
    AuthorityStep (fun c => ∃ db', op.body H s.db = .ok (.issued c, db'))
      (fun id => op.invalidates? s.db = some id) s.db (proofStep H s op).2.db := by
  rcases commit_snd_cases s.db (op.body H s.db) with heq | ⟨r, db', hb, heq⟩
  · have : (proofStep H s op).2.db = s.db := heq
    rw [this]
    exact .refl
  · have : (proofStep H s op).2.db = db' := heq
    rw [this]
    refine (ProofOp.body_step hb).mono fun c hc => ?_
    cases r with
    | issued c' =>
      simp only [ProofRes.Issues] at hc
      exact ⟨db', hc ▸ hb⟩
    | _ => exact hc.elim

theorem Ticks.le_clock (h : Ticks s op) : s.clock ≤ (proofStep H s op).2.clock := by
  change s.clock ≤ op.readings.getLastD s.clock
  cases hr : op.readings.getLast? with
  | none =>
    rw [List.getLast?_eq_none_iff] at hr
    rw [hr]
    exact le_refl _
  | some t =>
    rw [List.getLastD_eq_getLast?, hr, Option.getD_some]
    exact (List.pairwise_cons.mp h.1).1 t (List.mem_of_getLast? hr)

/-- 発行の時刻は、その操作の最後の時計の読みである。 -/
theorem issuedAt_eq_clock {t : Time} (h : op.issuedAt? = some t) :
    (proofStep H s op).2.clock = t := by
  change op.readings.getLastD s.clock = t
  cases op with
  | issueCapability => simpa [ProofOp.issuedAt?, ProofOp.readings] using h
  | issueHandoff => simpa [ProofOp.issuedAt?, ProofOp.readings] using h
  | _ => simp [ProofOp.issuedAt?] at h

/-- 一歩の後の権限は、前からあったか、前の時計より真に後に発行されたかである。 -/
theorem capability_after (htick : Ticks s op) {c' : VerifierCapability}
    (hc' : c' ∈ (proofStep H s op).2.db.capabilities.rows) :
    (s.clock < c'.issuedAt) ∨ ∃ c ∈ s.db.capabilities.rows, c.Carries c' := by
  rcases (proofStep_authority H s op).capability_from c' hc' with ⟨db', hb⟩ | hold
  · exact Or.inl (htick.2 _ (issued_spec hb).1)
  · exact Or.inr hold

/-- 使用済みの権限は使用済みのままである。 -/
theorem consumed_after {id : String} {c : VerifierCapability}
    (hc : s.db.capabilities.find? id = some c) (hs : c.consumedAt.isSome) :
    ∃ c', (proofStep H s op).2.db.capabilities.find? id = some c' ∧ c'.consumedAt.isSome := by
  obtain ⟨hmem, hid⟩ := Table.find?_eq_some_iff.mp hc
  have hun : ProofDb.isUnbound c = false := by
    simp [ProofDb.isUnbound, Option.isSome_iff_ne_none.mp hs]
  obtain ⟨c', hc', hcar⟩ := (proofStep_authority H s op).capability_kept c hmem hun
  refine ⟨c', Table.find?_eq_some_iff.mpr ⟨hc', hcar.id_eq.trans hid⟩, ?_⟩
  rw [hcar.consumed_eq hs]
  exact hs

/-- 束縛された権限は、同じ検証者に束縛されたままである。 -/
theorem bound_after (H : Digests) (op : ProofOp) {id verifier : String} {c : VerifierCapability}
    (hc : s.db.capabilities.find? id = some c) (hv : c.verifierAgentId = some verifier) :
    ∃ c', (proofStep H s op).2.db.capabilities.find? id = some c'
      ∧ c'.verifierAgentId = some verifier := by
  obtain ⟨hmem, hid⟩ := Table.find?_eq_some_iff.mp hc
  have hun : ProofDb.isUnbound c = false := by simp [ProofDb.isUnbound, hv]
  obtain ⟨c', hc', hcar⟩ := (proofStep_authority H s op).capability_kept c hmem hun
  refine ⟨c', Table.find?_eq_some_iff.mpr ⟨hc', hcar.id_eq.trans hid⟩, ?_⟩
  rw [hcar.verifier_eq (by simp [hv]), hv]

/-- 割り当ては、たどれる向きにしか動かない。 -/
theorem dispatch_after (H : Digests) (op : ProofOp) {id : String} {d : VerificationDispatch}
    (hd : s.db.dispatches.find? id = some d) :
    ∃ d', (proofStep H s op).2.db.dispatches.find? id = some d' ∧ d.state.Leads d'.state := by
  obtain ⟨hmem, hid⟩ := Table.find?_eq_some_iff.mp hd
  obtain ⟨d', hd', hid', hl⟩ := (proofStep_authority H s op).dispatch_kept d hmem
  exact ⟨d', Table.find?_eq_some_iff.mpr ⟨hd', hid'.trans hid⟩, hl⟩

end Steps

/-! ## 実行の全体 -/

open ProofEvent in
/-- 検証の権限が一度きりで、古い権限が締め出されていること。 -/
structure SingleUse (H : Digests) (s : ProofState) (ops : List ProofOp) : Prop where
  /-- 一つの割り当ての判定は高々一度。 -/
  resolved_once : (trace (proofStep H) s ops).Pairwise fun e e' =>
    ∀ id, resolved? e = some id → resolved? e' ≠ some id
  /-- 判定済みは無効化にしか、無効化はどこにも進まない。 -/
  dispatch_leads : ∀ pre mid, pre ++ mid <+: ops → ∀ id d,
    (run (proofStep H) s pre).db.dispatches.find? id = some d →
      ∃ d', (run (proofStep H) s (pre ++ mid)).db.dispatches.find? id = some d'
        ∧ d.state.Leads d'.state
  /-- 一つの権限の消費は高々一度。 -/
  consumed_once : (trace (proofStep H) s ops).Pairwise fun e e' =>
    ∀ c c', consumed? e = some c → consumed? e' = some c' → c'.id ≠ c.id
  /-- 消費するのは束縛された検証者で、権限の指す割り当ての上である。 -/
  consumed_by_bound : ∀ e ∈ trace (proofStep H) s ops, ∀ c, consumed? e = some c →
    ∃ verifier, e.op.consumer? = some verifier ∧ Consumption e.before.db verifier c
  /-- 束縛の操作が名指した検証者だけが消費できる。 -/
  consumed_by_binder : (trace (proofStep H) s ops).Pairwise fun e e' =>
    ∀ c c', bound? e = some c → consumed? e' = some c' → c'.id = c.id →
      e'.op.consumer? = c.verifierAgentId
  /-- 消費のときの割り当ては、発行のときの割り当てである。 -/
  consumed_on_issued : (trace (proofStep H) s ops).Pairwise fun e e' =>
    ∀ c c', issued? e = some c → consumed? e' = some c' → c'.id = c.id →
      c'.issuedAt = c.issuedAt → c'.dispatchId = c.dispatchId
  /-- 引き取りの後に消費されるのは、引き取りより後に発行された権限だけである。 -/
  adopted_fences : (trace (proofStep H) s ops).Pairwise fun e e' =>
    ∀ id ∈ adopted e, ∀ c, consumed? e' = some c → c.dispatchId = some id →
      clock e < c.issuedAt
        ∧ ∀ r ∈ e.before.db.capabilities.rows, r.dispatchId = some id → r.id ≠ c.id
  /-- 無効化された割り当ての権限は消費されない。 -/
  invalidated_fences : (trace (proofStep H) s ops).Pairwise fun e e' =>
    ∀ id d, (proofStep H e.before e.op).2.db.dispatches.find? id = some d →
      d.state = .invalidated → ∀ c, consumed? e' = some c → c.dispatchId ≠ some id

section Runs

open ProofEvent

variable {H : Digests} {s : ProofState} {ops : List ProofOp}

theorem consumed?_eq_some {s : ProofState} {op : ProofOp} {c : VerifierCapability}
    (h : consumed? ⟨s, op, (proofStep H s op).1⟩ = some c) :
    op.body H s.db = .ok (.consumed c, (proofStep H s op).2.db) := by
  simp only [consumed?] at h
  split at h
  · next c' hr =>
    rw [← Option.some.inj h]
    exact proofStep_ok hr
  · simp at h

theorem resolved?_eq_some {s : ProofState} {op : ProofOp} {id : String}
    (h : resolved? ⟨s, op, (proofStep H s op).1⟩ = some id) :
    ∃ r, op.body H s.db = .ok (r, (proofStep H s op).2.db) ∧ op.resolves? = some id := by
  simp only [resolved?] at h
  split at h
  · next r hr => exact ⟨r, proofStep_ok hr, h⟩
  · simp at h

theorem issued?_eq_some {s : ProofState} {op : ProofOp} {c : VerifierCapability}
    (h : issued? ⟨s, op, (proofStep H s op).1⟩ = some c) :
    op.body H s.db = .ok (.issued c, (proofStep H s op).2.db) := by
  simp only [issued?] at h
  split at h
  · next c' hr =>
    rw [← Option.some.inj h]
    exact proofStep_ok hr
  · simp at h

theorem bound?_eq_some {s : ProofState} {op : ProofOp} {c : VerifierCapability}
    (h : bound? ⟨s, op, (proofStep H s op).1⟩ = some c) :
    op.body H s.db = .ok (.bound c, (proofStep H s op).2.db) := by
  simp only [bound?] at h
  split at h
  · next c' hr =>
    rw [← Option.some.inj h]
    exact proofStep_ok hr
  · simp at h

theorem mem_adopted {s : ProofState} {op : ProofOp} {id : String}
    (h : id ∈ adopted ⟨s, op, (proofStep H s op).1⟩) :
    ∃ ids, op.body H s.db = .ok (.adopted ids, (proofStep H s op).2.db) ∧ id ∈ ids := by
  simp only [adopted] at h
  split at h
  · next ids hr => exact ⟨ids, proofStep_ok hr, h⟩
  · simp at h

section Pairs

variable (hg : Guarded (proofStep H) Ticks s ops)
include hg

/-- 判定の痕跡は、割り当てが判定済みか無効化であること。 -/
theorem resolved_pairwise :
    (trace (proofStep H) s ops).Pairwise fun e e' =>
      ∀ id, resolved? e = some id → resolved? e' ≠ some id := by
  refine trace_pairwise (I := fun _ => True) (g := Ticks)
    (P := fun e s => ∀ id, resolved? e = some id → ∃ d, s.db.dispatches.find? id = some d
      ∧ (d.state = .resolved ∨ d.state = .invalidated))
    (fun _ _ _ _ => trivial) ?_ ?_ ?_ trivial hg
  · intro s op _ _ id he
    obtain ⟨r, hb, hop⟩ := resolved?_eq_some he
    obtain ⟨-, d', hd', hs⟩ := resolved_spec hb hop
    exact ⟨d', hd', Or.inl hs⟩
  · intro e s op _ _ hp id he
    obtain ⟨d, hd, hs⟩ := hp id he
    obtain ⟨d', hd', hl⟩ := dispatch_after H op hd
    refine ⟨d', hd', ?_⟩
    rcases hs with hs | hs
    · exact hl.1 hs
    · exact Or.inr (hl.2 hs)
  · intro e s op _ _ hp id he he'
    obtain ⟨d, hd, hs⟩ := hp id he
    obtain ⟨r, hb, hop⟩ := resolved?_eq_some he'
    obtain ⟨⟨d', hd', hr, hi⟩, -⟩ := resolved_spec hb hop
    rw [hd] at hd'
    rw [← Option.some.inj hd'] at hr hi
    exact hs.elim hr hi

/-- 消費の痕跡は、権限が使用済みであること。 -/
theorem consumed_pairwise :
    (trace (proofStep H) s ops).Pairwise fun e e' =>
      ∀ c c', consumed? e = some c → consumed? e' = some c' → c'.id ≠ c.id := by
  refine trace_pairwise (I := fun _ => True) (g := Ticks)
    (P := fun e s => ∀ c, consumed? e = some c →
      ∃ row, s.db.capabilities.find? c.id = some row ∧ row.consumedAt.isSome)
    (fun _ _ _ _ => trivial) ?_ ?_ ?_ trivial hg
  · intro s op _ _ c he
    exact (consumed_spec (consumed?_eq_some he)).2
  · intro e s op _ _ hp c he
    obtain ⟨row, hrow, hs⟩ := hp c he
    exact consumed_after hrow hs
  · intro e s op _ _ hp c c' he he' hid
    obtain ⟨row, hrow, hs⟩ := hp c he
    obtain ⟨verifier, -, row', d, hrow', -, hn, -⟩ := (consumed_spec (consumed?_eq_some he')).1
    rw [hid, hrow] at hrow'
    rw [Option.some.inj hrow', hn] at hs
    simp at hs

/-- 束縛の痕跡は、権限がその検証者に束縛されていること。 -/
theorem binder_pairwise :
    (trace (proofStep H) s ops).Pairwise fun e e' =>
      ∀ c c', bound? e = some c → consumed? e' = some c' → c'.id = c.id →
        e'.op.consumer? = c.verifierAgentId := by
  refine trace_pairwise (I := fun _ => True) (g := Ticks)
    (P := fun e s => ∀ c, bound? e = some c → ∃ row verifier, c.verifierAgentId = some verifier
      ∧ s.db.capabilities.find? c.id = some row ∧ row.verifierAgentId = some verifier)
    (fun _ _ _ _ => trivial) ?_ ?_ ?_ trivial hg
  · intro s op _ _ c he
    obtain ⟨hfind, hv⟩ := bound_spec (bound?_eq_some he)
    obtain ⟨verifier, hv⟩ := Option.isSome_iff_exists.mp hv
    exact ⟨c, verifier, hv, hfind, hv⟩
  · intro e s op _ _ hp c he
    obtain ⟨row, verifier, hv, hrow, hrv⟩ := hp c he
    obtain ⟨row', hrow', hrv'⟩ := bound_after H op hrow hrv
    exact ⟨row', verifier, hv, hrow', hrv'⟩
  · intro e s op _ _ hp c c' he he' hid
    obtain ⟨row, verifier, hv, hrow, hrv⟩ := hp c he
    obtain ⟨verifier', hop, row', d, hrow', -, -, hrv', -⟩ :=
      (consumed_spec (consumed?_eq_some he')).1
    rw [hid, hrow] at hrow'
    rw [Option.some.inj hrow', hrv'] at hrv
    rw [hop, hrv, hv]

/-- 発行の痕跡は、同じ id と同じ発行時刻の行が同じ割り当てを指すこと。 -/
theorem issued_pairwise :
    (trace (proofStep H) s ops).Pairwise fun e e' =>
      ∀ c c', issued? e = some c → consumed? e' = some c' → c'.id = c.id →
        c'.issuedAt = c.issuedAt → c'.dispatchId = c.dispatchId := by
  refine trace_pairwise (I := fun _ => True) (g := Ticks)
    (P := fun e s => ∀ c, issued? e = some c → c.issuedAt ≤ s.clock
      ∧ ∀ row ∈ s.db.capabilities.rows, row.id = c.id → row.issuedAt = c.issuedAt →
        row.dispatchId = c.dispatchId)
    (fun _ _ _ _ => trivial) ?_ ?_ ?_ trivial hg
  · intro s op _ htick c he
    have hb := issued?_eq_some he
    obtain ⟨hat', hmem, -⟩ := issued_spec hb
    refine ⟨(issuedAt_eq_clock hat').ge, fun row hrow hid _ => ?_⟩
    rw [Table.eq_of_key hrow hmem hid]
  · intro e s op _ htick hp c he
    obtain ⟨hle, hrows⟩ := hp c he
    refine ⟨hle.trans htick.le_clock, fun row hrow hid hat => ?_⟩
    rcases capability_after htick hrow with hlt | ⟨c₀, hc₀, hcar⟩
    · exact absurd (hat ▸ hlt) (not_lt.mpr hle)
    · rw [hcar.dispatchId_eq]
      exact hrows c₀ hc₀ (hcar.id_eq ▸ hid) (hcar.issuedAt_eq ▸ hat)
  · intro e s op _ _ hp c c' he he' hid hat
    obtain ⟨-, hrows⟩ := hp c he
    obtain ⟨verifier, -, row, d, hrow, hc', -⟩ := (consumed_spec (consumed?_eq_some he')).1
    obtain ⟨hmem, hrid⟩ := Table.find?_eq_some_iff.mp hrow
    rw [hc'] at hat ⊢
    exact hrows row hmem (hrid.trans hid) hat

/-- 引き取りの痕跡は、前からの権限が残らず使用済みで、新しい権限は後の時刻を持つこと。 -/
theorem adopted_pairwise :
    (trace (proofStep H) s ops).Pairwise fun e e' =>
      ∀ id ∈ adopted e, ∀ c, consumed? e' = some c → c.dispatchId = some id →
        clock e < c.issuedAt
          ∧ ∀ r ∈ e.before.db.capabilities.rows, r.dispatchId = some id → r.id ≠ c.id := by
  refine trace_pairwise (I := fun _ => True) (g := Ticks)
    (P := fun e s => ∀ id ∈ adopted e, clock e ≤ s.clock
      ∧ (∀ row ∈ s.db.capabilities.rows, row.dispatchId = some id →
        row.consumedAt.isSome ∨ clock e < row.issuedAt)
      ∧ ∀ r ∈ e.before.db.capabilities.rows, r.dispatchId = some id →
        ∃ row, s.db.capabilities.find? r.id = some row ∧ row.consumedAt.isSome)
    (fun _ _ _ _ => trivial) ?_ ?_ ?_ trivial hg
  · intro s op _ _ id he
    obtain ⟨ids, hb, hid⟩ := mem_adopted he
    obtain ⟨hrow, hold⟩ := adopted_spec hb id hid
    refine ⟨le_refl _, fun row hmem hd => Or.inl (hrow row hmem hd), fun r hr hd => ?_⟩
    obtain ⟨c', hc', hcid, hs⟩ := hold r hr hd
    exact ⟨c', Table.find?_eq_some_iff.mpr ⟨hc', hcid⟩, hs⟩
  · intro e s op _ htick hp id he
    obtain ⟨hle, hrows, hold⟩ := hp id he
    refine ⟨hle.trans htick.le_clock, fun row hrow hd => ?_, fun r hr hd => ?_⟩
    · rcases capability_after htick hrow with hlt | ⟨c₀, hc₀, hcar⟩
      · exact Or.inr (hle.trans_lt hlt)
      · rcases hrows c₀ hc₀ (hcar.dispatchId_eq ▸ hd) with hs | hlt
        · exact Or.inl (by rw [hcar.consumed_eq hs]; exact hs)
        · exact Or.inr (by rw [hcar.issuedAt_eq]; exact hlt)
    · obtain ⟨row, hrow, hs⟩ := hold r hr hd
      exact consumed_after hrow hs
  · intro e s op _ _ hp id he c he' hd
    obtain ⟨-, hrows, hold⟩ := hp id he
    obtain ⟨verifier, -, row, d, hrow, hc, hn, -⟩ := (consumed_spec (consumed?_eq_some he')).1
    obtain ⟨hmem, hrid⟩ := Table.find?_eq_some_iff.mp hrow
    rw [hc] at hd
    constructor
    · rw [hc]
      rcases hrows row hmem hd with hs | hlt
      · simp [hn] at hs
      · exact hlt
    · intro r hr hrd hrc
      obtain ⟨row', hrow', hs⟩ := hold r hr hrd
      rw [hrc, hrow] at hrow'
      rw [← Option.some.inj hrow', hn] at hs
      simp at hs

/-- 無効化の痕跡は、割り当てが無効化のままであること。 -/
theorem invalidated_pairwise :
    (trace (proofStep H) s ops).Pairwise fun e e' =>
      ∀ id d, (proofStep H e.before e.op).2.db.dispatches.find? id = some d →
        d.state = .invalidated → ∀ c, consumed? e' = some c → c.dispatchId ≠ some id := by
  refine trace_pairwise (I := fun _ => True) (g := Ticks)
    (P := fun e s => ∀ id d, (proofStep H e.before e.op).2.db.dispatches.find? id = some d →
      d.state = .invalidated → ∃ d', s.db.dispatches.find? id = some d' ∧ d'.state = .invalidated)
    (fun _ _ _ _ => trivial) ?_ ?_ ?_ trivial hg
  · intro s op _ _ id d hd hs
    exact ⟨d, hd, hs⟩
  · intro e s op _ _ hp id d hd hs
    obtain ⟨d₁, hd₁, hs₁⟩ := hp id d hd hs
    obtain ⟨d₂, hd₂, hl⟩ := dispatch_after H op hd₁
    exact ⟨d₂, hd₂, hl.2 hs₁⟩
  · intro e s op _ _ hp id d hd hs c he' hcd
    obtain ⟨d₁, hd₁, hs₁⟩ := hp id d hd hs
    obtain ⟨verifier, -, row, d₂, -, hc, -, -, hrd, hd₂, -, -, hstate⟩ :=
      (consumed_spec (consumed?_eq_some he')).1
    rw [hc] at hcd
    have hid : d₂.id = id := by simpa [hrd] using hcd
    rw [hid, hd₁] at hd₂
    rw [← Option.some.inj hd₂, hs₁] at hstate
    simp at hstate

end Pairs

theorem run_leads (s : ProofState) (ops : List ProofOp) {id : String} {d : VerificationDispatch}
    (hd : s.db.dispatches.find? id = some d) :
    ∃ d', (run (proofStep H) s ops).db.dispatches.find? id = some d' ∧ d.state.Leads d'.state := by
  refine run_invariant' (I := fun s : ProofState => ∃ d', s.db.dispatches.find? id = some d'
    ∧ d.state.Leads d'.state) (fun s op ⟨d₁, hd₁, hl₁⟩ => ?_) ⟨d, hd, .refl _⟩
  obtain ⟨d₂, hd₂, hl₂⟩ := dispatch_after H op hd₁
  exact ⟨d₂, hd₂, hl₁.trans hl₂⟩

/--
**検証の権限は一度きりで、古い権限は締め出される。**

始まりの状態は問わない。時計が戻らず、権限の発行が前の読みより後であれば、どの実行でも
成り立つ。
-/
theorem verifier_authority_single_use (H : Digests) (s : ProofState) (ops : List ProofOp)
    (hg : Guarded (proofStep H) Ticks s ops) : SingleUse H s ops where
  resolved_once := resolved_pairwise hg
  dispatch_leads pre mid _ id d hd := by
    rw [run_append]
    exact run_leads _ mid hd
  consumed_once := consumed_pairwise hg
  consumed_by_bound e he c hc := by
    obtain ⟨pre, post, -, -, hr⟩ := exists_split_of_mem_trace he
    obtain ⟨before, op, result⟩ := e
    simp only at hr
    subst hr
    exact (consumed_spec (consumed?_eq_some hc)).1
  consumed_by_binder := binder_pairwise hg
  consumed_on_issued := issued_pairwise hg
  adopted_fences := adopted_pairwise hg
  invalidated_fences := invalidated_pairwise hg

/-- 一つの handoff を発行し、束縛し、消費して判定するまでの実行。 -/
def handoffRun : List ProofOp :=
  [.createDispatch "cas-1" "worker" "supervisor" {} (seconds 600) false
      "00000000000000000000000000000001" (seconds 1),
    .issueHandoff "cas-1" "vdispatch-00000000000000000000000000000001" "supervisor" "toolu_01"
      (List.replicate 32 1) "00000000000000000000000000000002" (seconds 2),
    .bindHandoff "supervisor" "verifier" (seconds 3),
    .consumeHandoff "vhnd-00000000000000000000000000000002" "cas-1" "verifier" none (seconds 4),
    .resolveDispatch "vdispatch-00000000000000000000000000000001" "verifier"
      (some "vhnd-00000000000000000000000000000002") false (seconds 5),
    .newCycle "cas-1" (seconds 6)]

/-- `handoffRun` に現れる入力での SHA-256 の値。 -/
def handoffDigests : Digests where
  capabilityToken _ := ""
  handoffTool _ := "f539391327a6af6048d34b396c1e7e3677abed5aa2234ea29e5e085c14ea825d"
  handoffSecret _ := "142dbc1885414b5b54a5603281ba3c0685b1f8a253dc074276f951ce6146bc03"
  delivery _ := ""

theorem verifier_authority_handoffRun :
    Guarded (proofStep handoffDigests) Ticks {} handoffRun
      ∧ (trace (proofStep handoffDigests) {} handoffRun).filterMap resolved?
        = ["vdispatch-00000000000000000000000000000001"]
      ∧ SingleUse handoffDigests {} handoffRun :=
  ⟨by decide, by decide,
    verifier_authority_single_use handoffDigests {} handoffRun (by decide)⟩

end Runs

end Cassy
