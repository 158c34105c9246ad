import Cassy.Properties.Authority

/-!
# 無効化は権限を引退させるか

割り当てが無効化されたなら、それを指す権限は残らず使用済みで、生きた handoff も残らない。
そうであるべきだが、無効化の操作が引退させる行は揃っていない。

* 孤児の引き取りは、割り当てを指す権限をすべて引退させる
* repository の変化による無効化は、割り当てが握っている権限だけを引退させる。束縛の前の
  割り当ては何も握っていない
* 新しい周期・差し戻し・証明範囲の訂正・判定の引き継ぎは、権限に触らない

そこで、無効化の前に権限が引退していること（`RetiresFirst`）を各操作の条件とし、その下で
性質が実行の全体で保たれることを示す。
-/

namespace Cassy

open Infra

namespace ProofDb

/-- 権限が使用済みで、生きた handoff も残っていない。 -/
def isRetired (db : ProofDb) (c : VerifierCapability) : Bool :=
  c.consumedAt.isSome
    && !db.handoffs.rows.any fun h => h.capabilityId = c.id && h.state.isLive

theorem isRetired_iff {db : ProofDb} {c : VerifierCapability} : db.isRetired c = true ↔
    c.consumedAt.isSome ∧ ∀ h ∈ db.handoffs.rows, h.capabilityId = c.id →
      h.state.isLive = false := by
  simp [isRetired]

/-- 無効化された割り当てを指す権限は、どれも引退している。 -/
def Retired (db : ProofDb) : Prop :=
  ∀ d ∈ db.dispatches.rows, d.state = .invalidated →
    ∀ c ∈ db.capabilities.rows, c.dispatchId = some d.id → db.isRetired c = true

instance (db : ProofDb) : Decidable db.Retired :=
  inferInstanceAs (Decidable (∀ d ∈ db.dispatches.rows, d.state = .invalidated →
    ∀ c ∈ db.capabilities.rows, c.dispatchId = some d.id → db.isRetired c = true))

end ProofDb

/-- 操作が自分で引退させる権限。repository の変化だけが、割り当ての握る権限を引退させる。 -/
def ProofOp.retires (db : ProofDb) (c : VerifierCapability) : ProofOp → Bool
  | repositoryDrift dispatchId _ =>
    (db.dispatches.find? dispatchId).any fun d => d.capabilityId = some c.id
  | _ => false

/-- 操作が無効化する割り当ての権限は、操作が引退させるものの外はすべて引退している。 -/
def RetiresFirst (s : ProofState) (op : ProofOp) : Prop :=
  ∀ id ∈ op.invalidates? s.db, ∀ c ∈ s.db.capabilities.rows, c.dispatchId = some id →
    op.retires s.db c = true ∨ s.db.isRetired c = true

instance (s : ProofState) (op : ProofOp) : Decidable (RetiresFirst s op) :=
  inferInstanceAs (Decidable (∀ id ∈ op.invalidates? s.db, ∀ c ∈ s.db.capabilities.rows,
    c.dispatchId = some id → op.retires s.db c = true ∨ s.db.isRetired c = true))

section Steps

variable {H : Digests} {db db' : ProofDb} {s : ProofState} {op : ProofOp}

/-- 握っている権限の引退は、その権限も handoff も残さない。 -/
theorem retireHeldCapability_retires {k : String} {now : Time} :
    (∀ c ∈ (db.retireHeldCapability (some k) now).capabilities.rows, c.id = k →
      c.consumedAt.isSome)
    ∧ ∀ h ∈ (db.retireHeldCapability (some k) now).handoffs.rows, h.capabilityId = k →
      h.state.isLive = false := by
  constructor
  · intro c hc hid
    obtain ⟨c₀, -, rfl⟩ := List.mem_map.mp hc
    split at hid
    · next hp =>
      rw [if_pos hp]
      simp [ProofDb.retireCapability]
    · next hp => exact absurd (decide_eq_true hid) hp
  · intro h hh hid
    obtain ⟨h₀, -, rfl⟩ := List.mem_map.mp hh
    split at hid
    · next hp =>
      rw [if_pos hp]
      rfl
    · next hp =>
      rw [if_neg hp]
      simpa [hid] using hp

/-- 無効化に成功した repository の変化は、割り当ての握る権限を引退させている。 -/
theorem invalidateForRepositoryDrift_retires {dispatchId k : String} {now : Time}
    {d d' : VerificationDispatch}
    (h : db.invalidateForRepositoryDrift dispatchId now = .ok (d', db'))
    (hd : db.dispatches.find? dispatchId = some d) (hs : d.state ≠ .invalidated)
    (hk : d.capabilityId = some k) :
    (∀ c ∈ db'.capabilities.rows, c.id = k → c.consumedAt.isSome)
    ∧ ∀ h ∈ db'.handoffs.rows, h.capabilityId = k → h.state.isLive = false := by
  simp only [ProofDb.invalidateForRepositoryDrift, ProofDb.getDispatch, bind_eq_ok, ensure_eq_ok,
    okOr_eq_ok, hd, Option.some.injEq] at h
  obtain ⟨_, rfl, latest, -, -, -, h⟩ := h
  rw [if_neg hs] at h
  simp only [bind_eq_ok, ensure_eq_ok, pure_eq_ok, Prod.mk.injEq] at h
  obtain ⟨-, -, -, -, -, -, -, rfl⟩ := h
  rw [hk]
  exact retireHeldCapability_retires

/-- 操作が引き受けた権限は、操作の後では引退している。 -/
theorem retires_spec {r : ProofRes} {id : String} {c c' : VerifierCapability}
    (h : op.body H db = .ok (r, db')) (hid : op.invalidates? db = some id)
    (hr : op.retires db c = true) (hc' : c' ∈ db'.capabilities.rows) (hcid : c'.id = c.id) :
    db'.isRetired c' = true := by
  cases op with
  | repositoryDrift dispatchId now =>
    simp only [ProofOp.body, mapResult_eq_ok] at h
    obtain ⟨_, hb, rfl⟩ := h
    simp only [ProofOp.invalidates?, Option.map_eq_some_iff, Option.filter_eq_some_iff] at hid
    obtain ⟨d, ⟨hd, hdrift⟩, rfl⟩ := hid
    simp only [ProofOp.retires, hd, Option.any_some, decide_eq_true_eq] at hr
    have hs : d.state ≠ .invalidated := by
      intro hs
      simp [ProofDb.isDriftable, ProofDb.isInvalidatable, hs] at hdrift
    obtain ⟨hcap, hhand⟩ := invalidateForRepositoryDrift_retires hb hd hs hr
    rw [ProofDb.isRetired_iff, hcid]
    exact ⟨hcap c' hc' hcid, hhand⟩
  | _ => simp [ProofOp.retires] at hr

/-- 発行された権限の割り当ては、操作の後でも無効化されていない。 -/
theorem issued_not_invalidated {c : VerifierCapability}
    (h : op.body H db = .ok (.issued c, db')) {d : VerificationDispatch}
    (hd : d ∈ db'.dispatches.rows) (hcd : c.dispatchId = some d.id) : d.state ≠ .invalidated := by
  obtain ⟨-, -, hdisp, d₀, hd₀, hcd₀, hs₀⟩ := issued_spec h
  rw [hdisp] at hd
  have hid : d.id = d₀.id := by
    rw [hcd, Option.some.injEq] at hcd₀
    exact hcd₀
  rw [Table.eq_of_key hd (Table.mem_of_find? hd₀) hid, hs₀]
  simp

/-- 引退した権限は、操作の後でも引退している。 -/
theorem isRetired_after {r : ProofRes} (h : op.body H db = .ok (r, db')) {c c' : VerifierCapability}
    (hcar : c.Carries c') (hret : db.isRetired c = true)
    (hfresh : ∀ c'', r.Issues c'' → c''.id ≠ c'.id) : db'.isRetired c' = true := by
  rw [ProofDb.isRetired_iff] at hret ⊢
  obtain ⟨hcons, hdead⟩ := hret
  refine ⟨by rw [hcar.consumed_eq hcons]; exact hcons, fun h' hh' hid => ?_⟩
  by_contra hlive
  rw [Bool.not_eq_false] at hlive
  rcases (ProofOp.body_step h).handoff_from h' hh' hlive with ⟨c'', hc'', hcid⟩ | ⟨h₀, hh₀, hid₀, hl₀⟩
  · exact hfresh c'' hc'' (hcid.trans hid)
  · rw [hdead h₀ hh₀ ((hid₀.trans hid).trans hcar.id_eq)] at hl₀
    simp at hl₀

/-- 一歩。新しく無効化された割り当ての権限は、条件によって引退しているか、操作が引退させる。 -/
theorem proofStep_retired (hi : s.db.Retired) (hg : RetiresFirst s op) :
    (proofStep H s op).2.db.Retired := by
  rcases commit_snd_cases s.db (op.body H s.db) with heq | ⟨r, db', hb, heq⟩
  · rw [show (proofStep H s op).2.db = s.db from heq]
    exact hi
  rw [show (proofStep H s op).2.db = db' from heq]
  intro d' hd' hs' c' hc' hcd'
  have hstep := ProofOp.body_step hb
  have hissued : ∀ c'', r.Issues c'' → c''.id ≠ c'.id := by
    intro c'' hc'' hid
    cases r with
    | issued c =>
      rw [ProofRes.Issues] at hc''
      subst hc''
      have hmem := (issued_spec hb).2.1
      rw [Table.eq_of_key hmem hc' hid] at hb
      exact issued_not_invalidated hb hd' hcd' hs'
    | _ => exact hc''
  rcases hstep.capability_from c' hc' with hfresh | ⟨c, hc, hcar⟩
  · exact absurd rfl (hissued c' hfresh)
  · have hcd : c.dispatchId = some d'.id := hcar.dispatchId_eq ▸ hcd'
    rcases hstep.invalidated_from d' hd' hs' with htarget | ⟨d, hd, hid, hs⟩
    · rcases hg d'.id htarget c hc hcd with hret | hret
      · exact retires_spec hb htarget hret hc' hcar.id_eq
      · exact isRetired_after hb hcar hret hissued
    · exact isRetired_after hb hcar (hi d hd hs c hc (hid ▸ hcd)) hissued

end Steps

/--
**無効化の前に権限が引退していれば、無効化された割り当ての権限はいつも引退している。**

始まりの状態は、無効化された割り当ての権限が引退している任意の状態でよい。空の database は
それを満たす。
-/
theorem invalidated_authority_retired (H : Digests) (s : ProofState) (ops pre : List ProofOp)
    (hi : s.db.Retired) (hg : Guarded (proofStep H) RetiresFirst s ops) (hpre : pre <+: ops) :
    (run (proofStep H) s pre).db.Retired :=
  run_invariant_prefix (I := fun s : ProofState => s.db.Retired)
    (fun _ _ hi hg => proofStep_retired hi hg) hi hg hpre

theorem invalidated_authority_retired_handoffRun :
    ({} : ProofState).db.Retired ∧ Guarded (proofStep handoffDigests) RetiresFirst {} handoffRun
      ∧ (run (proofStep handoffDigests) {} handoffRun).db.dispatches.rows.map (·.state)
        = [.invalidated]
      ∧ (run (proofStep handoffDigests) {} handoffRun).db.Retired :=
  ⟨by decide, by decide, by decide,
    invalidated_authority_retired handoffDigests {} handoffRun handoffRun (by decide)
      (by decide) List.prefix_rfl⟩

/-- 検証者がまだ始まっていないうちに repository が変わる実行。 -/
def unboundDriftRun : List ProofOp :=
  [.createDispatch "cas-1" "worker" "supervisor"
      { repository := some
          { repositoryRoot := "/repo", worktreeRoot := "/repo", headCommit := "1111111"
            stateDigest := "00" } }
      (seconds 600) false "00000000000000000000000000000001" (seconds 1),
    .issueHandoff "cas-1" "vdispatch-00000000000000000000000000000001" "supervisor" "toolu_01"
      (List.replicate 32 1) "00000000000000000000000000000002" (seconds 2),
    .repositoryDrift "vdispatch-00000000000000000000000000000001" (seconds 3)]

/-- 無効化の後に、使用済みでない権限と、待ったままの handoff が残る。 -/
theorem unboundDriftRun_not_retired :
    Guarded (proofStep handoffDigests) Ticks {} unboundDriftRun
      ∧ ¬ (run (proofStep handoffDigests) {} unboundDriftRun).db.Retired
      ∧ (run (proofStep handoffDigests) {} unboundDriftRun).db.handoffs.rows.map (·.state)
        = [.pending] := by
  decide

end Cassy
