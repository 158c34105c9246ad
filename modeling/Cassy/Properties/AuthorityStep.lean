import Cassy.Verification.Ops

/-!
# 権限の表を動かす一歩

割り当て・権限・handoff の三つの表について、一つの操作ができることを一つの関係
`AuthorityStep` にまとめる。関係は文ごとの規則と合成の規則を持ち、操作の本体は
その組み合わせになる。以後の証明は操作の本体を見ない。

関係が言うのは次の五つである。

1. 割り当ては消えず、判定済みは無効化にしか、無効化はどこにも進まない
2. 新しく無効化されるのは、操作の名指しした割り当てだけである
3. 権限は前からあったものか、この操作が発行したものである
4. 束縛か消費を経た権限は消えず、束縛も消費もそのまま残る
5. 生きた handoff は前から生きていたか、この操作の発行したものである
-/

namespace Cassy

open Infra

/-- 割り当ての状態がたどれる向き。 -/
def VerificationDispatchState.Leads (s s' : VerificationDispatchState) : Prop :=
  (s = .resolved → s' = .resolved ∨ s' = .invalidated) ∧ (s = .invalidated → s' = .invalidated)

namespace VerificationDispatchState

theorem Leads.refl (s : VerificationDispatchState) : s.Leads s := ⟨Or.inl, id⟩

theorem Leads.trans {s s' s'' : VerificationDispatchState} (h : s.Leads s') (h' : s'.Leads s'') :
    s.Leads s'' := by
  refine ⟨fun hs => ?_, fun hs => h'.2 (h.2 hs)⟩
  rcases h.1 hs with hr | hi
  · exact h'.1 hr
  · exact Or.inr (h'.2 hi)

/-- 判定済みでも無効化でもない状態からは、どこへでも動ける。 -/
theorem Leads.of_open {s s' : VerificationDispatchState} (hr : s ≠ .resolved)
    (hi : s ≠ .invalidated) : s.Leads s' :=
  ⟨fun h => absurd h hr, fun h => absurd h hi⟩

theorem Leads.to_invalidated (s : VerificationDispatchState) : s.Leads .invalidated :=
  ⟨fun _ => Or.inr rfl, fun _ => rfl⟩

end VerificationDispatchState

/-- 同じ権限の、後の姿。束縛も消費も一度きりで、外の列は変わらない。 -/
structure VerifierCapability.Carries (c c' : VerifierCapability) : Prop where
  id_eq : c'.id = c.id
  dispatchId_eq : c'.dispatchId = c.dispatchId
  issuedAt_eq : c'.issuedAt = c.issuedAt
  verifier_eq : c.verifierAgentId.isSome → c'.verifierAgentId = c.verifierAgentId
  consumed_eq : c.consumedAt.isSome → c'.consumedAt = c.consumedAt

namespace VerifierCapability

theorem Carries.refl (c : VerifierCapability) : c.Carries c :=
  ⟨rfl, rfl, rfl, fun _ => rfl, fun _ => rfl⟩

/-- 束縛か消費を経た権限は、後でもそうである。 -/
theorem Carries.isUnbound_eq_false {c c' : VerifierCapability} (h : c.Carries c')
    (hu : ProofDb.isUnbound c = false) : ProofDb.isUnbound c' = false := by
  simp only [ProofDb.isUnbound, decide_eq_false_iff_not, not_and] at hu ⊢
  intro hv hc
  have hv₀ : c.verifierAgentId = none := by
    by_contra hne
    have := h.verifier_eq (Option.isSome_iff_ne_none.mpr hne)
    rw [hv] at this
    exact hne this.symm
  have hc₀ := hu hv₀
  have := h.consumed_eq (Option.isSome_iff_ne_none.mpr hc₀)
  rw [hc] at this
  exact hc₀ this.symm

theorem Carries.trans {c c' c'' : VerifierCapability} (h : c.Carries c') (h' : c'.Carries c'') :
    c.Carries c'' where
  id_eq := h'.id_eq.trans h.id_eq
  dispatchId_eq := h'.dispatchId_eq.trans h.dispatchId_eq
  issuedAt_eq := h'.issuedAt_eq.trans h.issuedAt_eq
  verifier_eq hv := by
    have hv' := h.verifier_eq hv
    rw [h'.verifier_eq (by rw [hv']; exact hv), hv']
  consumed_eq hc := by
    have hc' := h.consumed_eq hc
    rw [h'.consumed_eq (by rw [hc']; exact hc), hc']

end VerifierCapability

/-- 三つの表の一歩。`fresh` はこの一歩が発行した権限、`target` は無効化の名指し。 -/
structure AuthorityStep (fresh : VerifierCapability → Prop) (target : String → Prop)
    (db db' : ProofDb) : Prop where
  dispatch_kept : ∀ d ∈ db.dispatches.rows,
    ∃ d' ∈ db'.dispatches.rows, d'.id = d.id ∧ d.state.Leads d'.state
  invalidated_from : ∀ d' ∈ db'.dispatches.rows, d'.state = .invalidated →
    target d'.id ∨ ∃ d ∈ db.dispatches.rows, d.id = d'.id ∧ d.state = .invalidated
  capability_from : ∀ c' ∈ db'.capabilities.rows,
    fresh c' ∨ ∃ c ∈ db.capabilities.rows, c.Carries c'
  capability_kept : ∀ c ∈ db.capabilities.rows, ProofDb.isUnbound c = false →
    ∃ c' ∈ db'.capabilities.rows, c.Carries c'
  handoff_from : ∀ h' ∈ db'.handoffs.rows, h'.state.isLive →
    (∃ c', fresh c' ∧ c'.id = h'.capabilityId)
      ∨ ∃ h ∈ db.handoffs.rows, h.capabilityId = h'.capabilityId ∧ h.state.isLive

namespace AuthorityStep

variable {fresh : VerifierCapability → Prop} {target : String → Prop} {db db' db'' : ProofDb}

/-- 三つの表が同じなら、何も起きていない。 -/
theorem of_eq (hd : db'.dispatches = db.dispatches) (hc : db'.capabilities = db.capabilities)
    (hh : db'.handoffs = db.handoffs) : AuthorityStep fresh target db db' where
  dispatch_kept d hmem := ⟨d, hd ▸ hmem, rfl, .refl _⟩
  invalidated_from d' hmem hs := Or.inr ⟨d', hd ▸ hmem, rfl, hs⟩
  capability_from c' hmem := Or.inr ⟨c', hc ▸ hmem, .refl _⟩
  capability_kept c hmem _ := ⟨c, hc ▸ hmem, .refl _⟩
  handoff_from h' hmem hl := Or.inr ⟨h', hh ▸ hmem, rfl, hl⟩

theorem refl : AuthorityStep fresh target db db := of_eq rfl rfl rfl

theorem mono {fresh' : VerifierCapability → Prop} (h : AuthorityStep fresh target db db')
    (hf : ∀ c, fresh c → fresh' c) : AuthorityStep fresh' target db db' where
  dispatch_kept := h.dispatch_kept
  invalidated_from := h.invalidated_from
  capability_from c' hc' := (h.capability_from c' hc').imp_left (hf c')
  capability_kept := h.capability_kept
  handoff_from h' hh' hl :=
    (h.handoff_from h' hh' hl).imp_left fun ⟨c, hc, hid⟩ => ⟨c, hf c hc, hid⟩

/-- 合成。発行は後の一歩でだけ起きる。 -/
theorem trans (h₁ : AuthorityStep (fun _ => False) target db db')
    (h₂ : AuthorityStep fresh target db' db'') : AuthorityStep fresh target db db'' where
  dispatch_kept d hd := by
    obtain ⟨d', hd', hid, hl⟩ := h₁.dispatch_kept d hd
    obtain ⟨d'', hd'', hid', hl'⟩ := h₂.dispatch_kept d' hd'
    exact ⟨d'', hd'', hid'.trans hid, hl.trans hl'⟩
  invalidated_from d'' hd'' hs := by
    rcases h₂.invalidated_from d'' hd'' hs with ht | ⟨d', hd', hid, hs'⟩
    · exact Or.inl ht
    · rcases h₁.invalidated_from d' hd' hs' with ht | ⟨d, hd, hid', hs''⟩
      · exact Or.inl (hid ▸ ht)
      · exact Or.inr ⟨d, hd, hid'.trans hid, hs''⟩
  capability_from c'' hc'' := by
    rcases h₂.capability_from c'' hc'' with hf | ⟨c', hc', hcar⟩
    · exact Or.inl hf
    · rcases h₁.capability_from c' hc' with hf | ⟨c, hc, hcar'⟩
      · exact hf.elim
      · exact Or.inr ⟨c, hc, hcar'.trans hcar⟩
  capability_kept c hc hs := by
    obtain ⟨c', hc', hcar⟩ := h₁.capability_kept c hc hs
    obtain ⟨c'', hc'', hcar'⟩ := h₂.capability_kept c' hc' (hcar.isUnbound_eq_false hs)
    exact ⟨c'', hc'', hcar.trans hcar'⟩
  handoff_from h'' hh'' hl := by
    rcases h₂.handoff_from h'' hh'' hl with hf | ⟨h', hh', hid, hl'⟩
    · exact Or.inl hf
    · rcases h₁.handoff_from h' hh' hl' with ⟨_, hf, _⟩ | ⟨h, hh, hid', hl''⟩
      · exact hf.elim
      · exact Or.inr ⟨h, hh, hid'.trans hid, hl''⟩

/-! ## 文ごとの規則 -/

/-- 割り当ての更新。 -/
theorem updateDispatch {id : String} {p : VerificationDispatch → Bool}
    {f : VerificationDispatch → VerificationDispatch} (hf : ∀ d, (f d).id = d.id)
    (hstep : ∀ d ∈ db.dispatches.rows, d.id = id → p d = true → d.state.Leads (f d).state
      ∧ ((f d).state = .invalidated → target id ∨ d.state = .invalidated)) :
    AuthorityStep fresh target db (db.updateDispatch id p f hf) where
  dispatch_kept d hd := by
    refine ⟨if d.id = id && p d then f d else d, ?_, ?_, ?_⟩
    · exact List.mem_map.mpr ⟨d, hd, rfl⟩
    · split
      · exact hf d
      · rfl
    · split
      · next hp =>
        rw [Bool.and_eq_true, decide_eq_true_eq] at hp
        exact (hstep d hd hp.1 hp.2).1
      · exact .refl _
  invalidated_from d' hd' hs := by
    obtain ⟨d, hd, rfl⟩ := List.mem_map.mp hd'
    split at hs
    · next hp =>
      rw [if_pos hp]
      rw [Bool.and_eq_true, decide_eq_true_eq] at hp
      rcases (hstep d hd hp.1 hp.2).2 hs with ht | hi
      · exact Or.inl (by rw [hf, hp.1]; exact ht)
      · exact Or.inr ⟨d, hd, (hf d).symm, hi⟩
    · next hp =>
      rw [if_neg hp]
      exact Or.inr ⟨d, hd, rfl, hs⟩
  capability_from c' hc' := Or.inr ⟨c', hc', .refl _⟩
  capability_kept c hc _ := ⟨c, hc, .refl _⟩
  handoff_from h' hh' hl := Or.inr ⟨h', hh', rfl, hl⟩

/-- 権限の更新。 -/
theorem updateCapabilities {p : VerifierCapability → Bool}
    {f : VerifierCapability → VerifierCapability} (hf : ∀ c, (f c).id = c.id)
    (hcar : ∀ c ∈ db.capabilities.rows, p c = true → c.Carries (f c)) :
    AuthorityStep fresh target db (db.updateCapabilities p f hf) where
  dispatch_kept d hd := ⟨d, hd, rfl, .refl _⟩
  invalidated_from d' hd' hs := Or.inr ⟨d', hd', rfl, hs⟩
  capability_from c' hc' := by
    obtain ⟨c, hc, rfl⟩ := List.mem_map.mp hc'
    refine Or.inr ⟨c, hc, ?_⟩
    split
    · next hp => exact hcar c hc hp
    · exact .refl _
  capability_kept c hc _ := by
    refine ⟨if p c then f c else c, List.mem_map.mpr ⟨c, hc, rfl⟩, ?_⟩
    split
    · next hp => exact hcar c hc hp
    · exact .refl _
  handoff_from h' hh' hl := Or.inr ⟨h', hh', rfl, hl⟩

/-- handoff の更新。生き返らせなければよい。 -/
theorem updateHandoffs {p : VerifierHandoff → Bool} {f : VerifierHandoff → VerifierHandoff}
    (hf : ∀ h, (f h).capabilityId = h.capabilityId)
    (hlive : ∀ h ∈ db.handoffs.rows, p h = true → (f h).state.isLive → h.state.isLive) :
    AuthorityStep fresh target db (db.updateHandoffs p f hf) where
  dispatch_kept d hd := ⟨d, hd, rfl, .refl _⟩
  invalidated_from d' hd' hs := Or.inr ⟨d', hd', rfl, hs⟩
  capability_from c' hc' := Or.inr ⟨c', hc', .refl _⟩
  capability_kept c hc _ := ⟨c, hc, .refl _⟩
  handoff_from h' hh' hl := by
    obtain ⟨h, hh, rfl⟩ := List.mem_map.mp hh'
    split at hl
    · next hp =>
      rw [if_pos hp]
      exact Or.inr ⟨h, hh, (hf h).symm, hlive h hh hp hl⟩
    · next hp =>
      rw [if_neg hp]
      exact Or.inr ⟨h, hh, rfl, hl⟩

/-- 権限と handoff の削除。消えるのは使われていない権限だけであること。 -/
theorem delete (hd : db'.dispatches = db.dispatches)
    (hc : ∀ c ∈ db'.capabilities.rows, c ∈ db.capabilities.rows)
    (hkeep : ∀ c ∈ db.capabilities.rows, ProofDb.isUnbound c = false →
      c ∈ db'.capabilities.rows)
    (hh : ∀ h ∈ db'.handoffs.rows, h ∈ db.handoffs.rows) : AuthorityStep fresh target db db' where
  dispatch_kept d hmem := ⟨d, hd ▸ hmem, rfl, .refl _⟩
  invalidated_from d' hmem hs := Or.inr ⟨d', hd ▸ hmem, rfl, hs⟩
  capability_from c' hmem := Or.inr ⟨c', hc c' hmem, .refl _⟩
  capability_kept c hmem hs := ⟨c, hkeep c hmem hs, .refl _⟩
  handoff_from h' hmem hl := Or.inr ⟨h', hh h' hmem, rfl, hl⟩

theorem deleteUnboundCapability {id : String} :
    AuthorityStep fresh target db (db.deleteUnboundCapability id) := by
  refine delete rfl (fun c hc => (Table.mem_delete.mp hc).1) (fun c hc hs => ?_)
    (fun h hh => (Table.mem_delete.mp hh).1)
  refine Table.mem_delete.mpr ⟨hc, ?_⟩
  simp only [ProofDb.isUnbound, decide_eq_false_iff_not] at hs ⊢
  exact fun h => hs h.2

theorem insertDispatch {d : VerificationDispatch} (h : db.insertDispatch d = .ok db')
    (hs : d.state ≠ .invalidated) : AuthorityStep fresh target db db' := by
  simp only [ProofDb.insertDispatch, bind_eq_ok, ensure_eq_ok, okOr_eq_ok, pure_eq_ok] at h
  obtain ⟨-, -, dispatches, hins, rfl⟩ := h
  refine ⟨fun d' hd' => ⟨d', (Table.mem_insert? hins).mpr (Or.inl hd'), rfl, .refl _⟩, ?_,
    fun c hc => Or.inr ⟨c, hc, .refl _⟩, fun c hc _ => ⟨c, hc, .refl _⟩,
    fun h hh hl => Or.inr ⟨h, hh, rfl, hl⟩⟩
  intro d' hd' hs'
  rcases (Table.mem_insert? hins).mp hd' with hmem | rfl
  · exact Or.inr ⟨d', hmem, rfl, hs'⟩
  · exact absurd hs' hs

/-- 権限の発行。handoff を伴うときは、その handoff が新しい権限を指すこと。 -/
theorem issue {c : VerifierCapability} {capabilities : Table VerifierCapability.id}
    (hd : db'.dispatches = db.dispatches) (hins : db.capabilities.insert? c = some capabilities)
    (hc : db'.capabilities = capabilities)
    (hh : ∀ h ∈ db'.handoffs.rows, h ∈ db.handoffs.rows ∨ h.capabilityId = c.id) :
    AuthorityStep (· = c) target db db' where
  dispatch_kept d hmem := ⟨d, hd ▸ hmem, rfl, .refl _⟩
  invalidated_from d' hmem hs := Or.inr ⟨d', hd ▸ hmem, rfl, hs⟩
  capability_from c' hmem := by
    rw [hc] at hmem
    rcases (Table.mem_insert? hins).mp hmem with hold | rfl
    · exact Or.inr ⟨c', hold, .refl _⟩
    · exact Or.inl rfl
  capability_kept c' hmem _ := by
    rw [hc]
    exact ⟨c', (Table.mem_insert? hins).mpr (Or.inl hmem), .refl _⟩
  handoff_from h' hmem hl := by
    rcases hh h' hmem with hold | hid
    · exact Or.inr ⟨h', hold, rfl, hl⟩
    · exact Or.inl ⟨c, rfl, hid.symm⟩

end AuthorityStep

end Cassy
