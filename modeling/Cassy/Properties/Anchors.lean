import Cassy.Delivery.Anchors
import Cassy.Infra.Lines

/-!
# 錨は失われず、誤って差し戻されない

錨を動かす操作をどう並べても、一度でも錨であった commit は、今の錨か歴史に残る。差し戻された錨は、初めに差し戻されていたものと、
`decline` が呼ばれたときの錨だけである。

どの操作も、錨を `pushAnchor` で列に加えるだけである。歴史の伸びる操作は、差し戻された錨の列が無ければ、その前の歴史でそれを
定める。だから `declinedFactoryAnchors` は `decline` でしか変わらない（`AnchorStep`）。
-/

namespace Cassy

open Infra

/-- ASCII の大文字と小文字を区別しないで等しい。 -/
def SameCase (s t : String) : Prop := eqIgnoreAsciiCase s.toList t.toList = true

/-- 前後の空白を落とした錨。 -/
def trimAnchor (s : String) : String := String.ofList (trim s.toList)

instance (s t : String) : Decidable (SameCase s t) := inferInstanceAs (Decidable (_ = true))

section same

variable {s t u : String}

theorem sameCase_iff : SameCase s t ↔ s.toList.map toAsciiLower = t.toList.map toAsciiLower := by
  unfold SameCase eqIgnoreAsciiCase
  rw [beq_iff_eq]

theorem SameCase.refl (s : String) : SameCase s s := sameCase_iff.mpr rfl

theorem SameCase.trans (h : SameCase s t) (h' : SameCase t u) : SameCase s u :=
  sameCase_iff.mpr ((sameCase_iff.mp h).trans (sameCase_iff.mp h'))

theorem SameCase.ne_empty (h : SameCase s t) (ht : t ≠ "") : s ≠ "" := by
  rintro rfl
  have hmap := sameCase_iff.mp h
  have hnil : t.toList = [] := List.map_eq_nil_iff.mp hmap.symm
  exact ht (String.toList_eq_nil_iff.mp hnil)

end same

/-! ## 列に加える -/

/-- 等しいものが無ければ加える。 -/
def pushAnchor (anchors : List String) (anchor : String) : List String :=
  if anchors.any fun known => eqIgnoreAsciiCase known.toList anchor.toList then anchors
  else anchors ++ [anchor]

section push

variable {anchors : List String} {anchor b : String}

/-- 加えた後の列にあるものは、前からあるか、加えたものである。 -/
theorem mem_pushAnchor_iff : (∃ k ∈ pushAnchor anchors anchor, SameCase k b) ↔
    (∃ k ∈ anchors, SameCase k b) ∨ SameCase anchor b := by
  unfold pushAnchor
  split
  · next h =>
    obtain ⟨k, hk, hka⟩ := List.any_eq_true.mp h
    constructor
    · exact .inl
    · rintro (h | h)
      · exact h
      · exact ⟨k, hk, SameCase.trans hka h⟩
  · constructor
    · rintro ⟨k, hk, hkb⟩
      rcases List.mem_append.mp hk with hk | hk
      · exact .inl ⟨k, hk, hkb⟩
      · rw [List.mem_singleton.mp hk] at hkb
        exact .inr hkb
    · rintro (⟨k, hk, hkb⟩ | h)
      · exact ⟨k, List.mem_append_left _ hk, hkb⟩
      · exact ⟨anchor, List.mem_append_right _ (.head _), h⟩

/-- `start` に、互いにも `start` のどれとも等しくないものを加えた列。 -/
def Grown (start anchors : List String) : Prop :=
  ∃ new, anchors = start ++ new ∧ new.Pairwise (fun k k' => ¬ SameCase k k')
    ∧ ∀ k ∈ start, ∀ k' ∈ new, ¬ SameCase k k'

theorem Grown.refl (start : List String) : Grown start start :=
  ⟨[], (List.append_nil _).symm, .nil, by simp⟩

theorem Grown.pushAnchor {start : List String} (h : Grown start anchors) (anchor : String) :
    Grown start (pushAnchor anchors anchor) := by
  obtain ⟨new, rfl, hpair, hstart⟩ := h
  unfold Cassy.pushAnchor
  split
  · exact ⟨new, rfl, hpair, hstart⟩
  · next hany =>
    have hfresh : ∀ k ∈ start ++ new, ¬ SameCase k anchor := fun k hk hka =>
      hany (List.any_eq_true.mpr ⟨k, hk, hka⟩)
    refine ⟨new ++ [anchor], List.append_assoc _ _ _, ?_, ?_⟩
    · refine List.pairwise_append.mpr ⟨hpair, List.pairwise_singleton _ _, ?_⟩
      intro k hk k' hk'
      rw [List.mem_singleton.mp hk']
      exact hfresh k (List.mem_append_right _ hk)
    · intro k hk k' hk'
      rcases List.mem_append.mp hk' with hk' | hk'
      · exact hstart k hk k' hk'
      · rw [List.mem_singleton.mp hk']
        exact hfresh k (List.mem_append_left _ hk)

end push

/-! ## 一つの操作 -/

namespace TaskDeliverables

variable {d d' : TaskDeliverables}

/-- 空白でない、今の錨。 -/
def liveAnchor (d : TaskDeliverables) : Option String := (d.factoryBranchAnchor.map trimAnchor).filter (· ≠ "")

/-- 今の錨があれば加える。 -/
def pushLive (d : TaskDeliverables) (anchors : List String) : List String :=
  (d.liveAnchor.map (pushAnchor anchors)).getD anchors

theorem declinedFactoryAnchors_congr
    (hdeclined : d'.declinedFactoryBranchAnchors = d.declinedFactoryBranchAnchors)
    (hhistory : d'.historicalFactoryBranchAnchors = d.historicalFactoryBranchAnchors) :
    d'.declinedFactoryAnchors = d.declinedFactoryAnchors := by
  rw [declinedFactoryAnchors, hdeclined, hhistory]
  rfl

theorem liveAnchor_of_none (h : d.factoryBranchAnchor = none) : d.liveAnchor = none := by
  rw [liveAnchor, h]
  rfl

theorem liveAnchor_of_blank {raw : String} (h : d.factoryBranchAnchor = some raw)
    (hblank : trimAnchor raw = "") : d.liveAnchor = none := by
  rw [liveAnchor, h, Option.map_some, hblank]
  rfl

theorem liveAnchor_of_some {raw : String} (h : d.factoryBranchAnchor = some raw)
    (hblank : trimAnchor raw ≠ "") : d.liveAnchor = some (trimAnchor raw) := by
  rw [liveAnchor, h, Option.map_some]
  exact Option.filter_some_pos (by simpa using hblank)

theorem pushLive_of_none (h : d.liveAnchor = none) (anchors : List String) : d.pushLive anchors = anchors := by
  rw [pushLive, h]
  rfl

theorem pushLive_of_some {anchor : String} (h : d.liveAnchor = some anchor) (anchors : List String) :
    d.pushLive anchors = pushAnchor anchors anchor := by
  rw [pushLive, h]
  rfl

/-- 錨を歴史に移した結果。 -/
theorem retain_eq (d : TaskDeliverables) :
    d.retainFactoryBranchAnchorAsHistory = match d.liveAnchor with
      | none => { d with integrationBatch := none, factoryBranchAnchor := none }
      | some anchor =>
        { d with
          integrationBatch := none
          factoryBranchAnchor := none
          declinedFactoryBranchAnchors := some d.declinedFactoryAnchors
          historicalFactoryBranchAnchors := pushAnchor d.historicalFactoryBranchAnchors anchor } := by
  unfold retainFactoryBranchAnchorAsHistory
  split
  · next hnone =>
    rw [liveAnchor_of_none hnone]
    cases d
    cases hnone
    rfl
  · next raw hraw =>
    by_cases hblank : trimAnchor raw = ""
    · rw [liveAnchor_of_blank hraw hblank]
      exact if_pos hblank
    · rw [liveAnchor_of_some hraw hblank]
      exact if_neg hblank

/-- 錨を歴史に移すと、差し戻された錨は変わらない。 -/
theorem retain_spec (d : TaskDeliverables) :
    d.retainFactoryBranchAnchorAsHistory.historicalFactoryBranchAnchors
        = d.pushLive d.historicalFactoryBranchAnchors
      ∧ d.retainFactoryBranchAnchorAsHistory.declinedFactoryAnchors = d.declinedFactoryAnchors := by
  rw [retain_eq]
  cases hlive : d.liveAnchor with
  | none => exact ⟨(pushLive_of_none hlive _).symm, declinedFactoryAnchors_congr rfl rfl⟩
  | some anchor => exact ⟨(pushLive_of_some hlive _).symm, rfl⟩

/-- 差し戻すと、今の錨が差し戻された錨に加わる。 -/
theorem decline_spec (d : TaskDeliverables) :
    d.declineFactoryBranchAnchor.historicalFactoryBranchAnchors
        = d.pushLive d.historicalFactoryBranchAnchors
      ∧ d.declineFactoryBranchAnchor.declinedFactoryAnchors = d.pushLive d.declinedFactoryAnchors := by
  obtain ⟨hhistory, hdeclined⟩ := retain_spec d
  unfold declineFactoryBranchAnchor
  dsimp only
  split
  · next hmap =>
    have hlive := liveAnchor_of_none (Option.map_eq_none_iff.mp hmap)
    exact ⟨hhistory, hdeclined.trans (pushLive_of_none hlive _).symm⟩
  · next anchor hmap =>
    obtain ⟨raw, hraw, rfl⟩ := Option.map_eq_some_iff.mp hmap
    split
    · next hblank =>
      have hlive := liveAnchor_of_blank hraw hblank
      exact ⟨hhistory, hdeclined.trans (pushLive_of_none hlive _).symm⟩
    · next hblank =>
      have hlive := liveAnchor_of_some hraw hblank
      refine ⟨hhistory, ?_⟩
      rw [pushLive_of_some hlive, retain_eq, hlive]
      rfl

/-- 操作の前後。錨は残るか歴史に移り、差し戻された錨は `decline` でしか変わらない。 -/
structure AnchorStep (d : TaskDeliverables) (op : AnchorOp) (d' : TaskDeliverables) : Prop where
  history : d'.historicalFactoryBranchAnchors = d.historicalFactoryBranchAnchors
    ∨ d'.historicalFactoryBranchAnchors = d.pushLive d.historicalFactoryBranchAnchors
  kept : d'.factoryBranchAnchor = d.factoryBranchAnchor ∨ d.factoryBranchAnchor = none
    ∨ d'.historicalFactoryBranchAnchors = d.pushLive d.historicalFactoryBranchAnchors
  declined : d'.declinedFactoryAnchors
    = if op = .decline then d.pushLive d.declinedFactoryAnchors else d.declinedFactoryAnchors

theorem pushLive_handoff (d : TaskDeliverables) (branch : String) (anchors : List String) :
    (d.recordHandoffBranch branch).pushLive anchors = d.pushLive anchors
      ∧ (d.recordHandoffBranch branch).historicalFactoryBranchAnchors = d.historicalFactoryBranchAnchors
      ∧ (d.recordHandoffBranch branch).declinedFactoryAnchors = d.declinedFactoryAnchors := by
  unfold recordHandoffBranch
  dsimp only
  split
  · exact ⟨rfl, rfl, rfl⟩
  · exact ⟨rfl, rfl, rfl⟩

theorem anchorStep_spec (d : TaskDeliverables) (op : AnchorOp) : AnchorStep d op (d.anchorStep op) := by
  cases op with
  | retain =>
    obtain ⟨hhistory, hdeclined⟩ := retain_spec d
    exact ⟨.inr hhistory, .inr (.inr hhistory), hdeclined⟩
  | decline =>
    obtain ⟨hhistory, hdeclined⟩ := decline_spec d
    exact ⟨.inr hhistory, .inr (.inr hhistory), hdeclined⟩
  | recordAnchor anchor =>
    show AnchorStep d _ (d.recordAnchor anchor)
    unfold recordAnchor
    split
    · next hnone => exact ⟨.inl rfl, .inr (.inl (Option.isNone_iff_eq_none.mp hnone)), rfl⟩
    · exact ⟨.inl rfl, .inl rfl, rfl⟩
  | recordPark measuredBranch measuredTip assignee =>
    show AnchorStep d _ (d.recordPark measuredBranch measuredTip assignee)
    unfold recordPark
    dsimp only
    split
    · next branch tip previous _ =>
      obtain ⟨hhistory, hdeclined⟩ := retain_spec (d.recordHandoffBranch previous)
      obtain ⟨hpush, hold, hdeclined'⟩ := pushLive_handoff d previous
        (d.recordHandoffBranch previous).historicalFactoryBranchAnchors
      rw [hpush, hold] at hhistory
      rw [hdeclined'] at hdeclined
      generalize (d.recordHandoffBranch previous).retainFactoryBranchAnchorAsHistory = kept at *
      exact ⟨.inr hhistory, .inr (.inr hhistory),
        (declinedFactoryAnchors_congr rfl rfl).trans hdeclined⟩
    · refine ⟨.inl rfl, ?_, rfl⟩
      by_cases hnone : d.factoryBranchAnchor.isNone = true
      · exact .inr (.inl (Option.isNone_iff_eq_none.mp hnone))
      · exact .inl (if_neg hnone)

/-! ## 操作の列 -/

/-- 錨が、今の錨であるか歴史にある。 -/
def Remembers (d : TaskDeliverables) (anchor : String) : Prop :=
  (∃ b, d.factoryBranchAnchor = some b ∧ SameCase (trimAnchor b) (trimAnchor anchor))
    ∨ ∃ k ∈ d.historicalFactoryBranchAnchors, SameCase k (trimAnchor anchor)

theorem mem_pushLive {anchors : List String} {anchor : String}
    (h : ∃ k ∈ anchors, SameCase k anchor) : ∃ k ∈ d.pushLive anchors, SameCase k anchor := by
  cases hlive : d.liveAnchor with
  | none =>
    rw [pushLive_of_none hlive]
    exact h
  | some b =>
    rw [pushLive_of_some hlive]
    exact mem_pushAnchor_iff.mpr (.inl h)

/-- 空白でない錨は、操作の後も今の錨か歴史にある。 -/
theorem AnchorStep.remembers {op : AnchorOp} {anchor : String} (h : AnchorStep d op d')
    (hne : trimAnchor anchor ≠ "") (hd : d.Remembers anchor) : d'.Remembers anchor := by
  rcases hd with ⟨b, hb, hsame⟩ | hmem
  · rcases h.kept with hkept | hnone | hpush
    · exact .inl ⟨b, hkept.trans hb, hsame⟩
    · rw [hnone] at hb
      cases hb
    · have hlive := liveAnchor_of_some hb (hsame.ne_empty hne)
      refine .inr ?_
      rw [hpush, pushLive_of_some hlive]
      exact mem_pushAnchor_iff.mpr (.inr hsame)
  · refine .inr ?_
    rcases h.history with hhistory | hpush
    · rw [hhistory]
      exact hmem
    · rw [hpush]
      exact mem_pushLive hmem

theorem remembers_run {anchor : String} (hne : trimAnchor anchor ≠ "") : ∀ (ops : List AnchorOp)
    {d : TaskDeliverables}, d.Remembers anchor → (d.anchorRun ops).Remembers anchor
  | [], _, h => h
  | op :: ops, d, h => remembers_run hne ops ((anchorStep_spec d op).remembers hne h)

/-- 歴史には、等しいものの無い錨だけが加わる。 -/
theorem grown_run {start : List String} : ∀ (ops : List AnchorOp) {d : TaskDeliverables},
    Grown start d.historicalFactoryBranchAnchors →
      Grown start (d.anchorRun ops).historicalFactoryBranchAnchors
  | [], _, h => h
  | op :: ops, d, h => by
    refine grown_run ops (d := d.anchorStep op) ?_
    rcases (anchorStep_spec d op).history with hhistory | hpush
    · rw [hhistory]
      exact h
    · rw [hpush]
      cases hlive : d.liveAnchor with
      | none =>
        rw [pushLive_of_none hlive]
        exact h
      | some anchor =>
        rw [pushLive_of_some hlive]
        exact h.pushAnchor anchor

/-- `ops` の途中で、錨 `anchor` に `decline` が呼ばれる。 -/
def DeclineCalled (d : TaskDeliverables) (ops : List AnchorOp) (anchor : String) : Prop :=
  ∃ before after, ops = before ++ .decline :: after ∧ (d.anchorRun before).factoryBranchAnchor = some anchor

theorem declineCalled_cons {op : AnchorOp} {ops : List AnchorOp} {anchor : String} :
    d.DeclineCalled (op :: ops) anchor ↔
      (op = .decline ∧ d.factoryBranchAnchor = some anchor) ∨ (d.anchorStep op).DeclineCalled ops anchor := by
  constructor
  · rintro ⟨before, after, hops, hactive⟩
    cases before with
    | nil =>
      obtain ⟨rfl, rfl⟩ := List.cons.inj hops
      exact .inl ⟨rfl, hactive⟩
    | cons op' before =>
      have hcons := List.cons.inj hops
      obtain rfl := hcons.1
      exact .inr ⟨before, after, hcons.2, hactive⟩
  · rintro (⟨rfl, hactive⟩ | ⟨before, after, rfl, hactive⟩)
    · exact ⟨[], ops, rfl, hactive⟩
    · exact ⟨op :: before, after, rfl, hactive⟩

/-- 一つの操作の後に差し戻されているもの。 -/
theorem mem_declined_step {op : AnchorOp} {b : String} :
    (∃ k ∈ (d.anchorStep op).declinedFactoryAnchors, SameCase k b) ↔
      (∃ k ∈ d.declinedFactoryAnchors, SameCase k b) ∨
        ∃ a, (op = .decline ∧ d.factoryBranchAnchor = some a) ∧ trimAnchor a ≠ "" ∧ SameCase (trimAnchor a) b := by
  rw [(anchorStep_spec d op).declined]
  by_cases hop : op = .decline
  · rw [if_pos hop]
    cases hactive : d.factoryBranchAnchor with
    | none =>
      rw [pushLive_of_none (liveAnchor_of_none hactive)]
      simp
    | some raw =>
      by_cases hblank : trimAnchor raw = ""
      · rw [pushLive_of_none (liveAnchor_of_blank hactive hblank)]
        simp [hblank]
      · rw [pushLive_of_some (liveAnchor_of_some hactive hblank), mem_pushAnchor_iff]
        simp [hop, hblank]
  · rw [if_neg hop]
    simp [hop]

/-- 差し戻されているのは、初めからのものと、`decline` が呼ばれた錨である。 -/
theorem mem_declined_run {b : String} : ∀ (ops : List AnchorOp) {d : TaskDeliverables},
    (∃ k ∈ (d.anchorRun ops).declinedFactoryAnchors, SameCase k b) ↔
      (∃ k ∈ d.declinedFactoryAnchors, SameCase k b) ∨
        ∃ a, d.DeclineCalled ops a ∧ trimAnchor a ≠ "" ∧ SameCase (trimAnchor a) b
  | [], d => by
    have hnone : ∀ a, ¬ d.DeclineCalled [] a := by
      rintro a ⟨before, after, hops, -⟩
      simp at hops
    simp [anchorRun, hnone]
  | op :: ops, d => by
    have ih := mem_declined_run (b := b) ops (d := d.anchorStep op)
    refine ih.trans ?_
    rw [mem_declined_step, or_assoc]
    simp only [declineCalled_cons, or_and_right, exists_or]

/--
**錨は失われず、誤って差し戻されない。**

一度でも錨であった空白でない commit は、今の錨か歴史にある。歴史に加わる錨は、互いにも前からのものとも等しくない。
差し戻されているのは、初めから差し戻されていたものと、`decline` が呼ばれた錨の、前後の空白を落としたものである。
-/
theorem anchors_kept_and_declined_exactly (d : TaskDeliverables) (ops : List AnchorOp) :
    (∀ before after, ops = before ++ after → ∀ a, (d.anchorRun before).factoryBranchAnchor = some a →
        trimAnchor a ≠ "" → (d.anchorRun ops).Remembers a)
      ∧ Grown d.historicalFactoryBranchAnchors (d.anchorRun ops).historicalFactoryBranchAnchors
      ∧ ∀ b, (∃ k ∈ (d.anchorRun ops).declinedFactoryAnchors, SameCase k b) ↔
        (∃ k ∈ d.declinedFactoryAnchors, SameCase k b) ∨
          ∃ a, d.DeclineCalled ops a ∧ trimAnchor a ≠ "" ∧ SameCase (trimAnchor a) b := by
  refine ⟨?_, grown_run ops (.refl _), fun b => mem_declined_run ops⟩
  rintro before after rfl a hactive hne
  have hrun : d.anchorRun (before ++ after) = (d.anchorRun before).anchorRun after := List.foldl_append
  rw [hrun]
  exact remembers_run hne after (.inl ⟨a, hactive, SameCase.refl _⟩)

/-- 空白に囲まれた錨を差し戻すと、空白を落としたものが差し戻される。 -/
theorem declined_anchor_trimmed :
    let d : TaskDeliverables := { factoryBranchAnchor := some " A " }
    (d.anchorRun [.decline]).declinedFactoryAnchors = ["A"]
      ∧ ¬ ∃ k ∈ (d.anchorRun [.decline]).declinedFactoryAnchors, SameCase k " A " := by
  decide

end TaskDeliverables

end Cassy
