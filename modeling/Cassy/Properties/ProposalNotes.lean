import Cassy.Infra.Paragraphs
import Cassy.Cloud.ProposalNotes

/-!
# 書き込んだ来歴を取り出す

notes に書き込んだ来歴の塊を、同じ notes から取り出せるか。取り出す側は、始まりと終わりの目印が notes の中に一つずつしか
現れないことを求める。だから、利用者の文や来歴の値が目印の文字列を含めば、塊は取り出せない。

取り出せる条件を必要十分な形で言う。取り出せたときは、塊は書き込んだものと同じで、残りは利用者の文である。
-/

namespace Cassy

open Infra

/-! ## 目印 -/

/-- 始まりの目印も終わりの目印も現れない。 -/
def Unmarked (t : Text) : Prop := ¬ beginServerAttested <:+: t ∧ ¬ endClientAsserted <:+: t

instance (t : Text) : Decidable (Unmarked t) := inferInstanceAs (Decidable (_ ∧ _))

theorem begin_ne_nil : beginServerAttested ≠ [] := by decide

theorem end_ne_nil : endClientAsserted ≠ [] := by decide

theorem begin_line : '\n' ∉ beginServerAttested := by decide

theorem end_line : '\n' ∉ endClientAsserted := by decide

theorem begin_getLast : beginServerAttested.getLast? = some '-' := by decide

theorem end_getLast : endClientAsserted.getLast? = some '-' := by decide

theorem unmarked_nil : Unmarked [] := by
  unfold Unmarked
  rw [List.infix_nil, List.infix_nil]
  exact ⟨begin_ne_nil, end_ne_nil⟩

theorem unmarked_append_of_endsLine {x y : Text} (hx : EndsLine x) :
    Unmarked (x ++ y) ↔ Unmarked x ∧ Unmarked y := by
  unfold Unmarked
  rw [infix_append_of_endsLine begin_ne_nil begin_line hx,
    infix_append_of_endsLine end_ne_nil end_line hx, not_or, not_or]
  exact and_and_and_comm

theorem unmarked_append_blank {x w : Text} (hw : Blank w) : Unmarked (x ++ w) ↔ Unmarked x := by
  unfold Unmarked
  rw [infix_append_blank begin_getLast (by decide) hw, infix_append_blank end_getLast (by decide) hw]

theorem unmarked_joinParagraphs {ps : List Text} :
    Unmarked (joinParagraphs ps) ↔ ∀ p ∈ ps, Unmarked p := by
  unfold Unmarked
  rw [infix_joinParagraphs begin_ne_nil begin_line, infix_joinParagraphs end_ne_nil end_line]
  simp only [not_exists, not_and]
  exact ⟨fun h p hp => ⟨h.1 p hp, h.2 p hp⟩, fun h => ⟨fun p hp => (h p hp).1, fun p hp => (h p hp).2⟩⟩

/-! ## 塊の中 -/

namespace ProposalProvenance

variable {p : ProposalProvenance}

/-- 来歴の値の全部。 -/
def values (p : ProposalProvenance) : List String :=
  let server := p.serverAttested
  let client := p.clientAsserted
  [server.proposalId, server.targetTaskId, server.creatorUserId, server.teamId,
    server.originProjectCanonicalId, server.targetProjectCanonicalId, server.receivedAt,
    server.clientRequestId]
    ++ [client.originSessionId, client.originAgentId, client.originAgentName, client.originAgentRole,
      client.clientVersion, client.clientBuild].filterMap id

/-- どの値にも目印が現れない。 -/
def Unmarked (p : ProposalProvenance) : Prop := ∀ v ∈ p.values, Cassy.Unmarked v.toList

instance (p : ProposalProvenance) : Decidable p.Unmarked :=
  inferInstanceAs (Decidable (∀ v ∈ p.values, Cassy.Unmarked v.toList))

end ProposalProvenance

/-- 値の行に使える目印。 -/
def IsMarker (pat : Text) : Prop :=
  ∃ ps, pat = '-' :: ps ∧ PlainPattern '-' ps ∧ ¬ pat <:+: "(not asserted)".toList

theorem plainPattern_of_chars {ps : Text}
    (h : ('-' :: ps).all (fun c => decide (escapeChar c = [c] ∧ c ≠ '"')) = true) :
    PlainPattern '-' ps :=
  ⟨fun c hc => of_decide_eq_true (List.all_eq_true.mp h c hc),
    fun _ hc => eq_hyphen_of_mem_escapeChar hc⟩

theorem isMarker_begin : IsMarker beginServerAttested :=
  ⟨beginServerAttested.tail, by decide, plainPattern_of_chars (by decide),
    by decide +kernel⟩

theorem isMarker_end : IsMarker endClientAsserted :=
  ⟨endClientAsserted.tail, by decide, plainPattern_of_chars (by decide),
    by decide +kernel⟩

/-- 値の行に目印が現れるのは、値に現れるときである。 -/
theorem infix_provenanceField {pat : Text} (hpat : IsMarker pat) {name : String}
    (hname : '-' ∉ name.toList) {value : Text} :
    pat <:+: provenanceField name value ↔ pat <:+: value := by
  obtain ⟨ps, rfl, -, -⟩ := hpat
  unfold provenanceField
  refine infix_append_of_notMem ?_
  simp only [List.mem_append, not_or]
  exact ⟨⟨by decide, hname⟩, by decide⟩

theorem infix_renderProvenanceValue {pat : Text} (hpat : IsMarker pat) {v : String} :
    pat <:+: renderProvenanceValue v ↔ pat <:+: v.toList := by
  obtain ⟨ps, rfl, hplain, -⟩ := hpat
  exact infix_writeString_iff hplain

theorem infix_renderAssertedValue {pat : Text} (hpat : IsMarker pat) {v : Option String} :
    pat <:+: renderAssertedValue v ↔ ∃ s ∈ v, pat <:+: s.toList := by
  cases v with
  | none => exact iff_of_false (hpat.elim fun _ h => h.2.2) nofun
  | some s =>
    show pat <:+: renderProvenanceValue s ↔ _
    rw [infix_renderProvenanceValue hpat]
    simp

/-- 塊の中の行に目印が現れるのは、どれかの値に現れるときである。 -/
theorem infix_innerLines {pat : Text} (hpat : IsMarker pat) (hend : ¬ pat <:+: endServerAttested)
    (hbegin : ¬ pat <:+: beginClientAsserted) {p : ProposalProvenance} :
    (∃ l ∈ p.innerLines, pat <:+: l) ↔ ∃ v ∈ p.values, pat <:+: v.toList := by
  have hnil : ¬ pat <:+: [] := by
    obtain ⟨ps, rfl, -, -⟩ := hpat
    simp
  have hfield : ∀ {name : String} {value : Text}, '-' ∉ name.toList →
      (pat <:+: provenanceField name value ↔ pat <:+: value) := fun hname => infix_provenanceField hpat hname
  have hcons : ∀ (x : Text) (ls : List Text), (∃ l ∈ x :: ls, pat <:+: l)
      ↔ pat <:+: x ∨ ∃ l ∈ ls, pat <:+: l := fun x ls => by simp
  have hvalue : ∀ (v : String) (vs : List String), (∃ w ∈ v :: vs, pat <:+: w.toList)
      ↔ pat <:+: v.toList ∨ ∃ w ∈ vs, pat <:+: w.toList := fun v vs => by simp
  have hasserted : ∀ (o : Option String) (os : List (Option String)),
      (∃ w ∈ (o :: os).filterMap id, pat <:+: w.toList)
        ↔ (∃ w ∈ o, pat <:+: w.toList) ∨ ∃ w ∈ os.filterMap id, pat <:+: w.toList := by
    intro o os
    cases o with
    | none => simp
    | some v => simp
  have hempty : ¬ ∃ l ∈ ([] : List Text), pat <:+: l := by simp
  have hempty' : ¬ ∃ w ∈ ([] : List (Option String)).filterMap id, pat <:+: w.toList := by simp
  unfold ProposalProvenance.innerLines ProposalProvenance.values
  simp only [hcons, List.cons_append, List.nil_append, hvalue, hasserted]
  rw [hfield (by decide), hfield (by decide), hfield (by decide), hfield (by decide),
    hfield (by decide), hfield (by decide), hfield (by decide), hfield (by decide),
    hfield (by decide), hfield (by decide), hfield (by decide), hfield (by decide),
    hfield (by decide), hfield (by decide)]
  simp only [infix_renderProvenanceValue hpat, infix_renderAssertedValue hpat, hend, hbegin, hnil,
    hempty, hempty', false_or, or_false]

/-! ## 塊の前と後 -/

section Framed

variable {p : ProposalProvenance} {pre post : Text}

/-- 塊の、始まりの目印より後。 -/
def ProposalProvenance.tail (p : ProposalProvenance) : Text :=
  List.intercalate ['\n'] p.innerLines ++ '\n' :: endClientAsserted

/-- 塊の、終わりの目印より前。 -/
def ProposalProvenance.init (p : ProposalProvenance) : Text :=
  beginServerAttested ++ '\n' :: List.intercalate ['\n'] p.innerLines

theorem rendered_eq_begin : p.rendered = beginServerAttested ++ '\n' :: p.tail := rfl

theorem rendered_eq_end : p.rendered = p.init ++ '\n' :: endClientAsserted := by
  unfold ProposalProvenance.rendered ProposalProvenance.init
  rw [List.append_assoc, List.cons_append]

theorem begin_notInfix : ¬ beginServerAttested <:+: endServerAttested
    ∧ ¬ beginServerAttested <:+: beginClientAsserted
    ∧ ¬ beginServerAttested <:+: endClientAsserted := by decide +kernel

theorem end_notInfix : ¬ endClientAsserted <:+: endServerAttested
    ∧ ¬ endClientAsserted <:+: beginClientAsserted
    ∧ ¬ endClientAsserted <:+: beginServerAttested := by decide +kernel

theorem begin_infix_tail :
    beginServerAttested <:+: p.tail ↔ ∃ v ∈ p.values, beginServerAttested <:+: v.toList := by
  unfold ProposalProvenance.tail
  rw [infix_append_newline begin_ne_nil begin_line, infix_intercalate_newline begin_ne_nil begin_line,
    infix_innerLines isMarker_begin begin_notInfix.1 begin_notInfix.2.1,
    or_iff_left begin_notInfix.2.2]

theorem end_infix_init :
    endClientAsserted <:+: p.init ↔ ∃ v ∈ p.values, endClientAsserted <:+: v.toList := by
  unfold ProposalProvenance.init
  rw [infix_append_newline end_ne_nil end_line, infix_intercalate_newline end_ne_nil end_line,
    infix_innerLines isMarker_end end_notInfix.1 end_notInfix.2.1,
    or_iff_right end_notInfix.2.2]

/-- 塊の前後を合わせた中での、始まりの目印の位置。 -/
theorem matchIndices_begin (hpre : EndsLine pre) (hpost : BeginsLine post) :
    matchIndices beginServerAttested (pre ++ p.rendered ++ post)
      = matchFrom beginServerAttested 0 0 pre
        ++ (pre.length :: matchFrom beginServerAttested 0
          (pre.length + beginServerAttested.length + 1) p.tail)
        ++ matchFrom beginServerAttested 0 (pre ++ p.rendered).length post := by
  unfold matchIndices
  rw [matchFrom_append_of_beginsLine begin_ne_nil begin_line _ hpost,
    matchFrom_append_of_endsLine begin_ne_nil begin_line hpre, Nat.zero_add, Nat.zero_add,
    rendered_eq_begin, matchFrom_append_newline begin_ne_nil begin_line _ _ 0 _ (Nat.zero_le _),
    matchFrom_self begin_ne_nil, List.singleton_append]

/-- 終わりの目印の位置。 -/
theorem matchIndices_end (hpre : EndsLine pre) (hpost : BeginsLine post) :
    matchIndices endClientAsserted (pre ++ p.rendered ++ post)
      = matchFrom endClientAsserted 0 0 pre
        ++ (matchFrom endClientAsserted 0 pre.length p.init ++ [pre.length + p.init.length + 1])
        ++ matchFrom endClientAsserted 0 (pre ++ p.rendered).length post := by
  unfold matchIndices
  rw [matchFrom_append_of_beginsLine end_ne_nil end_line _ hpost,
    matchFrom_append_of_endsLine end_ne_nil end_line hpre, Nat.zero_add, Nat.zero_add,
    rendered_eq_end, matchFrom_append_newline end_ne_nil end_line _ _ 0 _ (Nat.zero_le _),
    matchFrom_self end_ne_nil]

theorem uniqueCompleteProvenanceBlock_of_length {notes : Text}
    (h : (matchIndices beginServerAttested notes).length ≠ 1
      ∨ (matchIndices endClientAsserted notes).length ≠ 1) :
    uniqueCompleteProvenanceBlock notes = none := by
  unfold uniqueCompleteProvenanceBlock
  split
  next hbegin hend =>
    rw [hbegin, hend] at h
    simp at h
  next => rfl

theorem getElem?_append_of_endsLine {x y : Text} (hx : EndsLine x) (hne : x.length ≠ 0) :
    (x ++ y)[x.length - 1]? = some '\n' := by
  rcases hx with rfl | ⟨x', rfl⟩
  · exact absurd rfl hne
  · simp

theorem getElem?_append_of_beginsLine {x y : Text} (hy : BeginsLine y) :
    (x ++ y).length = x.length ∨ (x ++ y)[x.length]? = some '\n' := by
  rcases hy with rfl | ⟨y', rfl⟩
  · exact .inl (by simp)
  · exact .inr (by simp)

/-- 目印が塊の前後にも値にも現れないときだけ、塊の場所が決まる。 -/
theorem uniqueCompleteProvenanceBlock_framed (hpre : EndsLine pre) (hpost : BeginsLine post) :
    (p.Unmarked ∧ Unmarked pre ∧ Unmarked post →
        uniqueCompleteProvenanceBlock (pre ++ p.rendered ++ post)
          = some (pre.length, pre.length + p.rendered.length))
      ∧ (¬ (p.Unmarked ∧ Unmarked pre ∧ Unmarked post) →
        uniqueCompleteProvenanceBlock (pre ++ p.rendered ++ post) = none) := by
  have hbegin := matchIndices_begin (p := p) hpre hpost
  have hend := matchIndices_end (p := p) hpre hpost
  constructor
  · rintro ⟨hvalues, hpreU, hpostU⟩
    have htail : ¬ beginServerAttested <:+: p.tail := by
      rw [begin_infix_tail]
      rintro ⟨v, hv, hinfix⟩
      exact (hvalues v hv).1 hinfix
    have hinit : ¬ endClientAsserted <:+: p.init := by
      rw [end_infix_init]
      rintro ⟨v, hv, hinfix⟩
      exact (hvalues v hv).2 hinfix
    rw [(matchFrom_eq_nil_iff begin_ne_nil _ _).mpr hpreU.1,
      (matchFrom_eq_nil_iff begin_ne_nil _ _).mpr htail,
      (matchFrom_eq_nil_iff begin_ne_nil _ _).mpr hpostU.1] at hbegin
    rw [(matchFrom_eq_nil_iff end_ne_nil _ _).mpr hpreU.2,
      (matchFrom_eq_nil_iff end_ne_nil _ _).mpr hinit,
      (matchFrom_eq_nil_iff end_ne_nil _ _).mpr hpostU.2] at hend
    have hlen : p.init.length + 1 + endClientAsserted.length = p.rendered.length := by
      rw [rendered_eq_end, List.length_append, List.length_cons]
      omega
    have hlt : beginServerAttested.length ≤ p.init.length := by
      unfold ProposalProvenance.init
      rw [List.length_append]
      exact Nat.le_add_right _ _
    have hbeginLine : markerIsLine (pre ++ p.rendered ++ post) pre.length
        beginServerAttested.length = true := by
      unfold markerIsLine
      rw [Bool.and_eq_true, Bool.or_eq_true, Bool.or_eq_true, decide_eq_true_eq, decide_eq_true_eq,
        decide_eq_true_eq, decide_eq_true_eq]
      constructor
      · by_cases hzero : pre.length = 0
        · exact .inl hzero
        · right
          rw [List.append_assoc]
          exact getElem?_append_of_endsLine hpre hzero
      · right
        rw [rendered_eq_begin, List.append_assoc, List.append_assoc, ← List.append_assoc pre,
          List.cons_append, ← List.length_append]
        simp
    have hendLine : markerIsLine (pre ++ p.rendered ++ post) (pre.length + p.init.length + 1)
        endClientAsserted.length = true := by
      unfold markerIsLine
      rw [Bool.and_eq_true, Bool.or_eq_true, Bool.or_eq_true, decide_eq_true_eq, decide_eq_true_eq,
        decide_eq_true_eq, decide_eq_true_eq]
      constructor
      · right
        rw [rendered_eq_end, List.append_assoc, List.append_assoc, ← List.append_assoc pre,
          List.cons_append, Nat.add_sub_cancel, ← List.length_append]
        simp
      · have htotal : pre.length + p.init.length + 1 + endClientAsserted.length
            = (pre ++ p.rendered).length := by
          rw [List.length_append]
          omega
        rw [htotal]
        exact (getElem?_append_of_beginsLine hpost).imp_left Eq.symm
    unfold uniqueCompleteProvenanceBlock
    rw [hbegin, hend]
    simp only [List.nil_append, List.append_nil]
    rw [if_pos ⟨by omega, hbeginLine, hendLine⟩]
    congr 2
    omega
  · intro hmarked
    refine uniqueCompleteProvenanceBlock_of_length ?_
    by_contra hlen
    rw [not_or, not_not, not_not, hbegin, hend] at hlen
    simp only [List.length_append, List.length_cons, List.length_nil] at hlen
    refine hmarked ⟨?_, ?_, ?_⟩
    · intro v hv
      constructor
      · intro hinfix
        have hne := mt (matchFrom_eq_nil_iff begin_ne_nil p.tail
          (pre.length + beginServerAttested.length + 1)).mp
          (not_not.mpr (begin_infix_tail.mpr ⟨v, hv, hinfix⟩))
        have hpos := List.length_pos_of_ne_nil hne
        omega
      · intro hinfix
        have hne := mt (matchFrom_eq_nil_iff end_ne_nil p.init pre.length).mp
          (not_not.mpr (end_infix_init.mpr ⟨v, hv, hinfix⟩))
        have hpos := List.length_pos_of_ne_nil hne
        omega
    · constructor
      · refine (matchFrom_eq_nil_iff begin_ne_nil pre 0).mp (List.length_eq_zero_iff.mp ?_)
        omega
      · refine (matchFrom_eq_nil_iff end_ne_nil pre 0).mp (List.length_eq_zero_iff.mp ?_)
        omega
    · constructor
      · refine (matchFrom_eq_nil_iff begin_ne_nil post (pre.length + p.rendered.length)).mp
          (List.length_eq_zero_iff.mp ?_)
        omega
      · refine (matchFrom_eq_nil_iff end_ne_nil post (pre.length + p.rendered.length)).mp
          (List.length_eq_zero_iff.mp ?_)
        omega

end Framed

end Cassy
