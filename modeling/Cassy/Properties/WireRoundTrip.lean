import Cassy.Task.Wire

/-!
# task の JSON の往復

`to_value` したものを `from_value` したときに何が残るか。

## 読み戻しを先に書く

deliverables が何に読み戻されるかは関数に書ける（`readBack`）。失われ方は二つある。

* `is_empty` が真なら、object ごと省かれて既定値に戻る。`is_empty` の見ない八つの field が
  立っていても同じである
* `Value` の field が `null` のときは、`Option` の読み方が `None` にする

往復が成り立つ条件は、`readBack d = d` を解いたものである。
-/

namespace Cassy

open Infra Codec

/-- `Option<Value>` の読み戻し。`null` は残らない。 -/
def dropNull (o : Option Json) : Option Json := o.filter fun v => v ≠ .null

theorem dropNull_eq_self {o : Option Json} : dropNull o = o ↔ o ≠ some .null := by
  cases o with
  | none => simp [dropNull]
  | some v => by_cases h : v = .null <;> simp [dropNull, h]

/-- `Value` の field を引く。 -/
theorem value_optional_bind {β : Type} {f : Option Json → Except DeError β} {m : Members} {k : String}
    {o : Option Json} (h : m.lookup k = o.map value.ser) :
    (value.optional m k >>= f) = f (dropNull o) := by
  unfold Codec.optional
  rw [h]
  cases o with
  | none => rfl
  | some v =>
    by_cases hv : v = .null
    · subst hv
      rfl
    · have hd : dropNull (some v) = some v := dropNull_eq_self.mpr (by simpa using hv)
      rw [hd]
      cases v with
      | null => exact absurd rfl hv
      | _ => rfl

namespace TaskDeliverables

/-- `is_empty` の見ない field が、どれも立っていない。 -/
def uncheckedUnset (d : TaskDeliverables) : Bool :=
  d.modelEval.isNone && d.phaseOutcome.isNone && d.sourceClaimOverride.isNone
    && d.integrationBatch.isNone && !d.workTargetCleared && d.handoffBranches.isEmpty
    && d.parkedCloseReason.isNone && d.noDeliveryCloseIntent.isNone

/-- `null` の `Value` を落とした deliverables。 -/
def dropNulls (d : TaskDeliverables) : TaskDeliverables :=
  { d with modelEval := dropNull d.modelEval, phaseOutcome := dropNull d.phaseOutcome }

theorem dropNulls_eq_self {d : TaskDeliverables} :
    d.dropNulls = d ↔ d.modelEval ≠ some .null ∧ d.phaseOutcome ≠ some .null := by
  rw [← dropNull_eq_self, ← dropNull_eq_self]
  constructor
  · intro h
    exact ⟨congrArg modelEval h, congrArg phaseOutcome h⟩
  · rintro ⟨hm, hp⟩
    rw [dropNulls, hm, hp]

/-- 二つの一覧を合わせると、既定値であることと同じになる。 -/
theorem eq_default_iff {d : TaskDeliverables} :
    d = {} ↔ d.isEmpty = true ∧ d.uncheckedUnset = true := by
  constructor
  · rintro rfl
    exact ⟨rfl, rfl⟩
  · rintro ⟨he, hu⟩
    cases d
    simp_all [isEmpty, uncheckedUnset]

/-- object の往復。 -/
theorem object_de_ser (f : TimeFormat) (d : TaskDeliverables) :
    (object f).de ((object f).ser d) = .ok d.dropNulls := by
  have hn : ((fields f d).map Prod.fst).Nodup := by simp [fields]
  have get : ∀ (i : Nat) k v, (fields f d)[i]? = some (k, v) →
      (Fields.members (fields f d)).lookup k = v :=
    fun i _ _ h => lookup_members_of_getElem? hn i h
  show read f (Fields.members (fields f d)) = .ok d.dropNulls
  generalize Fields.members (fields f d) = m at get
  rw [read, value_optional_bind (get 0 _ _ rfl),
    value_optional_bind (get 1 _ _ rfl),
    optional_bind (get 2 _ _ rfl) EpicBranchOrigin.codec_lawful,
    optional_bind (get 3 _ _ rfl) SplitTakeoverAuthorization.codec_lawful,
    optional_bind (get 4 _ _ rfl) SourceClaimOverride.codec_lawful,
    optional_bind (get 5 _ _ rfl) (IntegrationBatchEvidence.codec_lawful f),
    optional_bind (get 6 _ _ rfl) WorkTarget.codec_lawful,
    skipFalse_bind (get 7 _ _ rfl),
    skipFalse_bind (get 8 _ _ rfl),
    optional_bind (get 9 _ _ rfl) PreCloseHookEvidence.codec_lawful,
    optional_bind (get 10 _ _ rfl) NegativeResultEvidence.codec_lawful,
    optional_bind (get 11 _ _ rfl) EvidenceOnlyEvidence.codec_lawful,
    withDefault_bind (get 12 _ _ rfl) (list_lawful string_lawful),
    optional_bind (get 13 _ _ rfl) string_lawful,
    optional_bind (get 14 _ _ rfl) string_lawful,
    optional_bind (get 15 _ _ rfl) u64_lawful,
    optional_bind (get 16 _ _ rfl) string_lawful,
    optional_bind (get 17 _ _ rfl) f.codec_lawful,
    optional_bind (get 18 _ _ rfl) string_lawful,
    optional_bind (get 19 _ _ rfl) string_lawful,
    optional_bind (get 20 _ _ rfl) FactoryBranchStart.codec_lawful,
    skipEmpty_bind (get 21 _ _ rfl) (list_lawful AuthorizedMergeSource.codec_lawful),
    skipEmpty_bind (get 22 _ _ rfl) (list_lawful string_lawful),
    optional_bind (get 23 _ _ rfl) (list_lawful string_lawful),
    optional_bind (get 24 _ _ rfl) string_lawful,
    skipEmpty_bind (get 25 _ _ rfl) (list_lawful string_lawful),
    skipFalse_bind (get 26 _ _ rfl),
    optional_bind (get 27 _ _ rfl) string_lawful,
    optional_bind (get 28 _ _ rfl) NoDeliveryCloseIntent.codec_lawful,
    optional_bind (get 29 _ _ rfl) string_lawful,
    optional_bind (get 30 _ _ rfl) MergeCiAdmission.codec_lawful]
  rfl

end TaskDeliverables

theorem TaskTerminalOutcome.codec_lawful : TaskTerminalOutcome.codec.Lawful := by
  intro o
  refine record_roundTrips (by cases o <;> simp [TaskTerminalOutcome.fields]) fun m get => ?_
  cases o with
  | cancelled supersededBy =>
    rw [TaskTerminalOutcome.read, required_bind (get 0 _ _ rfl) string_lawful]
    show (string.optional m "superseded_by" >>= fun s => pure (TaskTerminalOutcome.cancelled s))
      = .ok (.cancelled supersededBy)
    rw [optional_bind (get 1 _ _ rfl) string_lawful]
    rfl
  | delivered | negativeResult | evidenceOnly | decision =>
    rw [TaskTerminalOutcome.read, required_bind (get 0 _ _ rfl) string_lawful]
    rfl

namespace Task

variable (f : TimeFormat) (parseValue : String → Except String Json)

/--
task の読み戻し。

deliverables の位置に書かれた JSON が `r` に読めるなら、残りの field はそのまま戻る。
-/
theorem fromValue_of_deliverables (t : Task) {deliverables : Option Json}
    {r : TaskDeliverables}
    (hd : ∀ m : Members, m.lookup "deliverables" = deliverables →
      (TaskDeliverables.codec f parseValue).withDefault m "deliverables" {} = .ok r) :
    fromValue f parseValue (.object (Fields.members (t.fields f deliverables)))
      = .ok { t with deliverables := some r } := by
  have hn : ((t.fields f deliverables).map Prod.fst).Nodup := by simp [fields]
  have get : ∀ (i : Nat) k v, (t.fields f deliverables)[i]? = some (k, v) →
      (Fields.members (t.fields f deliverables)).lookup k = v :=
    fun i _ _ h => lookup_members_of_getElem? hn i h
  show read f parseValue (Fields.members (t.fields f deliverables)) = _
  generalize Fields.members (t.fields f deliverables) = m at get
  rw [read, required_bind (get 0 _ _ rfl) string_lawful,
    withDefault_bind (get 1 _ _ rfl) Scope.codec_lawful,
    optional_bind (get 2 _ _ rfl) string_lawful,
    required_bind (get 3 _ _ rfl) string_lawful,
    withDefault_bind (get 4 _ _ rfl) string_lawful,
    withDefault_bind (get 5 _ _ rfl) string_lawful,
    withDefault_bind (get 6 _ _ rfl) string_lawful,
    withDefault_bind (get 7 _ _ rfl) string_lawful,
    withDefault_bind (get 8 _ _ rfl) TaskStatus.codec_lawful,
    withDefault_bind (get 9 _ _ rfl) i32_lawful,
    withDefault_bind (get 10 _ _ rfl) TaskType.codec_lawful,
    withDefault_bind (get 11 _ _ rfl) (list_lawful TaskRisk.codec_lawful),
    optional_bind (get 12 _ _ rfl) TaskDoor.codec_lawful,
    withDefault_bind (get 13 _ _ rfl) (list_lawful string_lawful),
    optional_bind (get 14 _ _ rfl) string_lawful,
    withDefault_bind (get 15 _ _ rfl) (list_lawful string_lawful),
    required_bind (get 16 _ _ rfl) f.codec_lawful,
    required_bind (get 17 _ _ rfl) f.codec_lawful,
    optional_bind (get 18 _ _ rfl) f.codec_lawful,
    optional_bind (get 19 _ _ rfl) string_lawful,
    optional_bind (get 20 _ _ rfl) TaskTerminalOutcome.codec_lawful,
    optional_bind (get 21 _ _ rfl) string_lawful,
    optional_bind (get 22 _ _ rfl) string_lawful,
    optional_bind (get 23 _ _ rfl) string_lawful,
    optional_bind (get 24 _ _ rfl) string_lawful,
    skipFalse_bind (get 25 _ _ rfl),
    skipFalse_bind (get 26 _ _ rfl),
    optional_bind (get 27 _ _ rfl) string_lawful,
    hd m (get 28 _ _ rfl), ok_bind,
    optional_bind (get 29 _ _ rfl) string_lawful,
    optional_bind (get 30 _ _ rfl) ShareScope.codec_lawful,
    withDefault_bind (get 31 _ _ rfl) string_lawful,
    optional_bind (get 32 _ _ rfl) string_lawful,
    withDefault_bind (get 33 _ _ rfl) TaskDepth.codec_lawful,
    withDefault_bind (get 34 _ _ rfl) DeliveryMode.codec_lawful]
  simp [pure, Except.pure]

/-- deliverables が何に読み戻されるか。 -/
def readBack (d : TaskDeliverables) : TaskDeliverables := if d.isEmpty then {} else d.dropNulls

theorem fromValue_toValue (t : Task) (d : TaskDeliverables) :
    fromValue f parseValue (toValue f { t with deliverables := some d })
      = .ok { t with deliverables := some (readBack d) } := by
  refine fromValue_of_deliverables f parseValue { t with deliverables := some d } fun m hm => ?_
  rw [withDefault, hm, readBack, deliverablesValue]
  simp only [Option.getD_some]
  by_cases he : d.isEmpty = true
  · rw [if_pos he, if_pos he]
  · rw [if_neg he, if_neg he]
    exact TaskDeliverables.object_de_ser f d

/-- 文字列に包んだ形では、object が省かれることはない。 -/
theorem fromValue_legacyValue (t : Task) (d : TaskDeliverables) {encoded : String}
    (h : parseValue encoded = .ok ((TaskDeliverables.object f).ser d)) :
    fromValue f parseValue (legacyValue f { t with deliverables := some d } encoded)
      = .ok { t with deliverables := some d.dropNulls } := by
  refine fromValue_of_deliverables f parseValue { t with deliverables := some d } fun m hm => ?_
  rw [withDefault, hm]
  show TaskDeliverables.de f parseValue (.string encoded) = .ok d.dropNulls
  rw [TaskDeliverables.de, h]
  exact TaskDeliverables.object_de_ser f d

/-- 省かれるのは、何も立っていないときだけである。 -/
theorem readBack_eq_self {d : TaskDeliverables} :
    readBack d = d ↔ (d.isEmpty = true → d.uncheckedUnset = true)
      ∧ d.modelEval ≠ some .null ∧ d.phaseOutcome ≠ some .null := by
  unfold readBack
  by_cases he : d.isEmpty = true
  · rw [if_pos he]
    constructor
    · intro h
      rw [← h]
      exact ⟨fun _ => rfl, nofun, nofun⟩
    · rintro ⟨hu, -, -⟩
      exact (TaskDeliverables.eq_default_iff.mpr ⟨he, hu he⟩).symm
  · rw [if_neg he, TaskDeliverables.dropNulls_eq_self]
    exact ⟨fun h => ⟨fun h' => absurd h' he, h⟩, fun h => h.2⟩

/--
**task の JSON が往復する条件。**

左辺は、現在の形でも文字列に包んだ古い形でも、書いた task が読み戻ることである。
-/
theorem value_roundTrip_iff (t : Task) (d : TaskDeliverables) :
    (fromValue f parseValue (toValue f { t with deliverables := some d })
        = .ok { t with deliverables := some d }
      ∧ ∀ encoded, parseValue encoded = .ok ((TaskDeliverables.object f).ser d) →
        fromValue f parseValue (legacyValue f { t with deliverables := some d } encoded)
          = .ok { t with deliverables := some d })
      ↔ (d.isEmpty = true → d.uncheckedUnset = true)
        ∧ d.modelEval ≠ some .null ∧ d.phaseOutcome ≠ some .null := by
  rw [← readBack_eq_self, fromValue_toValue]
  constructor
  · rintro ⟨h, -⟩
    exact Option.some.inj (congrArg deliverables (Except.ok.inj h))
  · intro h
    refine ⟨by rw [h], fun encoded he => ?_⟩
    obtain ⟨-, hnull⟩ := readBack_eq_self.mp h
    rw [fromValue_legacyValue f parseValue t d he, TaskDeliverables.dropNulls_eq_self.mpr hnull]

end Task

/-! ## 失われる例 -/

/-- 読み書きの例に使う時刻の書式。epoch だけは `chrono` と同じ文字列にする。 -/
def epochFormat : TimeFormat where
  format t :=
    if t = 0 then "1970-01-01T00:00:00Z"
    else if 0 < t then String.ofList (List.replicate t.natAbs '+')
    else String.ofList (List.replicate t.natAbs '-')
  parse s :=
    match s.toList with
    | '+' :: rest => some (rest.length + 1)
    | '-' :: rest => some (-(rest.length + 1))
    | cs => if cs = "1970-01-01T00:00:00Z".toList then some 0 else none
  parse_format := by
    intro (t : Int)
    rcases Int.lt_trichotomy t 0 with h | rfl | h
    · obtain ⟨n, hn⟩ : ∃ n, t.natAbs = n + 1 := ⟨t.natAbs - 1, by omega⟩
      have h0 : ¬ t = 0 := by omega
      have h1 : ¬ 0 < t := by omega
      rw [if_neg h0, if_neg h1, hn]
      simp only [String.toList_ofList, List.replicate_succ, List.length_replicate]
      exact congrArg some (show -((n : Int) + 1) = t by omega)
    · decide
    · obtain ⟨n, hn⟩ : ∃ n, t.natAbs = n + 1 := ⟨t.natAbs - 1, by omega⟩
      have h0 : ¬ t = 0 := by omega
      rw [if_neg h0, if_pos h, hn]
      simp only [String.toList_ofList, List.replicate_succ, List.length_replicate]
      exact congrArg some (show (n : Int) + 1 = t by omega)

/-- 前の担当者の branch だけを覚えている task。 -/
def handedOffTask : Task where
  id := "cas-a1b2"
  title := "Filter results live"
  deliverables := some { handoffBranches := ["factory/swift-fox-1"] }

/-- 引き継ぎの branch は、書いて読むと消える。 -/
theorem handedOffTask_loses_branch :
    Task.fromValue epochFormat (fun _ => .error "unused") (handedOffTask.toValue epochFormat)
        = .ok { handedOffTask with deliverables := some {} }
      ∧ Task.fromValue epochFormat (fun _ => .error "unused") (handedOffTask.toValue epochFormat)
        ≠ .ok handedOffTask := by
  decide

end Cassy
