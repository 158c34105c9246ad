import Cassy.Cloud.Push

/-!
# 現物のある相手への削除

pull は待ち行列を通さずに手元へ書くので、消した後で戻ってきた現物の前に、古い削除の行が残っていることがある。
それを送ると、cloud の生きた行が消える。

`neutralize_delete_if_local_entity_exists` はこれを防ぐが、entry と task しか調べず、team の push は `project_id` を
持つ行を調べない。`SyncingTaskStore::delete` は task の持ち主を team の削除の行に書くので、task の削除の team の写しは
いつも検査を免れる。検査の当たらない行がどれも現物を持たないことが、性質の成り立つ条件である。
-/

namespace Cassy

open Infra

variable {site : PushSite} {q : SyncQueue} {item : QueuedSync} {teamId : String}

/-- 手元の store に、宛先の project のものとして現物がある。持ち主の書かれていない行は手元の project のものとする。 -/
def PushSite.Live (site : PushSite) (request : DeleteRequest) : Bool :=
  (site.store.lookupEntity request.entityType request.entityId).any fun e =>
    projectIdsMatch site.env.aliasClass (e.originProject.getD site.project) request.projectId

/-- 検査が調べる種類。 -/
def EntityType.checkedBeforeDelete : EntityType → Bool
  | .entry | .task => true
  | _ => false

/-- 検査の結果は、種類と手元の store だけで決まる。 -/
theorem neutralized_eq (site : PushSite) (q : SyncQueue) (item : QueuedSync) :
    site.neutralized q item
      = (item.entityType.checkedBeforeDelete
        && (site.store.lookupEntity item.entityType item.entityId).isSome) := by
  unfold PushSite.neutralized SyncQueue.neutralizeDeleteIfLocalEntityExists
    EntityType.checkedBeforeDelete
  cases item.entityType with
  | entry | task =>
    dsimp only
    split
    next hfound => simp [hfound]
    next hmissing => simp [hmissing]
  | _ => rfl

/-- 検査の当たる行が残っていれば、現物は無い。 -/
theorem not_live_of_not_neutralized {request : DeleteRequest}
    (htype : request.entityType = item.entityType) (hid : request.entityId = item.entityId)
    (hchecked : item.entityType.checkedBeforeDelete) (h : ¬ site.neutralized q item) :
    ¬ site.Live request := by
  rw [neutralized_eq, hchecked, Bool.true_and] at h
  unfold PushSite.Live
  rw [htype, hid, Option.not_isSome_iff_eq_none.mp h]
  exact Bool.false_ne_true

/-! ## 送られる削除 -/

theorem mem_pushOrder {entityType : EntityType} (h : entityType ≠ .knowledgePage) :
    entityType ∈ pushOrder := by
  cases entityType with
  | knowledgePage => exact absurd rfl h
  | _ => decide

theorem mem_personalDeletes {upsertsFailed : EntityType → Bool} {request : DeleteRequest}
    (h : request ∈ site.personalDeletes q upsertsFailed) :
    ∃ item ∈ site.personalSelected q, item.operation = .delete ∧ ¬ site.neutralized q item
      ∧ site.personalRequest item = request := by
  obtain ⟨entityType, -, h⟩ := List.mem_flatMap.mp h
  split at h
  · simp at h
  · obtain ⟨item, hitem, rfl⟩ := List.mem_map.mp h
    rw [List.mem_filter, List.mem_filter] at hitem
    simp only [Bool.and_eq_true, decide_eq_true_eq, Bool.not_eq_true'] at hitem
    exact ⟨item, hitem.1.1, hitem.1.2.2, by simp [hitem.2], rfl⟩

/-- どの書き込みも送れたなら、検査を通った削除は全部送られる。 -/
theorem personalRequest_mem (hitem : item ∈ site.personalSelected q)
    (hop : item.operation = .delete) (htype : item.entityType ≠ .knowledgePage)
    (h : ¬ site.neutralized q item) :
    site.personalRequest item ∈ site.personalDeletes q fun _ => false := by
  refine List.mem_flatMap.mpr ⟨item.entityType, mem_pushOrder htype, ?_⟩
  refine List.mem_map.mpr ⟨item, ?_, rfl⟩
  rw [List.mem_filter, List.mem_filter]
  simp [hitem, hop, h]

theorem personalSelected_not_knowledgePage (h : item ∈ site.personalSelected q) :
    item.entityType ≠ .knowledgePage := by
  unfold PushSite.personalSelected at h
  split at h
  · simp at h
  · obtain ⟨r, hr, rfl⟩ := List.mem_map.mp h
    have hsel := List.mem_mergeSort.mp (List.mem_of_mem_take hr)
    rw [List.mem_filter] at hsel
    simp only [Bool.and_eq_true, decide_eq_true_eq] at hsel
    exact hsel.2.1.1.2

theorem mem_teamSendable :
    item ∈ site.teamSendable q teamId ↔ item ∈ site.teamSelected q teamId
      ∧ ¬ (item.operation = .delete ∧ item.projectId = none ∧ site.neutralized q item) := by
  unfold PushSite.teamSendable
  rw [List.mem_filter]
  refine and_congr_right fun _ => ?_
  rw [Bool.not_eq_true', ← Bool.not_eq_true, Bool.and_eq_true, Bool.and_eq_true,
    decide_eq_true_eq, Option.isNone_iff_eq_none, and_assoc]

/-- 送られる削除の行は、`project_id` を持つか、検査を通ったものである。 -/
theorem mem_teamDeletes {errors : Bool} {request : DeleteRequest}
    (h : request ∈ site.teamDeletes q teamId errors) :
    ∃ item ∈ site.teamSelected q teamId, item.operation = .delete
      ∧ (item.projectId ≠ none ∨ ¬ site.neutralized q item)
      ∧ site.teamRequest teamId item = request := by
  obtain ⟨item, hitem, rfl⟩ := List.mem_map.mp h
  have hdelete : item ∈ (site.teamSendable q teamId).filter (·.operation = .delete) := by
    rcases List.mem_append.mp hitem with hitem | hitem
    · exact List.mem_of_mem_filter hitem
    · split at hitem
      · simp at hitem
      · exact List.mem_of_mem_filter hitem
  rw [List.mem_filter, decide_eq_true_eq, mem_teamSendable] at hdelete
  obtain ⟨⟨hselected, hchecked⟩, hop⟩ := hdelete
  refine ⟨item, hselected, hop, ?_, rfl⟩
  by_cases hproject : item.projectId = none
  · exact .inr fun hneutralized => hchecked ⟨hop, hproject, hneutralized⟩
  · exact .inl hproject

/-- 途中に失敗が無ければ、そういう行の削除は全部送られる。 -/
theorem teamRequest_mem (hitem : item ∈ site.teamSelected q teamId) (hop : item.operation = .delete)
    (h : item.projectId ≠ none ∨ ¬ site.neutralized q item) :
    site.teamRequest teamId item ∈ site.teamDeletes q teamId false := by
  refine List.mem_map.mpr ⟨item, ?_, rfl⟩
  have hdelete : item ∈ (site.teamSendable q teamId).filter (·.operation = .delete) := by
    refine List.mem_filter.mpr ⟨mem_teamSendable.mpr ⟨hitem, ?_⟩, decide_eq_true hop⟩
    rintro ⟨-, hproject, hneutralized⟩
    exact h.elim (fun hne => hne hproject) fun hnot => hnot hneutralized
  cases hproject : item.projectId with
  | none =>
    refine List.mem_append_right _ (List.mem_filter.mpr ⟨hdelete, ?_⟩)
    simp [hproject]
  | some project =>
    refine List.mem_append_left _ (List.mem_filter.mpr ⟨hdelete, ?_⟩)
    simp [hproject]

/-! ## 性質と条件 -/

/-- cloud がどう答えても、個人の push も team の push も、現物のある相手への削除を送らない。 -/
def WithholdsLiveDeletes (site : PushSite) (q : SyncQueue) (teamId : String) : Prop :=
  (∀ upsertsFailed, ∀ request ∈ site.personalDeletes q upsertsFailed, ¬ site.Live request)
    ∧ ∀ errors, ∀ request ∈ site.teamDeletes q teamId errors, ¬ site.Live request

/-- 検査の当たらない削除の行は、どれも現物を持たない。 -/
structure UncheckedDeletesDead (site : PushSite) (q : SyncQueue) (teamId : String) : Prop where
  personal : ∀ item ∈ site.personalSelected q, item.operation = .delete →
    ¬ item.entityType.checkedBeforeDelete → ¬ site.Live (site.personalRequest item)
  team : ∀ item ∈ site.teamSelected q teamId, item.operation = .delete →
    (item.projectId ≠ none ∨ ¬ item.entityType.checkedBeforeDelete) →
    ¬ site.Live (site.teamRequest teamId item)

theorem uncheckedDeletesDead_of_withholds (h : WithholdsLiveDeletes site q teamId) :
    UncheckedDeletesDead site q teamId where
  personal := by
    intro item hitem hop hunchecked
    refine h.1 (fun _ => false) _
      (personalRequest_mem hitem hop (personalSelected_not_knowledgePage hitem) ?_)
    simp [neutralized_eq, hunchecked]
  team := by
    intro item hitem hop hunchecked
    refine h.2 false _ (teamRequest_mem hitem hop (hunchecked.imp_right fun hunchecked => ?_))
    simp [neutralized_eq, hunchecked]

theorem withholds_of_uncheckedDeletesDead (h : UncheckedDeletesDead site q teamId) :
    WithholdsLiveDeletes site q teamId := by
  constructor
  · intro upsertsFailed request hrequest
    obtain ⟨item, hitem, hop, hneutralized, rfl⟩ := mem_personalDeletes hrequest
    by_cases hchecked : item.entityType.checkedBeforeDelete
    · exact not_live_of_not_neutralized rfl rfl hchecked hneutralized
    · exact h.personal item hitem hop hchecked
  · intro errors request hrequest
    obtain ⟨item, hitem, hop, hsent, rfl⟩ := mem_teamDeletes hrequest
    by_cases hchecked : item.entityType.checkedBeforeDelete
    · rcases hsent with hproject | hneutralized
      · exact h.team item hitem hop (.inl hproject)
      · exact not_live_of_not_neutralized rfl rfl hchecked hneutralized
    · exact h.team item hitem hop (.inr hchecked)

/-- push が現物のある相手への削除を送らないのは、検査の当たらない削除の行がどれも現物を持たないとき、そのときに限る。 -/
theorem withholds_live_deletes_iff (site : PushSite) (q : SyncQueue) (teamId : String) :
    WithholdsLiveDeletes site q teamId ↔ UncheckedDeletesDead site q teamId :=
  ⟨uncheckedDeletesDead_of_withholds, withholds_of_uncheckedDeletesDead⟩

/-! ## 戻ってきた task -/

/-- project `p` の手元。消した後で pull が戻した task がある。 -/
def restoredSite : PushSite where
  env := { parse := fun _ => none }
  store := [{ entityType := .task, entityId := "cas-1", originProject := some "p" }]
  project := "p"
  batchLimit := 50
  maxRetries := 5

/-- `SyncingTaskStore::delete` が team の列に積む行。task の持ち主を宛先に持つ。 -/
def restoredDelete : QueueWrite where
  entityType := .task
  entityId := "cas-1"
  operation := .delete
  teamId := "t"
  projectId := some "p"
  now := 1

/-- task の削除の team の写しは検査を免れ、戻ってきた現物の削除が送られる。 -/
theorem team_delete_sent_for_restored_task :
    ¬ WithholdsLiveDeletes restoredSite (SyncQueue.empty.upsertQueueRow restoredDelete) "t" := by
  intro h
  have hdead := h.2 false
    { teamId := some "t", entityType := .task, entityId := "cas-1", projectId := "p" }
    (by decide +kernel)
  exact hdead (by decide)

end Cassy
