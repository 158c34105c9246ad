import Cassy.Store.Types

/-!
# task の JSON

`cas-types/src/task.rs` の `Serialize` と `Deserialize`。sync の payload はこれを通る。

`TaskDeliverables` は同じ 31 個の field を、書く側の構造体、読む側の `TaskDeliverablesObject`、
両者の変換、`is_empty` の四箇所に並べている。書く側と読む側はここでは `fields` と `read` で、
変換は恒等なので置かない。`is_empty` は `Task` の側で、deliverables を丸ごと省くかを決める。

`chrono` の時刻の書式と、文字列を `Value` に読む `serde_json::from_str` はこの repository の外に
ある。前者は `TimeFormat`、後者は `parseValue` として受け取る。
-/

namespace Cassy

open Infra Codec

/-- `DateTime<Utc>` の書式。書いた時刻は読み戻せる。 -/
structure TimeFormat where
  format : Time → String
  parse : String → Option Time
  parse_format : ∀ t, parse (format t) = some t

namespace TimeFormat

/-- `DateTime<Utc>`。 -/
def codec (f : TimeFormat) : Codec Time where
  ser t := .string (f.format t)
  de
    | .string s => okOr (f.parse s) .invalidValue
    | _ => .error .invalidType

theorem codec_lawful (f : TimeFormat) : f.codec.Lawful := by
  intro t
  refine ⟨?_, nofun⟩
  show okOr (f.parse (f.format t)) _ = .ok t
  rw [f.parse_format, okOr_some]

end TimeFormat

/-! ## 列挙型 -/

/-- `TaskStatus` の名の読み方。`pending_supervisor_review` は `awaiting_merge` の古い名である。 -/
def TaskStatus.ofName : String → Option TaskStatus
  | "open" => some .open
  | "in_progress" => some .inProgress
  | "blocked" => some .blocked
  | "closed" => some .closed
  | "cancelled" => some .cancelled
  | "awaiting_merge" | "pending_supervisor_review" => some .awaitingMerge
  | _ => none

/-- `TaskStatus` の JSON。 -/
def TaskStatus.codec : Codec TaskStatus := variant TaskStatus.toString TaskStatus.ofName

theorem TaskStatus.codec_lawful : TaskStatus.codec.Lawful :=
  variant_lawful (by intro a; cases a <;> rfl)

/-- `TaskType` の名の読み方。 -/
def TaskType.ofName : String → Option TaskType
  | "task" => some .task
  | "bug" => some .bug
  | "feature" => some .feature
  | "epic" => some .epic
  | "chore" => some .chore
  | "spike" => some .spike
  | "gate" => some .gate
  | _ => none

/-- `TaskType` の JSON。 -/
def TaskType.codec : Codec TaskType := variant TaskType.toString TaskType.ofName

theorem TaskType.codec_lawful : TaskType.codec.Lawful :=
  variant_lawful (by intro a; cases a <;> rfl)

/-- `TaskDoor` の名。語は `-` で繋ぐ。 -/
def TaskDoor.toString : TaskDoor → String
  | .oneWay => "one-way"
  | .twoWay => "two-way"

/-- `TaskDoor` の名の読み方。 -/
def TaskDoor.ofName : String → Option TaskDoor
  | "one-way" => some .oneWay
  | "two-way" => some .twoWay
  | _ => none

/-- `TaskDoor` の JSON。 -/
def TaskDoor.codec : Codec TaskDoor := variant TaskDoor.toString TaskDoor.ofName

theorem TaskDoor.codec_lawful : TaskDoor.codec.Lawful :=
  variant_lawful (by intro a; cases a <;> rfl)

/-- `TaskRisk` の名。語は `-` で繋ぐ。 -/
def TaskRisk.toString : TaskRisk → String
  | .blastRadius => "blast-radius"
  | .platform => "platform"
  | .concurrency => "concurrency"
  | .none => "none"

/-- `TaskRisk` の名の読み方。 -/
def TaskRisk.ofName : String → Option TaskRisk
  | "blast-radius" => some .blastRadius
  | "platform" => some .platform
  | "concurrency" => some .concurrency
  | "none" => some .none
  | _ => Option.none

/-- `TaskRisk` の JSON。 -/
def TaskRisk.codec : Codec TaskRisk := variant TaskRisk.toString TaskRisk.ofName

theorem TaskRisk.codec_lawful : TaskRisk.codec.Lawful :=
  variant_lawful (by intro a; cases a <;> rfl)

/-- `TaskDepth` の名。 -/
def TaskDepth.toString : TaskDepth → String
  | .deep => "deep"
  | .light => "light"

/-- `TaskDepth` の名の読み方。 -/
def TaskDepth.ofName : String → Option TaskDepth
  | "deep" => some .deep
  | "light" => some .light
  | _ => none

/-- `TaskDepth` の JSON。 -/
def TaskDepth.codec : Codec TaskDepth := variant TaskDepth.toString TaskDepth.ofName

theorem TaskDepth.codec_lawful : TaskDepth.codec.Lawful :=
  variant_lawful (by intro a; cases a <;> rfl)

/-- `DeliveryMode` の名。 -/
def DeliveryMode.toString : DeliveryMode → String
  | .pushBranch => "push_branch"
  | .localMerge => "local_merge"

/-- `DeliveryMode` の名の読み方。 -/
def DeliveryMode.ofName : String → Option DeliveryMode
  | "push_branch" => some .pushBranch
  | "local_merge" => some .localMerge
  | _ => none

/-- `DeliveryMode` の JSON。 -/
def DeliveryMode.codec : Codec DeliveryMode := variant DeliveryMode.toString DeliveryMode.ofName

theorem DeliveryMode.codec_lawful : DeliveryMode.codec.Lawful :=
  variant_lawful (by intro a; cases a <;> rfl)

/-- `Scope` の名。 -/
def Scope.toString : Scope → String
  | .global => "global"
  | .project => "project"

/-- `Scope` の名の読み方。 -/
def Scope.ofName : String → Option Scope
  | "global" => some .global
  | "project" => some .project
  | _ => none

/-- `Scope` の JSON。 -/
def Scope.codec : Codec Scope := variant Scope.toString Scope.ofName

theorem Scope.codec_lawful : Scope.codec.Lawful :=
  variant_lawful (by intro a; cases a <;> rfl)

/-- `ShareScope` の名。 -/
def ShareScope.toString : ShareScope → String
  | .«private» => "private"
  | .team => "team"

/-- `ShareScope` の名の読み方。 -/
def ShareScope.ofName : String → Option ShareScope
  | "private" => some .«private»
  | "team" => some .team
  | _ => none

/-- `ShareScope` の JSON。 -/
def ShareScope.codec : Codec ShareScope := variant ShareScope.toString ShareScope.ofName

theorem ShareScope.codec_lawful : ShareScope.codec.Lawful :=
  variant_lawful (by intro a; cases a <;> rfl)

/-- `MergeCiAdmission::as_str`。 -/
def MergeCiAdmission.asStr : MergeCiAdmission → String
  | .green => "green"
  | .advisory => "advisory"
  | .override => "override"

/-- `MergeCiAdmission` の名の読み方。 -/
def MergeCiAdmission.ofName : String → Option MergeCiAdmission
  | "green" => some .green
  | "advisory" => some .advisory
  | "override" => some .override
  | _ => none

/-- `MergeCiAdmission` の JSON。 -/
def MergeCiAdmission.codec : Codec MergeCiAdmission :=
  variant MergeCiAdmission.asStr MergeCiAdmission.ofName

theorem MergeCiAdmission.codec_lawful : MergeCiAdmission.codec.Lawful :=
  variant_lawful (by intro a; cases a <;> rfl)

/-! ## deliverables の部品 -/

namespace WorkTarget

/-- `WorkTarget` の書き方。 -/
def fields (w : WorkTarget) : Fields :=
  [("repo_selector", some (string.ser w.repoSelector)),
   ("target_branch", some (string.ser w.targetBranch))]

/-- `WorkTarget` の読み方。 -/
def read (m : Members) : Except DeError WorkTarget := do
  let repoSelector ← string.required m "repo_selector"
  let targetBranch ← string.required m "target_branch"
  pure { repoSelector, targetBranch }

/-- `WorkTarget` の JSON。 -/
def codec : Codec WorkTarget := record fields read

theorem codec_lawful : codec.Lawful := by
  intro w
  refine record_roundTrips (by simp [fields]) fun m get => ?_
  rw [read, required_bind (get 0 _ _ rfl) string_lawful,
    required_bind (get 1 _ _ rfl) string_lawful]
  rfl

end WorkTarget

namespace EpicBranchOrigin

/-- `EpicBranchOrigin` の書き方。`device_id` は無ければ書かない。 -/
def fields (o : EpicBranchOrigin) : Fields :=
  [("branch", some (string.ser o.branch)),
   ("host", some (string.ser o.host)),
   ("device_id", o.deviceId.map string.ser)]

/-- `EpicBranchOrigin` の読み方。 -/
def read (m : Members) : Except DeError EpicBranchOrigin := do
  let branch ← string.required m "branch"
  let host ← string.required m "host"
  let deviceId ← string.optional m "device_id"
  pure { branch, host, deviceId }

/-- `EpicBranchOrigin` の JSON。 -/
def codec : Codec EpicBranchOrigin := record fields read

theorem codec_lawful : codec.Lawful := by
  intro o
  refine record_roundTrips (by simp [fields]) fun m get => ?_
  rw [read, required_bind (get 0 _ _ rfl) string_lawful,
    required_bind (get 1 _ _ rfl) string_lawful,
    optional_bind (get 2 _ _ rfl) string_lawful]
  rfl

end EpicBranchOrigin

namespace SplitTakeoverAuthorization

/-- `SplitTakeoverAuthorization` の書き方。 -/
def fields (a : SplitTakeoverAuthorization) : Fields :=
  [("split_id", some (string.ser a.splitId)),
   ("worker_id", some (string.ser a.workerId)),
   ("supervisor_id", some (string.ser a.supervisorId)),
   ("reason", some (string.ser a.reason))]

/-- `SplitTakeoverAuthorization` の読み方。 -/
def read (m : Members) : Except DeError SplitTakeoverAuthorization := do
  let splitId ← string.required m "split_id"
  let workerId ← string.required m "worker_id"
  let supervisorId ← string.required m "supervisor_id"
  let reason ← string.required m "reason"
  pure { splitId, workerId, supervisorId, reason }

/-- `SplitTakeoverAuthorization` の JSON。 -/
def codec : Codec SplitTakeoverAuthorization := record fields read

theorem codec_lawful : codec.Lawful := by
  intro a
  refine record_roundTrips (by simp [fields]) fun m get => ?_
  rw [read, required_bind (get 0 _ _ rfl) string_lawful,
    required_bind (get 1 _ _ rfl) string_lawful,
    required_bind (get 2 _ _ rfl) string_lawful,
    required_bind (get 3 _ _ rfl) string_lawful]
  rfl

end SplitTakeoverAuthorization

namespace SourceClaimOverride

/-- `SourceClaimOverride` の書き方。 -/
def fields (o : SourceClaimOverride) : Fields :=
  [("source_key", some (string.ser o.sourceKey)),
   ("supervisor_id", some (string.ser o.supervisorId)),
   ("reason", some (string.ser o.reason))]

/-- `SourceClaimOverride` の読み方。 -/
def read (m : Members) : Except DeError SourceClaimOverride := do
  let sourceKey ← string.required m "source_key"
  let supervisorId ← string.required m "supervisor_id"
  let reason ← string.required m "reason"
  pure { sourceKey, supervisorId, reason }

/-- `SourceClaimOverride` の JSON。 -/
def codec : Codec SourceClaimOverride := record fields read

theorem codec_lawful : codec.Lawful := by
  intro o
  refine record_roundTrips (by simp [fields]) fun m get => ?_
  rw [read, required_bind (get 0 _ _ rfl) string_lawful,
    required_bind (get 1 _ _ rfl) string_lawful,
    required_bind (get 2 _ _ rfl) string_lawful]
  rfl

end SourceClaimOverride

namespace IntegrationBatchEvidence

/-- `IntegrationBatchEvidence` の書き方。 -/
def fields (f : TimeFormat) (b : IntegrationBatchEvidence) : Fields :=
  [("branch", some (string.ser b.branch)),
   ("tip", some (string.ser b.tip)),
   ("base", some (string.ser b.base)),
   ("delivered_head", some (string.ser b.deliveredHead)),
   ("supervisor_id", some (string.ser b.supervisorId)),
   ("recorded_at", some (f.codec.ser b.recordedAt))]

/-- `IntegrationBatchEvidence` の読み方。 -/
def read (f : TimeFormat) (m : Members) : Except DeError IntegrationBatchEvidence := do
  let branch ← string.required m "branch"
  let tip ← string.required m "tip"
  let base ← string.required m "base"
  let deliveredHead ← string.required m "delivered_head"
  let supervisorId ← string.required m "supervisor_id"
  let recordedAt ← f.codec.required m "recorded_at"
  pure { branch, tip, base, deliveredHead, supervisorId, recordedAt }

/-- `IntegrationBatchEvidence` の JSON。 -/
def codec (f : TimeFormat) : Codec IntegrationBatchEvidence := record (fields f) (read f)

theorem codec_lawful (f : TimeFormat) : (codec f).Lawful := by
  intro b
  refine record_roundTrips (by simp [fields]) fun m get => ?_
  rw [read, required_bind (get 0 _ _ rfl) string_lawful,
    required_bind (get 1 _ _ rfl) string_lawful,
    required_bind (get 2 _ _ rfl) string_lawful,
    required_bind (get 3 _ _ rfl) string_lawful,
    required_bind (get 4 _ _ rfl) string_lawful,
    required_bind (get 5 _ _ rfl) f.codec_lawful]
  rfl

end IntegrationBatchEvidence

namespace PreCloseHookEvidence

/-- `PreCloseHookEvidence` の書き方。branch と tip は無ければ書かない。 -/
def fields (e : PreCloseHookEvidence) : Fields :=
  [("repo_selector", some (string.ser e.repoSelector)),
   ("target_branch", some (string.ser e.targetBranch)),
   ("worktree_branch", e.worktreeBranch.map string.ser),
   ("task_tip", e.taskTip.map string.ser)]

/-- `PreCloseHookEvidence` の読み方。 -/
def read (m : Members) : Except DeError PreCloseHookEvidence := do
  let repoSelector ← string.required m "repo_selector"
  let targetBranch ← string.required m "target_branch"
  let worktreeBranch ← string.optional m "worktree_branch"
  let taskTip ← string.optional m "task_tip"
  pure { repoSelector, targetBranch, worktreeBranch, taskTip }

/-- `PreCloseHookEvidence` の JSON。 -/
def codec : Codec PreCloseHookEvidence := record fields read

theorem codec_lawful : codec.Lawful := by
  intro e
  refine record_roundTrips (by simp [fields]) fun m get => ?_
  rw [read, required_bind (get 0 _ _ rfl) string_lawful,
    required_bind (get 1 _ _ rfl) string_lawful,
    optional_bind (get 2 _ _ rfl) string_lawful,
    optional_bind (get 3 _ _ rfl) string_lawful]
  rfl

end PreCloseHookEvidence

namespace NegativeResultEvidence

/-- `NegativeResultEvidence` の書き方。 -/
def fields (e : NegativeResultEvidence) : Fields :=
  [("artifact_path", some (string.ser e.artifactPath)),
   ("reference", some (string.ser e.reference)),
   ("rationale", some (string.ser e.rationale)),
   ("supervisor_id", some (string.ser e.supervisorId)),
   ("supervisor_name", some (string.ser e.supervisorName))]

/-- `NegativeResultEvidence` の読み方。 -/
def read (m : Members) : Except DeError NegativeResultEvidence := do
  let artifactPath ← string.required m "artifact_path"
  let reference ← string.required m "reference"
  let rationale ← string.required m "rationale"
  let supervisorId ← string.required m "supervisor_id"
  let supervisorName ← string.required m "supervisor_name"
  pure { artifactPath, reference, rationale, supervisorId, supervisorName }

/-- `NegativeResultEvidence` の JSON。 -/
def codec : Codec NegativeResultEvidence := record fields read

theorem codec_lawful : codec.Lawful := by
  intro e
  refine record_roundTrips (by simp [fields]) fun m get => ?_
  rw [read, required_bind (get 0 _ _ rfl) string_lawful,
    required_bind (get 1 _ _ rfl) string_lawful,
    required_bind (get 2 _ _ rfl) string_lawful,
    required_bind (get 3 _ _ rfl) string_lawful,
    required_bind (get 4 _ _ rfl) string_lawful]
  rfl

end NegativeResultEvidence

namespace EvidenceOnlyEvidence

/-- `EvidenceOnlyEvidence` の書き方。`paths` は空でも書く。 -/
def fields (e : EvidenceOnlyEvidence) : Fields :=
  [("artifact_path", some (string.ser e.artifactPath)),
   ("reference", some (string.ser e.reference)),
   ("rationale", some (string.ser e.rationale)),
   ("supervisor_id", some (string.ser e.supervisorId)),
   ("supervisor_name", some (string.ser e.supervisorName)),
   ("commit_sha", some (string.ser e.commitSha)),
   ("base_sha", some (string.ser e.baseSha)),
   ("paths", some (string.list.ser e.paths))]

/-- `EvidenceOnlyEvidence` の読み方。 -/
def read (m : Members) : Except DeError EvidenceOnlyEvidence := do
  let artifactPath ← string.required m "artifact_path"
  let reference ← string.required m "reference"
  let rationale ← string.required m "rationale"
  let supervisorId ← string.required m "supervisor_id"
  let supervisorName ← string.required m "supervisor_name"
  let commitSha ← string.required m "commit_sha"
  let baseSha ← string.required m "base_sha"
  let paths ← string.list.required m "paths"
  pure
    { artifactPath, reference, rationale, supervisorId, supervisorName, commitSha, baseSha
      paths }

/-- `EvidenceOnlyEvidence` の JSON。 -/
def codec : Codec EvidenceOnlyEvidence := record fields read

theorem codec_lawful : codec.Lawful := by
  intro e
  refine record_roundTrips (by simp [fields]) fun m get => ?_
  rw [read, required_bind (get 0 _ _ rfl) string_lawful,
    required_bind (get 1 _ _ rfl) string_lawful,
    required_bind (get 2 _ _ rfl) string_lawful,
    required_bind (get 3 _ _ rfl) string_lawful,
    required_bind (get 4 _ _ rfl) string_lawful,
    required_bind (get 5 _ _ rfl) string_lawful,
    required_bind (get 6 _ _ rfl) string_lawful,
    required_bind (get 7 _ _ rfl) (list_lawful string_lawful)]
  rfl

end EvidenceOnlyEvidence

namespace FactoryBranchStart

/-- `FactoryBranchStart` の書き方。 -/
def fields (b : FactoryBranchStart) : Fields :=
  [("work_target", some (WorkTarget.codec.ser b.workTarget)),
   ("assignee", some (string.ser b.assignee)),
   ("branch", some (string.ser b.branch)),
   ("base_sha", some (string.ser b.baseSha))]

/-- `FactoryBranchStart` の読み方。 -/
def read (m : Members) : Except DeError FactoryBranchStart := do
  let workTarget ← WorkTarget.codec.required m "work_target"
  let assignee ← string.required m "assignee"
  let branch ← string.required m "branch"
  let baseSha ← string.required m "base_sha"
  pure { workTarget, assignee, branch, baseSha }

/-- `FactoryBranchStart` の JSON。 -/
def codec : Codec FactoryBranchStart := record fields read

theorem codec_lawful : codec.Lawful := by
  intro b
  refine record_roundTrips (by simp [fields]) fun m get => ?_
  rw [read, required_bind (get 0 _ _ rfl) WorkTarget.codec_lawful,
    required_bind (get 1 _ _ rfl) string_lawful,
    required_bind (get 2 _ _ rfl) string_lawful,
    required_bind (get 3 _ _ rfl) string_lawful]
  rfl

end FactoryBranchStart

namespace AuthorizedMergeSource

/-- `AuthorizedMergeSource` の書き方。 -/
def fields (a : AuthorizedMergeSource) : Fields :=
  [("commit", some (string.ser a.commit)),
   ("supervisor_id", some (string.ser a.supervisorId)),
   ("work_target", some (WorkTarget.codec.ser a.workTarget))]

/-- `AuthorizedMergeSource` の読み方。 -/
def read (m : Members) : Except DeError AuthorizedMergeSource := do
  let commit ← string.required m "commit"
  let supervisorId ← string.required m "supervisor_id"
  let workTarget ← WorkTarget.codec.required m "work_target"
  pure { commit, supervisorId, workTarget }

/-- `AuthorizedMergeSource` の JSON。 -/
def codec : Codec AuthorizedMergeSource := record fields read

theorem codec_lawful : codec.Lawful := by
  intro a
  refine record_roundTrips (by simp [fields]) fun m get => ?_
  rw [read, required_bind (get 0 _ _ rfl) string_lawful,
    required_bind (get 1 _ _ rfl) string_lawful,
    required_bind (get 2 _ _ rfl) WorkTarget.codec_lawful]
  rfl

end AuthorizedMergeSource

namespace NoDeliveryCloseIntent

/-- `NoDeliveryCloseIntent` の書き方。`assignee` は無くても `null` と書く。 -/
def fields (i : NoDeliveryCloseIntent) : Fields :=
  [("dispatch_id", some (string.ser i.dispatchId)),
   ("reason", some (string.ser i.reason)),
   ("assignee", some (string.nullable i.assignee))]

/-- `NoDeliveryCloseIntent` の読み方。 -/
def read (m : Members) : Except DeError NoDeliveryCloseIntent := do
  let dispatchId ← string.required m "dispatch_id"
  let reason ← string.required m "reason"
  let assignee ← string.optional m "assignee"
  pure { dispatchId, reason, assignee }

/-- `NoDeliveryCloseIntent` の JSON。 -/
def codec : Codec NoDeliveryCloseIntent := record fields read

theorem codec_lawful : codec.Lawful := by
  intro i
  refine record_roundTrips (by simp [fields]) fun m get => ?_
  rw [read, required_bind (get 0 _ _ rfl) string_lawful,
    required_bind (get 1 _ _ rfl) string_lawful,
    nullable_bind (get 2 _ _ rfl) string_lawful]
  rfl

end NoDeliveryCloseIntent

/-! ## deliverables -/

namespace TaskDeliverables

/-- `Serialize for TaskDeliverables`。`files_changed` のほかは、既定の値なら書かない。 -/
def fields (f : TimeFormat) (d : TaskDeliverables) : Fields :=
  [("model_eval", d.modelEval.map value.ser),
   ("phase_outcome", d.phaseOutcome.map value.ser),
   ("epic_branch_origin", d.epicBranchOrigin.map EpicBranchOrigin.codec.ser),
   ("split_takeover", d.splitTakeover.map SplitTakeoverAuthorization.codec.ser),
   ("source_claim_override", d.sourceClaimOverride.map SourceClaimOverride.codec.ser),
   ("integration_batch", d.integrationBatch.map (IntegrationBatchEvidence.codec f).ser),
   ("work_target", d.workTarget.map WorkTarget.codec.ser),
   ("work_target_pinned", skipFalse d.workTargetPinned),
   ("work_target_cleared", skipFalse d.workTargetCleared),
   ("pre_close_hook", d.preCloseHook.map PreCloseHookEvidence.codec.ser),
   ("negative_result", d.negativeResult.map NegativeResultEvidence.codec.ser),
   ("evidence_only", d.evidenceOnly.map EvidenceOnlyEvidence.codec.ser),
   ("files_changed", some (string.list.ser d.filesChanged)),
   ("commit_hash", d.commitHash.map string.ser),
   ("merge_commit", d.mergeCommit.map string.ser),
   ("delivery_pr_number", d.deliveryPrNumber.map u64.ser),
   ("delivery_pr_merge_commit", d.deliveryPrMergeCommit.map string.ser),
   ("delivery_pr_merged_at", d.deliveryPrMergedAt.map f.codec.ser),
   ("review_envelope", d.reviewEnvelope.map string.ser),
   ("factory_branch_anchor", d.factoryBranchAnchor.map string.ser),
   ("factory_branch_start", d.factoryBranchStart.map FactoryBranchStart.codec.ser),
   ("authorized_merge_sources", skipEmpty AuthorizedMergeSource.codec d.authorizedMergeSources),
   ("historical_factory_branch_anchors", skipEmpty string d.historicalFactoryBranchAnchors),
   ("declined_factory_branch_anchors", d.declinedFactoryBranchAnchors.map string.list.ser),
   ("parked_branch", d.parkedBranch.map string.ser),
   ("handoff_branches", skipEmpty string d.handoffBranches),
   ("merge_conflicted", skipFalse d.mergeConflicted),
   ("parked_close_reason", d.parkedCloseReason.map string.ser),
   ("no_delivery_close_intent", d.noDeliveryCloseIntent.map NoDeliveryCloseIntent.codec.ser),
   ("green_merge_commit", d.greenMergeCommit.map string.ser),
   ("merge_ci_admission", d.mergeCiAdmission.map MergeCiAdmission.codec.ser)]

/-- `TaskDeliverablesObject` の読み方。 -/
def read (f : TimeFormat) (m : Members) : Except DeError TaskDeliverables := do
  let modelEval ← value.optional m "model_eval"
  let phaseOutcome ← value.optional m "phase_outcome"
  let epicBranchOrigin ← EpicBranchOrigin.codec.optional m "epic_branch_origin"
  let splitTakeover ← SplitTakeoverAuthorization.codec.optional m "split_takeover"
  let sourceClaimOverride ← SourceClaimOverride.codec.optional m "source_claim_override"
  let integrationBatch ← (IntegrationBatchEvidence.codec f).optional m "integration_batch"
  let workTarget ← WorkTarget.codec.optional m "work_target"
  let workTargetPinned ← bool.withDefault m "work_target_pinned" false
  let workTargetCleared ← bool.withDefault m "work_target_cleared" false
  let preCloseHook ← PreCloseHookEvidence.codec.optional m "pre_close_hook"
  let negativeResult ← NegativeResultEvidence.codec.optional m "negative_result"
  let evidenceOnly ← EvidenceOnlyEvidence.codec.optional m "evidence_only"
  let filesChanged ← string.list.withDefault m "files_changed" []
  let commitHash ← string.optional m "commit_hash"
  let mergeCommit ← string.optional m "merge_commit"
  let deliveryPrNumber ← u64.optional m "delivery_pr_number"
  let deliveryPrMergeCommit ← string.optional m "delivery_pr_merge_commit"
  let deliveryPrMergedAt ← f.codec.optional m "delivery_pr_merged_at"
  let reviewEnvelope ← string.optional m "review_envelope"
  let factoryBranchAnchor ← string.optional m "factory_branch_anchor"
  let factoryBranchStart ← FactoryBranchStart.codec.optional m "factory_branch_start"
  let authorizedMergeSources ←
    AuthorizedMergeSource.codec.list.withDefault m "authorized_merge_sources" []
  let historicalFactoryBranchAnchors ←
    string.list.withDefault m "historical_factory_branch_anchors" []
  let declinedFactoryBranchAnchors ← string.list.optional m "declined_factory_branch_anchors"
  let parkedBranch ← string.optional m "parked_branch"
  let handoffBranches ← string.list.withDefault m "handoff_branches" []
  let mergeConflicted ← bool.withDefault m "merge_conflicted" false
  let parkedCloseReason ← string.optional m "parked_close_reason"
  let noDeliveryCloseIntent ← NoDeliveryCloseIntent.codec.optional m "no_delivery_close_intent"
  let greenMergeCommit ← string.optional m "green_merge_commit"
  let mergeCiAdmission ← MergeCiAdmission.codec.optional m "merge_ci_admission"
  pure
    { modelEval, phaseOutcome, epicBranchOrigin, splitTakeover, sourceClaimOverride,
      integrationBatch, workTarget, workTargetPinned, workTargetCleared, preCloseHook,
      negativeResult, evidenceOnly, filesChanged, commitHash, mergeCommit, deliveryPrNumber,
      deliveryPrMergeCommit, deliveryPrMergedAt, reviewEnvelope, factoryBranchAnchor,
      factoryBranchStart, authorizedMergeSources, historicalFactoryBranchAnchors,
      declinedFactoryBranchAnchors, parkedBranch, handoffBranches, mergeConflicted,
      parkedCloseReason, noDeliveryCloseIntent, greenMergeCommit, mergeCiAdmission }

/-- `TaskDeliverablesObject`。 -/
def object (f : TimeFormat) : Codec TaskDeliverables := record (fields f) (read f)

/--
`Deserialize for TaskDeliverables`。

object を文字列に包んだ古い形は、一段だけ剥いて同じ読み方に渡す。
-/
def de (f : TimeFormat) (parseValue : String → Except String Json) :
    Json → Except DeError TaskDeliverables
  | .string encoded =>
    match parseValue encoded with
    | .ok v => (object f).de v
    | .error e => .error (.custom s!"invalid stringified deliverables: {e}")
  | v => (object f).de v

/-- `TaskDeliverables` の JSON。読むときだけ、文字列に包んだ古い形も受け取る。 -/
def codec (f : TimeFormat) (parseValue : String → Except String Json) :
    Codec TaskDeliverables where
  ser := (object f).ser
  de := de f parseValue

/-- `TaskDeliverables::is_empty`。 -/
def isEmpty (d : TaskDeliverables) : Bool :=
  d.epicBranchOrigin.isNone && d.splitTakeover.isNone && d.workTarget.isNone
    && !d.workTargetPinned && d.preCloseHook.isNone && d.negativeResult.isNone
    && d.evidenceOnly.isNone && d.filesChanged.isEmpty && d.commitHash.isNone
    && d.mergeCommit.isNone && d.deliveryPrNumber.isNone && d.deliveryPrMergeCommit.isNone
    && d.deliveryPrMergedAt.isNone && d.reviewEnvelope.isNone && d.factoryBranchAnchor.isNone
    && d.factoryBranchStart.isNone && d.authorizedMergeSources.isEmpty
    && d.historicalFactoryBranchAnchors.isEmpty && d.declinedFactoryBranchAnchors.isNone
    && d.parkedBranch.isNone && !d.mergeConflicted && d.greenMergeCommit.isNone
    && d.mergeCiAdmission.isNone

end TaskDeliverables

/-! ## task -/

namespace TaskTerminalOutcome

/-- `TaskTerminalOutcome` の書き方。種類は `kind` に書く。 -/
def fields : TaskTerminalOutcome → Fields
  | .delivered => [("kind", some (string.ser "delivered"))]
  | .negativeResult => [("kind", some (string.ser "negative_result"))]
  | .evidenceOnly => [("kind", some (string.ser "evidence_only"))]
  | .decision => [("kind", some (string.ser "decision"))]
  | .cancelled supersededBy =>
    [("kind", some (string.ser "cancelled")), ("superseded_by", supersededBy.map string.ser)]

/-- `TaskTerminalOutcome` の読み方。`superseded_by` を読むのは `cancelled` だけである。 -/
def read (m : Members) : Except DeError TaskTerminalOutcome := do
  match ← string.required m "kind" with
  | "delivered" => pure .delivered
  | "negative_result" => pure .negativeResult
  | "evidence_only" => pure .evidenceOnly
  | "decision" => pure .decision
  | "cancelled" =>
    let supersededBy ← string.optional m "superseded_by"
    pure (.cancelled supersededBy)
  | kind => .error (.unknownVariant kind)

/-- `TaskTerminalOutcome` の JSON。 -/
def codec : Codec TaskTerminalOutcome := record fields read

end TaskTerminalOutcome

namespace Task

/-- `t` の field。`deliverables` はその位置に書かれる JSON である。 -/
def fields (f : TimeFormat) (t : Task) (deliverables : Option Json) : Fields :=
  [("id", some (string.ser t.id)),
   ("scope", some (Scope.codec.ser t.scope)),
   ("origin_project", t.originProject.map string.ser),
   ("title", some (string.ser t.title)),
   ("description", some (string.ser t.description)),
   ("design", some (string.ser t.design)),
   ("acceptance_criteria", some (string.ser t.acceptanceCriteria)),
   ("notes", some (string.ser (String.ofList t.notes))),
   ("status", some (TaskStatus.codec.ser t.status)),
   ("priority", some (i32.ser t.priority)),
   ("task_type", some (TaskType.codec.ser t.taskType)),
   ("risk", some (TaskRisk.codec.list.ser t.risk)),
   ("door", t.door.map TaskDoor.codec.ser),
   ("proof_targets", some (string.list.ser t.proofTargets)),
   ("assignee", t.assignee.map string.ser),
   ("labels", some (string.list.ser t.labels)),
   ("created_at", some (f.codec.ser t.createdAt)),
   ("updated_at", some (f.codec.ser t.updatedAt)),
   ("closed_at", t.closedAt.map f.codec.ser),
   ("close_reason", t.closeReason.map string.ser),
   ("terminal_outcome", t.terminalOutcome.map TaskTerminalOutcome.codec.ser),
   ("external_ref", t.externalRef.map string.ser),
   ("content_hash", t.contentHash.map string.ser),
   ("branch", t.branch.map string.ser),
   ("worktree_id", t.worktreeId.map string.ser),
   ("pending_verification", skipFalse t.pendingVerification),
   ("pending_worktree_merge", skipFalse t.pendingWorktreeMerge),
   ("epic_verification_owner", t.epicVerificationOwner.map string.ser),
   ("deliverables", deliverables),
   ("team_id", t.teamId.map string.ser),
   ("share", t.share.map ShareScope.codec.ser),
   ("demo_statement", some (string.ser t.demoStatement)),
   ("execution_note", t.executionNote.map string.ser),
   ("depth", some (TaskDepth.codec.ser t.depth)),
   ("delivery_mode", some (DeliveryMode.codec.ser t.deliveryMode))]

/-- `Deserialize for Task`。`id`、`title`、二つの時刻のほかは、無ければ既定の値になる。 -/
def read (f : TimeFormat) (parseValue : String → Except String Json) (m : Members) :
    Except DeError Task := do
  let id ← string.required m "id"
  let scope ← Scope.codec.withDefault m "scope" .project
  let originProject ← string.optional m "origin_project"
  let title ← string.required m "title"
  let description ← string.withDefault m "description" ""
  let design ← string.withDefault m "design" ""
  let acceptanceCriteria ← string.withDefault m "acceptance_criteria" ""
  let notes ← string.withDefault m "notes" ""
  let status ← TaskStatus.codec.withDefault m "status" .open
  let priority ← i32.withDefault m "priority" 0
  let taskType ← TaskType.codec.withDefault m "task_type" .task
  let risk ← TaskRisk.codec.list.withDefault m "risk" []
  let door ← TaskDoor.codec.optional m "door"
  let proofTargets ← string.list.withDefault m "proof_targets" []
  let assignee ← string.optional m "assignee"
  let labels ← string.list.withDefault m "labels" []
  let createdAt ← f.codec.required m "created_at"
  let updatedAt ← f.codec.required m "updated_at"
  let closedAt ← f.codec.optional m "closed_at"
  let closeReason ← string.optional m "close_reason"
  let terminalOutcome ← TaskTerminalOutcome.codec.optional m "terminal_outcome"
  let externalRef ← string.optional m "external_ref"
  let contentHash ← string.optional m "content_hash"
  let branch ← string.optional m "branch"
  let worktreeId ← string.optional m "worktree_id"
  let pendingVerification ← bool.withDefault m "pending_verification" false
  let pendingWorktreeMerge ← bool.withDefault m "pending_worktree_merge" false
  let epicVerificationOwner ← string.optional m "epic_verification_owner"
  let deliverables ← (TaskDeliverables.codec f parseValue).withDefault m "deliverables" {}
  let teamId ← string.optional m "team_id"
  let share ← ShareScope.codec.optional m "share"
  let demoStatement ← string.withDefault m "demo_statement" ""
  let executionNote ← string.optional m "execution_note"
  let depth ← TaskDepth.codec.withDefault m "depth" .deep
  let deliveryMode ← DeliveryMode.codec.withDefault m "delivery_mode" .pushBranch
  pure
    { id, scope, originProject, title, description, design, acceptanceCriteria,
      notes := notes.toList, status, priority, taskType, risk, door, proofTargets, assignee,
      labels, createdAt, updatedAt, closedAt, closeReason, terminalOutcome, externalRef,
      contentHash, branch, worktreeId, pendingVerification, pendingWorktreeMerge,
      epicVerificationOwner, deliverables := some deliverables, teamId, share, demoStatement,
      executionNote, depth, deliveryMode }

/-- `skip_serializing_if = "TaskDeliverables::is_empty"`。 -/
def deliverablesValue (f : TimeFormat) (t : Task) : Option Json :=
  let d := t.deliverables.getD {}
  if d.isEmpty then none else some ((TaskDeliverables.object f).ser d)

/-- `serde_json::to_value(&task)`。 -/
def toValue (f : TimeFormat) (t : Task) : Json :=
  .object (Fields.members (t.fields f (t.deliverablesValue f)))

/-- deliverables を文字列に包んだ古い payload。 -/
def legacyValue (f : TimeFormat) (t : Task) (encoded : String) : Json :=
  .object (Fields.members (t.fields f (some (.string encoded))))

/-- `serde_json::from_value::<Task>`。 -/
def fromValue (f : TimeFormat) (parseValue : String → Except String Json) (v : Json) :
    Except DeError Task := v.members >>= read f parseValue

end Task

end Cassy
