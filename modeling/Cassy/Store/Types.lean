import Cassy.Infra.Json
import Cassy.Infra.Text

/-!
# store の行と誤り

表の行を、それを読み書きする関数が使う列だけからなる構造体として置く。

* 時刻は通しのナノ秒である。表には RFC 3339 の文字列で入るが、UTC の文字列の順序は
  時刻の順序と一致するので、比較は時刻の側で書く
* 世代 `epoch` は `u64` で、表には同じビットの `i64` として入る。桁あふれは折り返す
* 監査記録の時刻のように、どの関数も読み返さない列は置かない
-/

namespace Cassy

open Infra

/-- 時刻（ナノ秒）。 -/
abbrev Time := Int

/-- `chrono::Duration::seconds`。 -/
def seconds (n : Int) : Int := n * 1000000000

/-- store の関数が返す誤り。 -/
inductive StoreError where
  | notFound (message : String)
  | taskNotFound (id : String)
  | parse (message : String)
  | json (message : String)
  | database (message : String)
  | other (message : String)
  /-- 別の close が同じ task の検証を握っている。握っている dispatch の id を添える。 -/
  | verificationDispatchConflict (dispatchId : String)
  deriving DecidableEq, Repr

/-- 外部キー違反のときの SQLite の誤り。 -/
def foreignKeyFailed : StoreError := .database "FOREIGN KEY constraint failed"

/-! ## agent -/

inductive AgentStatus where
  | active | idle | stale | shutdown
  deriving DecidableEq, Repr

namespace AgentStatus

def toString : AgentStatus → String
  | active => "active"
  | idle => "idle"
  | stale => "stale"
  | shutdown => "shutdown"

/-- `status IN ('active', 'idle')`。 -/
def isLive : AgentStatus → Bool
  | active | idle => true
  | stale | shutdown => false

end AgentStatus

inductive AgentType where
  | primary | subAgent | worker | ci
  deriving DecidableEq, Repr

inductive AgentRole where
  | standard | director | supervisor | worker
  deriving DecidableEq, Repr

/-- `agents` の行。 -/
structure Agent where
  id : String
  name : String
  agentType : AgentType := .primary
  role : AgentRole := .standard
  status : AgentStatus := .active
  pid : Option Nat := none
  ppid : Option Nat := none
  ccSessionId : Option String := none
  parentId : Option String := none
  machineId : Option String := none
  factorySession : Option String := none
  registeredAt : Time
  lastHeartbeat : Time
  activeTasks : Nat := 0
  metadata : List (String × String) := []
  startupConfirmed : Bool := false
  pidStarttime : Option Nat := none
  deriving DecidableEq, Repr

/-! ## lease -/

inductive LeaseStatus where
  | active | expired | released | revoked
  deriving DecidableEq, Repr

/-- `task_leases` の行。主キーは task なので、task ごとに高々一行である。 -/
structure TaskLease where
  taskId : String
  agentId : String
  status : LeaseStatus
  acquiredAt : Time
  expiresAt : Time
  renewedAt : Time
  renewalCount : Nat
  epoch : UInt64
  claimReason : Option String
  deriving DecidableEq, Repr

/-- `worktree_leases` の行。 -/
structure WorktreeLease where
  worktreeId : String
  agentId : String
  status : LeaseStatus
  acquiredAt : Time
  expiresAt : Time
  renewedAt : Time
  renewalCount : Nat
  deriving DecidableEq, Repr

/-- `task_lease_history.event_type`。 -/
inductive LeaseEventType where
  | claimed | released | expired | transferred | renewed | revoked
  deriving DecidableEq, Repr

/-- `task_lease_history` の行。追記しかされない。 -/
structure LeaseHistoryEntry where
  taskId : String
  agentId : String
  eventType : LeaseEventType
  epoch : UInt64
  details : Option String := none
  previousAgentId : Option String := none
  reason : Option String := none
  deriving DecidableEq, Repr

/-- `try_claim` の答え。 -/
inductive ClaimResult where
  | success (lease : TaskLease)
  | alreadyClaimed (taskId heldBy : String) (expiresAt : Time)
  deriving DecidableEq, Repr

/-! ## task -/

inductive TaskStatus where
  | open | inProgress | blocked | closed | cancelled | awaitingMerge
  deriving DecidableEq, Repr

def TaskStatus.toString : TaskStatus → String
  | .open => "open"
  | .inProgress => "in_progress"
  | .blocked => "blocked"
  | .closed => "closed"
  | .cancelled => "cancelled"
  | .awaitingMerge => "awaiting_merge"

/-- close と検証の対象になる repository と branch。 -/
structure WorkTarget where
  repoSelector : String
  targetBranch : String
  deriving DecidableEq, Repr

/-- `request_changes` が認めた取り込み元。 -/
structure AuthorizedMergeSource where
  commit : String
  supervisorId : String
  workTarget : WorkTarget
  deriving DecidableEq, Repr

/-- epic の branch を task に結んだ host。 -/
structure EpicBranchOrigin where
  branch : String
  host : String
  deviceId : Option String := none
  deriving DecidableEq, Repr

/-- 別の worker の子 task を始めてよいという、supervisor の一度限りの許可。 -/
structure SplitTakeoverAuthorization where
  splitId : String
  workerId : String
  supervisorId : String
  reason : String
  deriving DecidableEq, Repr

structure SourceClaimOverride where
  sourceKey : String
  supervisorId : String
  reason : String
  deriving DecidableEq, Repr

/-- supervisor が指定した、納品をまとめて取り込む batch。 -/
structure IntegrationBatchEvidence where
  branch : String
  tip : String
  base : String
  deliveredHead : String
  supervisorId : String
  recordedAt : Time
  deriving DecidableEq, Repr

/-- close 時の検査が選んだ repository と branch の記録。 -/
structure PreCloseHookEvidence where
  repoSelector : String
  targetBranch : String
  worktreeBranch : Option String := none
  taskTip : Option String := none
  deriving DecidableEq, Repr

/-- 測定の結果、取り込まないと決めた実験の受領証。 -/
structure NegativeResultEvidence where
  artifactPath : String
  reference : String
  rationale : String
  supervisorId : String
  supervisorName : String
  deriving DecidableEq, Repr

/-- code の取り込みを伴わない成果の受領証。 -/
structure EvidenceOnlyEvidence where
  artifactPath : String
  reference : String
  rationale : String
  supervisorId : String
  supervisorName : String
  commitSha : String
  baseSha : String
  paths : List String
  deriving DecidableEq, Repr

/-- 使い回す branch の上で task が始まった点。 -/
structure FactoryBranchStart where
  workTarget : WorkTarget
  assignee : String
  branch : String
  baseSha : String
  deriving DecidableEq, Repr

/-- 一つの判定を待つ、納品なしの close。 -/
structure NoDeliveryCloseIntent where
  dispatchId : String
  reason : String
  assignee : Option String
  deriving DecidableEq, Repr

/-- merge を認めたときの CI の状態。 -/
inductive MergeCiAdmission where
  | green | advisory | override
  deriving DecidableEq, Repr

/-- `tasks.deliverables` の JSON。 -/
structure TaskDeliverables where
  modelEval : Option Json := none
  phaseOutcome : Option Json := none
  epicBranchOrigin : Option EpicBranchOrigin := none
  splitTakeover : Option SplitTakeoverAuthorization := none
  sourceClaimOverride : Option SourceClaimOverride := none
  integrationBatch : Option IntegrationBatchEvidence := none
  workTarget : Option WorkTarget := none
  workTargetPinned : Bool := false
  workTargetCleared : Bool := false
  preCloseHook : Option PreCloseHookEvidence := none
  negativeResult : Option NegativeResultEvidence := none
  evidenceOnly : Option EvidenceOnlyEvidence := none
  filesChanged : List String := []
  commitHash : Option String := none
  mergeCommit : Option String := none
  deliveryPrNumber : Option UInt64 := none
  deliveryPrMergeCommit : Option String := none
  deliveryPrMergedAt : Option Time := none
  reviewEnvelope : Option String := none
  factoryBranchAnchor : Option String := none
  factoryBranchStart : Option FactoryBranchStart := none
  authorizedMergeSources : List AuthorizedMergeSource := []
  historicalFactoryBranchAnchors : List String := []
  declinedFactoryBranchAnchors : Option (List String) := none
  parkedBranch : Option String := none
  handoffBranches : List String := []
  mergeConflicted : Bool := false
  parkedCloseReason : Option String := none
  noDeliveryCloseIntent : Option NoDeliveryCloseIntent := none
  greenMergeCommit : Option String := none
  mergeCiAdmission : Option MergeCiAdmission := none
  deriving DecidableEq, Repr

/-- task が終わった理由。 -/
inductive TaskTerminalOutcome where
  | delivered | negativeResult | evidenceOnly | decision
  | cancelled (supersededBy : Option String)
  deriving DecidableEq, Repr

inductive TaskType where
  | task | bug | feature | epic | chore | spike | gate
  deriving DecidableEq, Repr

def TaskType.toString : TaskType → String
  | .task => "task"
  | .bug => "bug"
  | .feature => "feature"
  | .epic => "epic"
  | .chore => "chore"
  | .spike => "spike"
  | .gate => "gate"

inductive TaskDoor where
  | oneWay | twoWay
  deriving DecidableEq, Repr

inductive TaskRisk where
  | blastRadius | platform | concurrency | none
  deriving DecidableEq, Repr

inductive TaskDepth where
  | deep | light
  deriving DecidableEq, Repr

inductive DeliveryMode where
  | pushBranch | localMerge
  deriving DecidableEq, Repr

/-- データの置き場所。 -/
inductive Scope where
  | global | project
  deriving DecidableEq, Repr

/-- team へ配るかどうかの、行ごとの上書き。 -/
inductive ShareScope where
  | «private» | team
  deriving DecidableEq, Repr

/--
`Task` の値、兼 `tasks` の行。

`deliverables` は行の JSON が読めないとき `none`。`scope` は行には無く、`Task` の値だけが持つ。
-/
structure Task where
  id : String
  scope : Scope := .project
  originProject : Option String := none
  title : String := ""
  description : String := ""
  design : String := ""
  acceptanceCriteria : String := ""
  notes : Text := []
  status : TaskStatus := .open
  priority : Int32 := 2
  taskType : TaskType := .task
  risk : List TaskRisk := []
  door : Option TaskDoor := none
  proofTargets : List String := []
  assignee : Option String := none
  labels : List String := []
  createdAt : Time := 0
  updatedAt : Time := 0
  closedAt : Option Time := none
  closeReason : Option String := none
  terminalOutcome : Option TaskTerminalOutcome := none
  externalRef : Option String := none
  contentHash : Option String := none
  branch : Option String := none
  worktreeId : Option String := none
  pendingVerification : Bool := false
  pendingWorktreeMerge : Bool := false
  epicVerificationOwner : Option String := none
  deliverables : Option TaskDeliverables := some {}
  teamId : Option String := none
  share : Option ShareScope := none
  demoStatement : String := ""
  executionNote : Option String := none
  depth : TaskDepth := .deep
  deliveryMode : DeliveryMode := .pushBranch
  deriving DecidableEq, Repr

inductive DependencyType where
  | blocks | requiresStart | related | parentChild | discoveredFrom | extractedFrom
  deriving DecidableEq, Repr

/-- `dependencies` の行。主キーは `(from_id, to_id)` で、種別は主キーに入らない。 -/
structure Dependency where
  fromId : String
  toId : String
  depType : DependencyType
  createdAt : Time := 0
  createdBy : Option String := none
  deriving DecidableEq, Repr

/-- `dependencies` の主キー。 -/
def Dependency.key (d : Dependency) : String × String := (d.fromId, d.toId)

end Cassy
