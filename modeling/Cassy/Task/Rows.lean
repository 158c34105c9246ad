import Cassy.Infra.SqlRow
import Cassy.Store.Types
import Cassy.Task.ProofTargets

/-!
# `tasks` の行

`task_store.rs` が `tasks` の行を `Task` に直すところ。列には何でも入りうるので、行は名前の付いた値の組として置き、
`SELECT` の列の並びで読む。

読み方は二つある。`task_from_row` は列を 0 から数える。`list_blocked` は `from_id` を先頭に足した行を読むので、1 から数えた番号を
もう一度手で書き並べている。

時刻の読めない `created_at` と `updated_at` は、そのときの時計で補われる。`chrono` と `serde_json` は外の部品なので
`TaskReaders` として受け取る。
-/

namespace Cassy

open Infra

/-! ## `FromStr` -/

/-- `eq_ignore_ascii_case` で、名前のどれかに当たる。 -/
def isNamed (s : String) (names : List String) : Bool :=
  names.any fun name => eqIgnoreAsciiCase s.toList name.toList

/-- `TaskStatus::from_str`。 -/
def TaskStatus.fromStr (s : String) : Option TaskStatus :=
  if isNamed s ["open"] then some .open
  else if isNamed s ["in_progress", "in-progress", "inprogress"] then some .inProgress
  else if isNamed s ["blocked"] then some .blocked
  else if isNamed s ["closed"] then some .closed
  else if isNamed s ["cancelled", "canceled"] then some .cancelled
  else if isNamed s ["pending_supervisor_review", "pending-supervisor-review"] then
    some .awaitingMerge
  else if isNamed s ["awaiting_merge", "awaiting-merge"] then some .awaitingMerge
  else none

/-- `TaskType::from_str`。 -/
def TaskType.fromStr (s : String) : Option TaskType :=
  if isNamed s ["task"] then some .task
  else if isNamed s ["bug"] then some .bug
  else if isNamed s ["feature"] then some .feature
  else if isNamed s ["epic"] then some .epic
  else if isNamed s ["chore"] then some .chore
  else if isNamed s ["spike"] then some .spike
  else if isNamed s ["gate"] then some .gate
  else none

/-- `TaskDoor::from_str`。 -/
def TaskDoor.fromStr (s : String) : Option TaskDoor :=
  let value := trim s.toList
  if value = "one-way".toList then some .oneWay
  else if value = "two-way".toList then some .twoWay
  else none

/-- `TaskRisk::from_str`。 -/
def TaskRisk.fromStr (t : Text) : Option TaskRisk :=
  let value := (trim t).map toAsciiLower
  if value = "blast-radius".toList ∨ value = "blast_radius".toList then some .blastRadius
  else if value = "platform".toList then some .platform
  else if value = "concurrency".toList then some .concurrency
  else if value = "none".toList then some .none
  else Option.none

/-- `TaskDepth::from_str`。 -/
def TaskDepth.fromStr (s : String) : Option TaskDepth :=
  if isNamed s ["deep"] then some .deep
  else if isNamed s ["light"] then some .light
  else none

/-- `DeliveryMode::from_str`。 -/
def DeliveryMode.fromStr (s : String) : Option DeliveryMode :=
  if isNamed s ["push_branch", "push-branch"] then some .pushBranch
  else if isNamed s ["local_merge", "local-merge"] then some .localMerge
  else none

/-- `ShareScope::from_str`。 -/
def ShareScope.fromStr (s : String) : Option ShareScope :=
  if isNamed s ["private", "personal"] then some .private
  else if isNamed s ["team"] then some .team
  else none

/-- `DependencyType::from_str`。小文字にするのは ASCII の範囲で書く。 -/
def DependencyType.fromStr (s : String) : Option DependencyType :=
  let value := s.toList.map fun c => if c = '_' then '-' else toAsciiLower c
  if value = "blocks".toList then some .blocks
  else if value = "requires-start".toList ∨ value = "requiresstart".toList then
    some .requiresStart
  else if value = "related".toList then some .related
  else if value = "parent-child".toList ∨ value = "parentchild".toList then some .parentChild
  else if value = "discovered-from".toList ∨ value = "discoveredfrom".toList then
    some .discoveredFrom
  else if value = "extracted-from".toList ∨ value = "extractedfrom".toList then
    some .extractedFrom
  else none

/-- 書いた名前は読み戻せる。 -/
theorem TaskStatus.fromStr_toString (status : TaskStatus) :
    TaskStatus.fromStr status.toString = some status := by
  cases status <;> decide

/-! ## 列の読み方 -/

/-- 列の読み方のうち、外の部品。 -/
structure TaskReaders where
  /-- `DateTime::parse_from_rfc3339`。 -/
  parseRfc3339 : String → Option Time
  /-- `NaiveDateTime::parse_from_str(s, "%Y-%m-%d %H:%M:%S")`。 -/
  parseNaive : String → Option Time
  readLabels : String → Option (List String)
  readDeliverables : String → Option TaskDeliverables
  readTerminalOutcome : String → Option TaskTerminalOutcome
  json : JsonStrings

namespace TaskReaders

variable (R : TaskReaders)

/-- `parse_datetime`。 -/
def parseDatetime (s : String) : Option Time := (R.parseRfc3339 s).or (R.parseNaive s)

/-- `parse_labels`。 -/
def parseLabels (s : String) : List String :=
  if s = "" ∨ s = "[]" then [] else (R.readLabels s).getD []

/-- `parse_deliverables`。 -/
def parseDeliverables (s : String) : TaskDeliverables :=
  if s = "" ∨ s = "\x7b\x7d" then {} else (R.readDeliverables s).getD {}

/-- `parse_terminal_outcome`。 -/
def parseTerminalOutcome (value : Option String) : Option TaskTerminalOutcome :=
  value.bind R.readTerminalOutcome

/-- `parse_proof_targets`。 -/
def parseProofTargets (value : Option String) : List String :=
  (Cassy.parseProofTargets R.json (value.map String.toList)).map String.ofList

end TaskReaders

/-- `parse_risks`。 -/
def parseRisks (value : Option String) : List TaskRisk :=
  ((value.getD "").toList.splitOn ',').filterMap TaskRisk.fromStr

/-! ## 行 -/

/-- `tasks` の行。主キーの外は、型を問わない値である。 -/
structure TaskRow where
  id : String
  title : SqlValue := .text ""
  description : SqlValue := .text ""
  design : SqlValue := .text ""
  acceptanceCriteria : SqlValue := .text ""
  notes : SqlValue := .text ""
  status : SqlValue := .text "open"
  priority : SqlValue := .integer 2
  taskType : SqlValue := .text "task"
  assignee : SqlValue := .null
  labels : SqlValue := .text "[]"
  createdAt : SqlValue
  updatedAt : SqlValue
  closedAt : SqlValue := .null
  closeReason : SqlValue := .null
  externalRef : SqlValue := .null
  contentHash : SqlValue := .null
  branch : SqlValue := .null
  worktreeId : SqlValue := .null
  pendingVerification : SqlValue := .integer 0
  pendingWorktreeMerge : SqlValue := .integer 0
  epicVerificationOwner : SqlValue := .null
  teamId : SqlValue := .null
  deliverables : SqlValue := .text "\x7b\x7d"
  demoStatement : SqlValue := .text ""
  executionNote : SqlValue := .null
  share : SqlValue := .null
  depth : SqlValue := .null
  terminalOutcome : SqlValue := .null
  originProject : SqlValue := .null
  deliveryMode : SqlValue := .null
  risk : SqlValue := .null
  proofTargets : SqlValue := .null
  door : SqlValue := .null
  deriving DecidableEq, Repr

/-- どの `SELECT` も並べる列。 -/
def TaskRow.columns (r : TaskRow) : SqlRow :=
  [.text r.id, r.title, r.description, r.design, r.acceptanceCriteria, r.notes, r.status,
    r.priority, r.taskType, r.assignee, r.labels, r.createdAt, r.updatedAt, r.closedAt,
    r.closeReason, r.externalRef, r.contentHash, r.branch, r.worktreeId, r.pendingVerification,
    r.pendingWorktreeMerge, r.epicVerificationOwner, r.teamId, r.deliverables, r.demoStatement,
    r.executionNote, r.share, r.depth, r.terminalOutcome, r.originProject, r.deliveryMode, r.risk,
    r.proofTargets, r.door]

/-- 一行を読むあいだの二つの `Utc::now()`。`created_at` と `updated_at` を補うのに使う。 -/
abbrev RowClock := Time × Time

section Decoding

variable (R : TaskReaders) (now : RowClock) (row : SqlRow)

/-- 時刻の列。読めなければ時計で補う。 -/
def datetimeOrNow (i : Nat) (now : Time) : Except RowError Time := do
  let s ← getText row i
  pure ((R.parseDatetime s).getD now)

/-- 真偽の列。読めなければ偽とする。 -/
def flagAt (i : Nat) : Bool := (getI32 row i).toOption.getD 0 == 1

/-- `task_from_row`。 -/
def taskFromRow : Except RowError Task := do
  let id ← getText row 0
  let title ← getText row 1
  let description ← getText row 2
  let design ← getText row 3
  let acceptanceCriteria ← getText row 4
  let notes ← getText row 5
  let status ← getText row 6
  let priority ← getI32 row 7
  let taskType ← getText row 8
  let risk ← getTextOption row 31
  let door ← getTextOption row 33
  let proofTargets ← getTextOption row 32
  let assignee ← getTextOption row 9
  let labels ← getText row 10
  let createdAt ← datetimeOrNow R row 11 now.1
  let updatedAt ← datetimeOrNow R row 12 now.2
  let closedAt ← getTextOption row 13
  let closeReason ← getTextOption row 14
  let externalRef ← getTextOption row 15
  let contentHash ← getTextOption row 16
  let branch ← getTextOption row 17
  let worktreeId ← getTextOption row 18
  let epicVerificationOwner ← getTextOption row 21
  let teamId ← getTextOption row 22
  let deliverables ← getText row 23
  let demoStatement ← getText row 24
  let executionNote ← getTextOption row 25
  let share ← getTextOption row 26
  let depth ← getTextOption row 27
  let terminalOutcome ← getTextOption row 28
  let originProject ← getTextOption row 29
  let deliveryMode ← getTextOption row 30
  pure
    { id, title, description, design, acceptanceCriteria
      scope := .project
      notes := notes.toList
      status := (TaskStatus.fromStr status).getD .open
      priority
      taskType := (TaskType.fromStr taskType).getD .task
      risk := parseRisks risk
      door := door.bind TaskDoor.fromStr
      proofTargets := R.parseProofTargets proofTargets
      assignee
      labels := R.parseLabels labels
      createdAt, updatedAt
      closedAt := closedAt.bind R.parseDatetime
      closeReason, externalRef, contentHash, branch, worktreeId
      pendingVerification := flagAt row 19
      pendingWorktreeMerge := flagAt row 20
      epicVerificationOwner, teamId
      deliverables := some (R.parseDeliverables deliverables)
      demoStatement, executionNote
      share := share.bind ShareScope.fromStr
      depth := (depth.bind TaskDepth.fromStr).getD .deep
      terminalOutcome := R.parseTerminalOutcome terminalOutcome
      originProject
      deliveryMode := (deliveryMode.bind DeliveryMode.fromStr).getD .pushBranch }

/-- `list_blocked` が blocker の行を読むところ。`from_id` の後の列を、もう一度数え直している。 -/
def blockerFromRow : Except RowError (String × Task) := do
  let fromId ← getText row 0
  let id ← getText row 1
  let title ← getText row 2
  let description ← getText row 3
  let design ← getText row 4
  let acceptanceCriteria ← getText row 5
  let notes ← getText row 6
  let status ← getText row 7
  let priority ← getI32 row 8
  let taskType ← getText row 9
  let risk ← getTextOption row 32
  let door ← getTextOption row 34
  let proofTargets ← getTextOption row 33
  let assignee ← getTextOption row 10
  let labels ← getText row 11
  let createdAt ← datetimeOrNow R row 12 now.1
  let updatedAt ← datetimeOrNow R row 13 now.2
  let closedAt ← getTextOption row 14
  let closeReason ← getTextOption row 15
  let externalRef ← getTextOption row 16
  let contentHash ← getTextOption row 17
  let branch ← getTextOption row 18
  let worktreeId ← getTextOption row 19
  let epicVerificationOwner ← getTextOption row 22
  let teamId ← getTextOption row 23
  let deliverables ← getText row 24
  let demoStatement ← getText row 25
  let executionNote ← getTextOption row 26
  let share ← getTextOption row 27
  let depth ← getTextOption row 28
  let terminalOutcome ← getTextOption row 29
  let originProject ← getTextOption row 30
  let deliveryMode ← getTextOption row 31
  let task : Task :=
    { id, title, description, design, acceptanceCriteria
      scope := .project
      notes := notes.toList
      status := (TaskStatus.fromStr status).getD .open
      priority
      taskType := (TaskType.fromStr taskType).getD .task
      risk := parseRisks risk
      door := door.bind TaskDoor.fromStr
      proofTargets := R.parseProofTargets proofTargets
      assignee
      labels := R.parseLabels labels
      createdAt, updatedAt
      closedAt := closedAt.bind R.parseDatetime
      closeReason, externalRef, contentHash, branch, worktreeId
      pendingVerification := flagAt row 20
      pendingWorktreeMerge := flagAt row 21
      epicVerificationOwner, teamId
      deliverables := some (R.parseDeliverables deliverables)
      demoStatement, executionNote
      share := share.bind ShareScope.fromStr
      depth := (depth.bind TaskDepth.fromStr).getD .deep
      terminalOutcome := R.parseTerminalOutcome terminalOutcome
      originProject
      deliveryMode := (deliveryMode.bind DeliveryMode.fromStr).getD .pushBranch }
  pure (fromId, task)

end Decoding

end Cassy
