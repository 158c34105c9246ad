import Cassy.Infra.Run
import Cassy.Task.Dependency
import Cassy.Task.Wire

/-!
# task の再開用の状態

`task_execution_states` の一行は、task を再開するための小さな JSON object である。
`patch_execution_state` は行を読み、patch を重ね、全体を書き戻す。`null` は field を消す。

この三つの文を囲む transaction は無い。二つの呼び出しは文の間に互いに割り込めるので、
`merge_task_execution_state_patch` は関数として、`patch_execution_state` は文ごとに進む機械として
書く。

`serde_json` の読み書きと誤りの文面は repository の外にあるので、`Serde` として受け取る。
-/

namespace Cassy

open Infra Codec

/-- `serde_json` と `chrono` から使うもの。 -/
structure Serde where
  time : TimeFormat
  parse : String → Except String Json
  print : Json → String
  describe : DeError → String

/-! ## 値の見方 -/

def asObject? : Json → Option Members
  | .object m => some m
  | _ => none

def asArray? : Json → Option (List Json)
  | .array vs => some vs
  | _ => none

def asStr? : Json → Option String
  | .string s => some s
  | _ => none

def asU64? : Json → Option UInt64
  | .number (.posInt n) => some n
  | _ => none

/-- `is_i64() || is_u64()`。 -/
def isInteger : Json → Bool
  | .number (.posInt _) | .number (.negInt _ _) => true
  | _ => false

/-- `Value::get`。object でなければ見つからない。 -/
def getKey (v : Json) (k : String) : Option Json := (asObject? v).bind fun m => m.lookup k

/-- `Map::insert`。ある名前は値だけを書き換え、無い名前は末尾に足す。 -/
def insertKey (m : Members) (k : String) (v : Json) : Members :=
  if (m.lookup k).isSome then m.map fun e => if e.1 = k then (k, v) else e else m ++ [(k, v)]

/-- `Map::remove`。消した位置には末尾の項が入る。 -/
def removeKey (m : Members) (k : String) : Members :=
  match m.findIdx? fun e => e.1 = k, m.getLast? with
  | some i, some last => (m.set i last).dropLast
  | _, _ => m

/-! ## 検査 -/

def taskExecutionStateMaxBytes : Nat := 16 * 1024

def taskQaImpactMaxBytes : Nat := 1024 * 1024

def taskExecutionStateMaxStringBytes : Nat := 2 * 1024

def taskExecutionStateMaxArrayItems : Nat := 256

/-- `TASK_EXECUTION_STATE_FIELDS`。 -/
inductive ExecutionField where
  | phase | receipts | filesTouched | decisions | nextStep | blockedHold | answeredBlocker
  | blockerAsk | qaImpact
  deriving DecidableEq, Repr

namespace ExecutionField

def toString : ExecutionField → String
  | phase => "phase"
  | receipts => "receipts"
  | filesTouched => "files_touched"
  | decisions => "decisions"
  | nextStep => "next_step"
  | blockedHold => "blocked_hold"
  | answeredBlocker => "answered_blocker"
  | blockerAsk => "blocker_ask"
  | qaImpact => "qa_impact"

/-- 書いてよい field の並び。 -/
def all : List ExecutionField :=
  [phase, receipts, filesTouched, decisions, nextStep, blockedHold, answeredBlocker, blockerAsk,
   qaImpact]

def ofName (name : String) : Option ExecutionField := all.find? fun f => f.toString = name

end ExecutionField

/-- 検査の誤りは文面だけを持つ。 -/
abbrev Check := Except String Unit

def validateStateString (field : String) (v : Json) : Check := do
  let s ← okOr (asStr? v) s!"execution state field '{field}' must be a string"
  ensure (s.utf8ByteSize ≤ taskExecutionStateMaxStringBytes)
    s!"execution state field '{field}' exceeds the {taskExecutionStateMaxStringBytes}-byte limit"

/-- 配列の field に共通の検査。 -/
def validateItems (field : String) (v : Json) (item : Nat → Json → Check) : Check := do
  let vs ← okOr (asArray? v) s!"execution state field '{field}' must be an array"
  ensure (vs.length ≤ taskExecutionStateMaxArrayItems)
    s!"execution state field '{field}' has too many items (maximum {taskExecutionStateMaxArrayItems})"
  vs.zipIdx.forM fun x => item x.2 x.1

def validateStateStringArray (field : String) (v : Json) : Check :=
  validateItems field v fun i v => validateStateString s!"{field}[{i}]" v

/-- 一つの receipt。command と exit_status だけを持つ。 -/
def validateReceipt (i : Nat) (v : Json) : Check := do
  let m ← okOr (asObject? v) s!"execution state receipt {i} must be an object"
  let command ← okOr (m.lookup "command") s!"execution state receipt {i} requires command"
  validateStateString s!"receipt {i} command" command
  let exitStatus ← okOr (m.lookup "exit_status")
    s!"execution state receipt {i} requires exit_status"
  ensure (isInteger exitStatus) s!"execution state receipt {i} exit_status must be an integer"
  ensure (m.length = 2) s!"execution state receipt {i} only allows command and exit_status"

/-- `qa_impact` の journey。 -/
def journeyOk (v : Json) : Bool :=
  (((getKey v "id").bind asStr?).any fun id => ¬ (trim id.toList).isEmpty)
    && ((getKey v "status").bind asStr?).any fun s => s = "live" ∨ s = "dark" ∨ s = "dead"

def validateQaImpact (sd : Serde) (v : Json) : Check := do
  let impact ← okOr (asObject? v) "qa_impact must be an object"
  ensure ((impact.lookup "version").bind asU64? = some 1
      ∧ ((impact.lookup "head_sha").bind asStr?).any (fun head =>
        head.utf8ByteSize = 40 ∧ head.toList.all isAsciiHexdigit)
      ∧ (impact.lookup "registry").any fun r => (asObject? r).isSome)
    "qa_impact requires version=1, a full head_sha and registry metadata"
  let journeys ← okOr ((impact.lookup "journeys").bind asArray?)
    "qa_impact requires a journeys array"
  ensure (journeys.all journeyOk) "qa_impact journeys require an id and live/dark/dead status"
  ensure ((sd.print v).utf8ByteSize ≤ taskQaImpactMaxBytes)
    s!"qa_impact exceeds the {taskQaImpactMaxBytes}-byte limit"

/-- `#[serde(deny_unknown_fields)]`。 -/
def denyUnknown (known : List String) (m : Members) : Except DeError Unit :=
  match m.find? fun e => e.1 ∉ known with
  | some e => .error (.unknownField e.1)
  | none => .ok ()

/-- 誤りを文面にして渡す。 -/
def mapDe {α : Type} (message : DeError → String) (r : Except DeError α) : Except String α :=
  r.mapError message

/-- `TaskBlockedHold`。 -/
structure TaskBlockedHold where
  reason : String
  who : String
  «when» : Time

def TaskBlockedHold.de (f : TimeFormat) (v : Json) : Except DeError TaskBlockedHold := do
  let m ← v.members
  denyUnknown ["reason", "who", "when"] m
  let reason ← string.required m "reason"
  let who ← string.required m "who"
  let «when» ← f.codec.required m "when"
  pure { reason, who, «when» }

def validateBlockedHold (sd : Serde) (v : Json) : Check := do
  let hold ← mapDe (fun e =>
    let e := sd.describe e
    s!"execution state field 'blocked_hold' is invalid: {e}") (TaskBlockedHold.de sd.time v)
  ensure (¬ (trim hold.reason.toList).isEmpty)
    "execution state field 'blocked_hold.reason' must not be empty"
  ensure (¬ (trim hold.who.toList).isEmpty)
    "execution state field 'blocked_hold.who' must not be empty"
  validateStateString "blocked_hold.reason" (.string hold.reason)
  validateStateString "blocked_hold.who" (.string hold.who)

/-- `i64`。 -/
def readI64 (v : Json) : Except DeError Int := readSigned (-2 ^ 63) (2 ^ 63) v

/-- `TaskAnsweredBlocker`。 -/
structure TaskAnsweredBlocker where
  worker : String
  supervisor : String
  reason : String
  ask : Option String
  messageId : Int

def TaskAnsweredBlocker.de (v : Json) : Except DeError TaskAnsweredBlocker := do
  let m ← v.members
  denyUnknown ["worker", "supervisor", "reason", "ask", "message_id"] m
  let worker ← string.required m "worker"
  let supervisor ← string.required m "supervisor"
  let reason ← string.required m "reason"
  let ask ← string.optional m "ask"
  let raw ← okOr (m.lookup "message_id") (.missingField "message_id")
  let messageId ← readI64 raw
  pure { worker, supervisor, reason, ask, messageId }

def validateAnsweredBlocker (sd : Serde) (v : Json) : Check := do
  let receipt ← mapDe (fun e =>
    let e := sd.describe e
    s!"invalid answered_blocker: {e}") (TaskAnsweredBlocker.de v)
  ensure (0 < receipt.messageId ∧ receipt.worker ≠ "" ∧ receipt.supervisor ≠ ""
      ∧ receipt.reason ≠ "")
    "answered_blocker requires worker, supervisor, reason and a positive message_id"
  validateStateString "worker" (.string receipt.worker)
  validateStateString "supervisor" (.string receipt.supervisor)
  validateStateString "reason" (.string receipt.reason)
  validateStateString "ask" (.string (receipt.ask.getD ""))

/-- `validate_task_execution_state_field`。 -/
def validateTaskExecutionStateField (sd : Serde) (field : ExecutionField) (v : Json) : Check :=
  match field with
  | .phase | .nextStep | .blockerAsk => validateStateString field.toString v
  | .filesTouched | .decisions => validateStateStringArray field.toString v
  | .receipts => validateItems field.toString v validateReceipt
  | .qaImpact => validateQaImpact sd v
  | .answeredBlocker => validateAnsweredBlocker sd v
  | .blockedHold => validateBlockedHold sd v

/-- 一つの項の検査。知らない名前は新しい実行系のものとして読み飛ばす。 -/
def validateStoredField (sd : Serde) (e : String × Json) : Check :=
  match ExecutionField.ofName e.1 with
  | none => .ok ()
  | some field => do
    let name := e.1
    ensure (e.2 ≠ .null) s!"execution state field '{name}' must be deleted, not stored as null"
    validateTaskExecutionStateField sd field e.2

/-- `validate_task_execution_state`。 -/
def validateTaskExecutionState (sd : Serde) (state : Json) : Check := do
  let m ← okOr (asObject? state) "execution state must be a JSON object"
  m.forM (validateStoredField sd)
  ensure ((sd.print (.object (removeKey m "qa_impact"))).utf8ByteSize ≤ taskExecutionStateMaxBytes)
    s!"execution state exceeds the {taskExecutionStateMaxBytes}-byte limit"

/-! ## patch -/

/-- patch の一項を重ねる。 -/
def mergeField (sd : Serde) (merged : Members) (e : String × Json) : Except String Members := do
  let name := e.1
  let allowed := ", ".intercalate (ExecutionField.all.map ExecutionField.toString)
  let field ← okOr (ExecutionField.ofName name)
    s!"unknown execution state field '{name}'; allowed fields: {allowed}"
  if e.2 = .null then pure (removeKey merged name)
  else do
    validateTaskExecutionStateField sd field e.2
    pure (insertKey merged name e.2)

/-- `merge_task_execution_state_patch`。 -/
def mergeTaskExecutionStatePatch (sd : Serde) (current patch : Json) : Except String Json := do
  validateTaskExecutionState sd current
  let p ← okOr (asObject? patch) "execution state patch must be a JSON object"
  let m ← okOr (asObject? current) "stored execution state must be a JSON object"
  let merged ← p.foldlM (mergeField sd) m
  validateTaskExecutionState sd (.object merged)
  pure (.object merged)

/-- `task_execution_states` の行。 -/
structure ExecutionStateRow where
  taskId : String
  state : String
  updatedAt : Time
  deriving DecidableEq, Repr

/-- 読んだ行から、次に書く状態を作る。 -/
def nextExecutionState (sd : Serde) (stored : Option String) (patch : Json) :
    Except StoreError Json := do
  let current ← match stored with
    | none => pure (Json.object [])
    | some encoded => (sd.parse encoded).mapError StoreError.json
  (mergeTaskExecutionStatePatch sd current patch).mapError StoreError.parse

/-- 書く文。空の object は行を消す。 -/
def storedText (sd : Serde) (next : Json) : Option String :=
  if asObject? next = some [] then none else some (sd.print next)

/-- 間に何も割り込まないときの `patch_execution_state`。保存されている文字列の上の関数である。 -/
def applyPatch (sd : Serde) (stored : Option String) (patch : Json) :
    Except StoreError (Option String) := do
  let next ← nextExecutionState sd stored patch
  pure (storedText sd next)

/-! ## 文ごとの実行 -/

/-- 呼び出しの進み具合。`write` は読んだ文字列と、書こうとしている状態を持つ。 -/
inductive PatchPc where
  | validate
  | read
  | write (seen : Option String) (next : Json)
  | done (result : Except StoreError Json)

/-- 一つの task に patch を当てる、いくつかの呼び出し。 -/
structure PatchRun (ι : Type) where
  tasks : Table Task.id
  states : Table ExecutionStateRow.taskId
  pc : ι → PatchPc := fun _ => .validate

/-- どの呼び出しが進むか。`retry` は `SQLITE_BUSY` で始めからやり直す。 -/
inductive PatchAct (ι : Type) where
  | next (i : ι) (now : Time)
  | retry (i : ι)

namespace PatchRun

variable {ι : Type} [DecidableEq ι] (sd : Serde) (taskId : String) (patch : ι → Json)

/-- 保存されている文字列。 -/
def stored (s : PatchRun ι) : Option String :=
  (s.states.find? taskId).map ExecutionStateRow.state

/-- 進み具合を書き換える。 -/
def setPc (s : PatchRun ι) (i : ι) (pc : PatchPc) : PatchRun ι :=
  { s with pc := fun j => if j = i then pc else s.pc j }

/-- `DELETE` か、`INSERT … ON CONFLICT(task_id) DO UPDATE`。 -/
def write (s : PatchRun ι) (next : Json) (now : Time) : PatchRun ι :=
  match storedText sd next with
  | none => { s with states := s.states.delete fun r => r.taskId = taskId }
  | some state =>
    if (s.states.find? taskId).isSome then
      { s with
        states := s.states.update (fun r => r.taskId = taskId) fun r =>
          { r with state, updatedAt := now } }
    else { s with states := s.states.insertOrIgnore { taskId, state, updatedAt := now } }

/-- 呼び出しの次の文を流す。 -/
def next (s : PatchRun ι) (i : ι) (now : Time) : PatchRun ι :=
  match s.pc i with
  | .validate =>
    if (s.tasks.find? taskId).isSome then s.setPc i .read
    else s.setPc i (.done (.error (.taskNotFound taskId)))
  | .read =>
    match nextExecutionState sd (s.stored taskId) (patch i) with
    | .ok v => s.setPc i (.write (s.stored taskId) v)
    | .error e => s.setPc i (.done (.error e))
  | .write _ v => (s.write sd taskId v now).setPc i (.done (.ok v))
  | .done _ => s

/-- 終わっていない呼び出しを始めからやり直す。 -/
def retry (s : PatchRun ι) (i : ι) : PatchRun ι :=
  match s.pc i with
  | .done _ => s
  | _ => s.setPc i .validate

end PatchRun

/-- 一歩。 -/
def patchStep {ι : Type} [DecidableEq ι] (sd : Serde) (taskId : String) (patch : ι → Json)
    (s : PatchRun ι) : PatchAct ι → Unit × PatchRun ι
  | .next i now => ((), s.next sd taskId patch i now)
  | .retry i => ((), s.retry i)

end Cassy
