import Mathlib.Data.List.Sort
import Mathlib.Data.String.Basic
import Cassy.Infra.Find
import Cassy.Infra.Json
import Cassy.Infra.JsonText
import Cassy.Prompt.Abandonment
import Cassy.Prompt.Confirm

/-!
# worker の報告を畳む

`enqueue_worker_action_with_outcome`。worker の新しい報告は、まだ渡していない前の報告を取り下げ、その本文を自分の
本文の前に見出しを付けて運ぶ。

* `splitQuietMarker` — 起こさない伝言の印
* `foldPieces`、`foldAction` — 前の報告の本文と、上限までの畳み込み
* `supervisorDeliveryKind` — 畳んだ本文を transport に渡すか、一行の digest にするか

本文は byte の数で上限に収める。上限を越える報告は、取り下げずに残す。

task の表と、本文の JSON の読み方は `DeliveryWorld` として受け取る。
-/

namespace Cassy

open Infra

/-! ## 起こさない印 -/

/-- `QUIET_MESSAGE_MARKER`。 -/
def quietMessageMarker : Text := "<cas-message-quiet/>".toList

/-- `split_quiet_marker` の `strip`。 -/
def stripQuiet (rest : Text) : Option Text :=
  (stripPrefix quietMessageMarker rest).map fun rest => (stripPrefix ['\n'] rest).getD rest

/-- `split_quiet_marker`。 -/
def splitQuietMarker (text : Text) : Bool × Text :=
  match stripQuiet text with
  | some rest => (true, rest)
  | none =>
    if "[CAS reply:".toList.isPrefixOf text then
      match splitOnce ['\n'] text with
      | none => (false, text)
      | some (head, rest) =>
        match stripQuiet rest with
        | some rest => (true, head ++ '\n' :: rest)
        | none => (false, text)
    else (false, text)

/-! ## 本文と見出し -/

/-- `str::len`。 -/
def byteLen (t : Text) : Nat := (t.map Char.utf8Size).sum

/-- `FOLD_END`。 -/
def foldEndLine : Text := "--- end of earlier undelivered messages ---".toList

/-- `parser_delimiter`。 -/
def parserDelimiter : Text := '\n' :: '\n' :: foldEndLine

/-- `escaped_delimiter`。 -/
def escapedDelimiter : Text := '\n' :: '\n' :: '\\' :: foldEndLine

/-- `fold_end`。 -/
def foldEnd : Text := parserDelimiter ++ ['\n', '\n']

/-- `prompt_for_storage`。 -/
def promptForStorage (prompt : Text) : Text := replaceText parserDelimiter escapedDelimiter prompt

/-- `body_of`。報告の封筒より前の本文。 -/
def bodyOf (text : Text) : Text :=
  trim (((rsplitOnce "<cas-worker-action".toList text).map (·.1)).getD text)

/-- 見出し。 -/
def earlierLabel (id : Nat) (summary : Option String) : Text :=
  let label := match summary.filter nonBlank with
    | some s => " (".toList ++ promptForStorage (trim s.toList) ++ [')']
    | none => []
  "Earlier message #".toList ++ natText id ++ label
    ++ ", not yet delivered when this one was sent:\n".toList

/-- 前の報告自身の本文。空のものと、新しい報告と同じものは運ばない。 -/
def ownPiece (newBody : Text) (r : PromptRow) (own : Text) : List Text :=
  if own ≠ [] ∧ own ≠ newBody then [earlierLabel r.id r.summary ++ own] else []

/-- 前の報告から運ぶ段落。畳んだ報告は、その見出しの段落と、自身の本文に分ける。 -/
def foldPieces (newBody : Text) (r : PromptRow) : List Text :=
  let oldBody := bodyOf (splitQuietMarker r.prompt.toList).2
  match splitOnce parserDelimiter oldBody with
  | some (earlier, own) => trim earlier :: ownPiece newBody r (trim own)
  | none => ownPiece newBody r oldBody

/-! ## 畳み込み -/

/-- `WORKER_ACTION_FOLD_CAP_BYTES`。 -/
def workerActionFoldCapBytes : Nat := 8000

/-- 畳み込みの途中。 -/
structure FoldState where
  blocks : List Text
  allQuiet : Bool
  foldedLen : Nat
  superseded : List PromptRow

/-- 報告を一つ畳む。上限を越えるなら残す。 -/
def foldAction (newBody : Text) (st : FoldState) (r : PromptRow) : FoldState :=
  let pieces := foldPieces newBody r
  let added := (pieces.map fun piece => byteLen piece + 2).sum
  if pieces ≠ [] ∧ workerActionFoldCapBytes < st.foldedLen + added then st
  else
    { blocks := st.blocks ++ pieces
      allQuiet := st.allQuiet && (splitQuietMarker r.prompt.toList).1
      foldedLen := st.foldedLen + added
      superseded := st.superseded ++ [r] }

/-- 畳む前。 -/
def foldStart (stored : Text) : FoldState :=
  let (newQuiet, newPrompt) := splitQuietMarker stored
  { blocks := []
    allQuiet := newQuiet
    foldedLen := byteLen newPrompt + byteLen foldEnd
      + if newQuiet then byteLen quietMessageMarker + 1 else 0
    superseded := [] }

/-- 候補を古い順に畳む。 -/
def foldActions (stored : Text) (candidates : List PromptRow) : FoldState :=
  candidates.foldl (foldAction (bodyOf (splitQuietMarker stored).2)) (foldStart stored)

/-- 畳んだ後の本文。 -/
def storedPrompt (stored : Text) (st : FoldState) : Text :=
  let (newQuiet, newPrompt) := splitQuietMarker stored
  if st.blocks = [] then
    if newQuiet && !st.allQuiet then newPrompt else stored
  else
    let folded := joinParagraphs st.blocks ++ foldEnd ++ newPrompt
    if st.allQuiet then quietMessageMarker ++ '\n' :: folded else folded

/-! ## 渡し方 -/

/-- `parse_lifecycle_envelope` の読む field。 -/
structure LifecycleEvent where
  taskId : String
  transition : Option String
  branchTip : Option String

/-- 渡し方を決めるときに読む、伝言の表の外の事実。 -/
structure DeliveryWorld where
  /-- `agents` の行。表がまだ無ければ `none`。 -/
  agents : Option (List Agent) := none
  /-- `tasks` の表がある。 -/
  hasTasks : Bool := false
  /-- worker の、merge を待つ納品の task と anchor。`LIMIT 2` で読む。 -/
  parked : String → String → Option String → List (String × Option String) := fun _ _ _ => []
  /-- task の納品が、その commit で競合なく取り込まれている。 -/
  landed : String → String → Bool := fun _ _ => false
  /-- `serde_json::from_str`。 -/
  parseJson : Text → Option Json := fun _ => none
  lifecycleEvent : Text → Option LifecycleEvent := fun _ => none

/-- `is_operator_target`。 -/
def isOperatorTarget (target : String) : Bool :=
  eqIgnoreAsciiCase target.toList "operator".toList || "commander:".toList.isPrefixOf target.toList

/-- `event[key].as_str()`。 -/
def jsonStr (json : Json) (key : String) : Option String :=
  match json with
  | .object members => match members.lookup key with
    | some (.string s) => some s
    | _ => none
  | _ => none

/-- 40 桁の commit。 -/
def isCommit (head : String) : Bool := byteLen head.toList = 40 && head.toList.all isAsciiHexdigit

/-- `reported_tip` の一行。 -/
def tipOfLine (line : Text) : Option Text :=
  match stripPrefix "tip:".toList (trim line) with
  | none => none
  | some rest =>
    match (rest.splitOnP isWhitespace).filter (· ≠ []) with
    | [] => none
    | word :: _ =>
      let sha := trimEndMatches (fun c => c = ';' || c = ',' || c = '.') word
      if 7 ≤ byteLen sha ∧ byteLen sha ≤ 40 ∧ sha.all isAsciiHexdigit then
        some (sha.map toAsciiLower)
      else none

/-- `reported_tip`。 -/
def reportedTip (prompt : Text) : Option Text := (lines prompt).findSome? tipOfLine

/-- 報告の封筒の属性。 -/
def actionAttribute (tag : Text) (name : String) : Option Text :=
  (splitOnce ['>'] tag).bind fun (head, _) =>
    (splitOnce (name.toList ++ ['=', '"']) head).map fun (_, value) => value.takeWhile (· ≠ '"')

namespace DeliveryWorld

variable (w : DeliveryWorld)

def live (a : Agent) : Bool := a.status = .active || a.status = .idle

/-- この session の、宛先の supervisor の番号。 -/
def supervisorOf (session : Option String) (target : String) : Option String :=
  match w.agents with
  | none => if target = "supervisor" then some target else none
  | some agents =>
    (((agents.filter fun a => a.role = .supervisor && a.factorySession = session
      && (a.name = target || target = "supervisor") && live a).map Agent.id).insertionSort
        (· ≤ ·)).head?

/-- この session の worker の名前。 -/
def workerName (session : Option String) (agentId : String) : Option String :=
  w.agents.bind fun agents =>
    (agents.find? fun a => a.id = agentId && a.role = .worker && a.factorySession = session).map
      Agent.name

/-- 静かな知らせを受ける、動いている worker がいる。 -/
def liveWorker (session : Option String) (target : String) : Bool :=
  w.agents.any fun agents => agents.any fun a =>
    a.role = .worker && a.factorySession = session && (a.name = target || a.id = target) && live a

/-- daemon の知らせの名指す納品。 -/
def daemonBoundary (prompt : Text) : Option (String × String) :=
  let ready := (rsplitOnce "\n\n<cas-director-ready>".toList prompt).bind fun (_, json) =>
    (stripSuffix "</cas-director-ready>".toList json).bind fun json =>
      (w.parseJson json).bind fun event =>
        (jsonStr event "task_id").bind fun task =>
          (jsonStr event "factory_tip").map fun head => (task, head)
  ready.or ((w.lifecycleEvent prompt).bind fun event =>
    if event.transition = some "task_awaiting_merge" then
      event.branchTip.map fun head => (event.taskId, head)
    else none)

/-- 名前のある worker の、納品を繰り返す報告の納品。 -/
def readyBoundary (worker agentId : String) (prompt tag : Text) : Option (String × String) :=
  if actionAttribute tag "kind" = some "ready".toList
      ∧ actionAttribute tag "worker" = some worker.toList ∧ w.hasTasks then
    match w.parked worker agentId ((actionAttribute tag "task_id").map String.ofList) with
    | [(task, some head)] =>
      if isCommit head
          ∧ (reportedTip prompt).any fun tip => tip.isPrefixOf (head.toList.map toAsciiLower) then
        some (task, head)
      else none
    | _ => none
  else none

/-- worker の伝言の名指す納品。 -/
def workerBoundary (worker agentId : String) (prompt : Text) : Option (String × String) :=
  match (rsplitOnce "<cas-merge-request>".toList prompt).bind fun (_, json) =>
      (stripSuffix "</cas-merge-request>".toList json).bind w.parseJson with
  | some event =>
    -- 元の新しさを確かめられない依頼は、繰り返しとみなさない。
    let fresh : Bool := match event with
      | .object members => (members.lookup "source_freshness_unavailable").all (· = .null)
      | _ => true
    if fresh then
      (jsonStr event "task_id").bind fun task =>
        (jsonStr event "branch_tip").map fun head => (task, head)
    else none
  | none =>
    if (stripSuffix "</cas-worker-action>".toList prompt).isSome then
      (rsplitOnce "<cas-worker-action ".toList prompt).bind fun (_, tag) =>
        w.readyBoundary worker agentId prompt tag
    else none

/-- 伝言の名指す納品。 -/
def boundaryOf (session : Option String) (origin : Option QueueOrigin) (prompt : Text) :
    Option (String × String) :=
  match origin with
  | some .daemon => w.daemonBoundary prompt
  | some (.registeredAgent agentId) =>
    (w.workerName session agentId).bind fun worker => w.workerBoundary worker agentId prompt
  | _ => none

end DeliveryWorld

/-- daemon の決まりきった知らせ。 -/
def routineNotice (source : String) (prompt : Text) : Bool :=
  startsWithText "lifecycle:" source
    || (startsWithText "lifecycle-wake:worker-attention:" source
      && ["worker_idle", "verification_dispatch_expired"].any fun kind =>
        ("<worker-attention kind=\"".toList ++ kind.toList ++ "\" ".toList).isPrefixOf prompt)

/-- 納品ごとの `kind` の綴り。 -/
def mergeReadyKind (supervisor task head : String) : PromptKind :=
  .mergeReady (String.ofList
    (writeTexts [supervisor.toList, task.toList, head.toList]))

/-- `supervisor_delivery_kind`。 -/
def PromptDb.supervisorDeliveryKind (db : PromptDb) (w : DeliveryWorld) (source target : String)
    (prompt : Text) (session : Option String) (urgent : Bool) (origin : Option QueueOrigin) :
    Option PromptKind :=
  let daemon := origin = some .daemon
  let quiet := (splitQuietMarker prompt).1
  let attributed := match origin with
    | some .daemon | some (.registeredAgent _) => true
    | _ => false
  if urgent || isOperatorTarget target || !attributed then none
  else if daemon && quiet && w.liveWorker session target then some .noticeDigest
  else match w.supervisorOf session target with
    | none => none
    | some supervisor =>
      if quiet || (daemon && routineNotice source prompt) then some .supervisorDigest
      -- 止まっている知らせは、本文が merge に触れていても一つの用件である。
      else if Infra.containsText "<cas-blocker ".toList prompt then none
      else match w.boundaryOf session origin prompt with
        | none => none
        | some (task, head) =>
          if task = "" || !isCommit head then none
          else if w.hasTasks && w.landed task head then some .supervisorDigest
          else if db.rows.any fun r => r.factorySession = session
              && r.kind = some (mergeReadyKind supervisor task head)
              && stageDeliverable r.highestStage then some .supervisorDigest
          else some (mergeReadyKind supervisor task head)

/-! ## 受付 -/

/-- `enqueue_worker_action_with_outcome` の引数。 -/
structure WorkerAction where
  source : String
  target : String
  prompt : String
  workerName : String
  factorySession : String
  summary : Option String := none
  priority : Option NotificationPriority := none
  urgent : Bool := false
  origin : QueueOrigin
  deriving DecidableEq, Repr

namespace WorkerAction

variable (a : WorkerAction)

/-- 貯える本文。 -/
def stored : Text := promptForStorage a.prompt.toList

/-- 封筒に書かれる名前。 -/
def escapedWorker : Text :=
  a.workerName.toList.filter fun c => !(['"', '<', '>', '\n', '\r'].contains c)

/-- 畳む相手の本文の形。`supervisor_digest` は、静かなものだけを畳む。 -/
def folds (r : PromptRow) : Bool :=
  (r.kind.isNone || (splitQuietMarker r.prompt.toList).1)
    && (stripSuffix "</cas-worker-action>".toList r.prompt.toList).isSome
    && ["status", "ready"].any fun kind => Infra.containsText
      ("<cas-worker-action kind=\"".toList ++ kind.toList ++ "\" worker=\"".toList ++ a.escapedWorker
        ++ ['"']) r.prompt.toList

/-- 新しい行。本文と渡し方は、畳んだ後に決まる。 -/
def newPrompt (now : Time) (prompt : Text) (kind : Option PromptKind) : NewPrompt where
  source := a.source
  target := a.target
  prompt := String.ofList prompt
  summary := a.summary
  createdAt := now
  priority := a.priority.getD .normal
  urgent := a.urgent
  factorySession := some a.factorySession
  origin := some a.origin
  kind := kind

end WorkerAction

namespace PromptDb

/-- まだ渡していない、同じ worker の報告。番号の順に並ぶ。 -/
def pendingActions (db : PromptDb) (a : WorkerAction) (agentId : String) : List PromptRow :=
  ((db.rows.filter (supersedable a.factorySession agentId)).insertionSort
    fun x y => x.id ≤ y.id).filter a.folds

/-- 渡したばかりで確認を待つ、同じ中身の報告。 -/
def deliveredActionDuplicate? (db : PromptDb) (now : Time) (a : WorkerAction) : Option PromptRow :=
  if a.urgent || a.source = "supervisor" then none
  else db.lastDelivered? (a.newPrompt now a.stored none)

/-- `enqueue_worker_action_with_outcome`。 -/
def enqueueWorkerActionWithOutcome (db : PromptDb) (now : Time) (w : DeliveryWorld)
    (a : WorkerAction) : Except StoreError (EnqueueOutcome × PromptDb) := do
  ensure (eqIgnoreAsciiCase (trim a.target.toList) "operator".toList = false)
    (.other (if nonBlank a.factorySession then "worker action cannot be sent to the operator"
      else "a Commander turn (target='operator') must name the factory session it belongs to"))
  match a.origin with
  | .registeredAgent agentId =>
    match db.deliveredActionDuplicate? now a with
    | some r => return (.suppressedDuplicate r.id, db)
    | none =>
      let st := foldActions a.stored (db.pendingActions a agentId)
      let prompt := storedPrompt a.stored st
      let kind := db.supervisorDeliveryKind w a.source a.target prompt (some a.factorySession)
        a.urgent (some a.origin)
      let (id, db) ← db.enqueueWorkerAction now (a.newPrompt now prompt kind) a.factorySession agentId
        (st.superseded.map PromptRow.id)
      return (.created id, db)
  | _ => .error (.other "worker action requires a registered-agent origin")

end PromptDb

end Cassy
