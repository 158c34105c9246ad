import Cassy.Prompt.Db

/-!
# 段階の押印

`atomic_stage_stamp_in_tx` と、それを通して段階を動かす操作。

押印は `BEGIN IMMEDIATE` の中で段階を読み、移りを決め、書く。shutdown で取り下げた伝言は、確認の他の押印を
黙って読み捨てる。transport が渡した伝言には、宛先ごとの記録も同じ transaction で残す。

打ち切りの押印は送り主への知らせを同じ transaction で足すか、同じ時間帯の知らせに畳む。知らせの文面は
ここでは作らず、操作の引数として受け取る。
-/

namespace Cassy

open Infra

/-- `AtomicStampOpts`。 -/
structure AtomicStampOpts where
  reason : Option PendingReason := none
  detail : Option String := none
  setProcessed : Bool := false
  broadcastAttempted : Option Nat := none
  broadcastSucceeded : Option Nat := none
  broadcastFailed : Option Nat := none
  deriving DecidableEq, Repr

namespace AtomicStampOpts

/-- `AtomicStampOpts::reason`。 -/
def ofReason (reason : PendingReason) (detail : Option String) : AtomicStampOpts :=
  { reason := some reason, detail }

/-- `AtomicStampOpts::detail`。 -/
def ofDetail (detail : String) : AtomicStampOpts := { detail := some detail }

/-- `AtomicStampOpts::clear_reason`。 -/
def clearReason : AtomicStampOpts := {}

end AtomicStampOpts

/-- 打ち切りを送り主に知らせる伝言。新しく足すか、前の知らせの本文に畳む。 -/
inductive AbandonNotice where
  | insert (p : NewPrompt)
  | fold (id : Nat) (prompt : String)
  deriving DecidableEq, Repr

namespace PromptDb

/-- 知らせを一つ書く。 -/
def notifyAbandoned (db : PromptDb) : AbandonNotice → PromptDb
  | .insert p => db.insertOrIgnore p
  | .fold id prompt =>
    db.updateId id (fun _ => true) fun r =>
      { r with prompt, summary := some "Messages abandoned (episode continues)" }

/-- 知らせを順に書く。 -/
def notifyAll (db : PromptDb) (notices : List AbandonNotice) : PromptDb :=
  notices.foldl notifyAbandoned db

/-- `read_highest_stage`。無い行は `enqueued` と読む。 -/
def readHighestStage (db : PromptDb) (id : Nat) : Except StoreError DeliveryStage :=
  match (db.find? id).bind PromptRow.highestStage with
  | none => .ok .enqueued
  | some (.stage s) => .ok s
  | some (.corrupt text) =>
    .error (.parse s!"prompt_queue id={id}: corrupt/unknown highest_stage: {text.quote}")

/-- 待つ理由の文面を残す。確認や不達の終わりを迎えた伝言では残さない。 -/
def holdingDetail (current : DeliveryStage) (opts : AtomicStampOpts) : Option String :=
  opts.detail.filter fun detail =>
    nonBlank detail && current ≠ .confirmed && !current.isTerminalNonDelivery
      && (opts.reason = some .gatedNotReady || opts.reason = some .awaitingBusyRecipient)

/-- 押印の書く列。 -/
def stampRow (now : Time) (current next : DeliveryStage) (opts : AtomicStampOpts) (r : PromptRow) :
    PromptRow :=
  let stampTransport := next = .delivered
  let stampProcessed := opts.setProcessed || stampTransport || next.isTerminalNonDelivery
    || next = .partiallyDelivered
  { r with
    highestStage := some (.stage next)
    selectedAt := r.selectedAt.or (some now)
    transportDeliveredAt :=
      if stampTransport then r.transportDeliveredAt.or (some now) else r.transportDeliveredAt
    processedAt := if stampProcessed then r.processedAt.or (some now) else r.processedAt
    lastPendingReason := opts.reason
    lastPendingDetail := opts.detail
    holdingDetail := (holdingDetail current opts).or r.holdingDetail
    broadcastAttempted := opts.broadcastAttempted.or r.broadcastAttempted
    broadcastSucceeded := opts.broadcastSucceeded.or r.broadcastSucceeded
    broadcastFailed := opts.broadcastFailed.or r.broadcastFailed }

/-- 渡した記録を宛先の側にも残す。全員宛てには残さない。 -/
def stampRecipientTransport (db : PromptDb) (now : Time) (id : Nat) : PromptDb :=
  match db.find? id with
  | none => db
  | some r =>
    let record : RecipientTransport :=
      { promptId := id, recipient := r.target, deliveredAt := now, deviceId := r.recipientDeviceId }
    if r.target = allWorkers then db
    else { db with transport := db.transport.insertOrIgnore record }

/-- shutdown で取り下げた伝言。 -/
def shutdownCancelled (db : PromptDb) (id : Nat) : Bool :=
  (db.find? id).any fun r => r.lastPendingReason = some .shutdownCancelled

/-- `atomic_stage_stamp_in_tx`。 -/
def atomicStageStampInTx (db : PromptDb) (now : Time) (notices : List AbandonNotice) (id : Nat)
    (proposed : DeliveryStage) (opts : AtomicStampOpts) : Except StoreError PromptDb := do
  let current ← db.readHighestStage id
  if current = .suppressed ∧ proposed ≠ .confirmed ∧ db.shutdownCancelled id then
    return db
  let next ← resolveStageTransition current proposed id
  let db := db.updateId id (fun _ => true) (stampRow now current next opts)
  let db := if next = .delivered then db.stampRecipientTransport now id else db
  return if next = .abandoned then db.notifyAll notices else db

end PromptDb

/-! ## 一つの押印からなる操作 -/

/-- 押印の相手と提案。 -/
structure StampCall where
  id : Nat
  proposed : DeliveryStage
  opts : AtomicStampOpts

/-- `record_selected`。 -/
def recordSelected (id : Nat) : StampCall := ⟨id, .selected, .clearReason⟩

/-- `mark_transport_delivered`。 -/
def markTransportDelivered (id : Nat) : StampCall := ⟨id, .delivered, { setProcessed := true }⟩

/-- `mark_broadcast_outcome`。 -/
def markBroadcastOutcome (id attempted succeeded failed : Nat) (detail : Option String) :
    StampCall :=
  if attempted = 0 then
    ⟨id, .selected,
      { reason := some .noIntendedRecipients
        detail := detail.or (some "all_workers broadcast: zero intended recipients")
        broadcastAttempted := some 0, broadcastSucceeded := some 0, broadcastFailed := some 0 }⟩
  else if succeeded = attempted then
    ⟨id, .delivered,
      { setProcessed := true, broadcastAttempted := some attempted
        broadcastSucceeded := some succeeded, broadcastFailed := some failed }⟩
  else if succeeded = 0 then
    ⟨id, .selected,
      { reason := some .adapterRetryable
        detail := detail.or (some "all_workers broadcast: zero successes")
        broadcastAttempted := some attempted, broadcastSucceeded := some 0
        broadcastFailed := some failed }⟩
  else
    ⟨id, .partiallyDelivered,
      { reason := some .partialBroadcast
        detail := some (detail.getD "all_workers partial delivery"
          ++ s!": attempted={attempted} succeeded={succeeded} failed={failed}")
        setProcessed := true, broadcastAttempted := some attempted
        broadcastSucceeded := some succeeded, broadcastFailed := some failed }⟩

/-- 伝言を閉じる操作に共通の形。理由の含む段階を提案し、処理済みにする。 -/
def markTerminal (id : Nat) (reason : PendingReason) (detail : Option String) : StampCall :=
  ⟨id, reason.impliedStage, { reason := some reason, detail, setProcessed := true }⟩

/-- `mark_dropped`。 -/
def markDropped (id : Nat) (detail : Option String) : StampCall :=
  markTerminal id .droppedDeadSource detail

/-- `mark_suppressed`。 -/
def markSuppressed (id : Nat) (detail : Option String) : StampCall :=
  markTerminal id .suppressedIdle detail

/-- `mark_superseded`。 -/
def markSuperseded (id : Nat) (detail : String) : StampCall :=
  markTerminal id .supersededStale (some detail)

/-- `mark_abandoned`。 -/
def markAbandoned (id : Nat) (detail : Option String) : StampCall :=
  markTerminal id .abandonedUnknownTarget detail

/-- `mark_undelivered_lifecycle_relay`。 -/
def markUndeliveredLifecycleRelay (id : Nat) (detail : Option String) : StampCall :=
  markTerminal id .undeliveredLifecycleRelay detail

/-- `mark_undelivered_after_wake_declines`。 -/
def markUndeliveredAfterWakeDeclines (id : Nat) (detail : Option String) : StampCall :=
  markTerminal id .undeliveredAfterWakeDeclines detail

/-- 一つの押印からなる操作の名前。 -/
inductive StampOp where
  | selected (id : Nat)
  | transportDelivered (id : Nat)
  | broadcastOutcome (id attempted succeeded failed : Nat) (detail : Option String)
  | dropped (id : Nat) (detail : Option String)
  | suppressed (id : Nat) (detail : Option String)
  | superseded (id : Nat) (detail : String)
  | abandoned (id : Nat) (detail : Option String)
  | undeliveredLifecycleRelay (id : Nat) (detail : Option String)
  | undeliveredAfterWakeDeclines (id : Nat) (detail : Option String)
  deriving DecidableEq, Repr

/-- 操作の押印。 -/
def StampOp.call : StampOp → StampCall
  | selected id => recordSelected id
  | transportDelivered id => markTransportDelivered id
  | broadcastOutcome id attempted succeeded failed detail =>
    markBroadcastOutcome id attempted succeeded failed detail
  | dropped id detail => markDropped id detail
  | suppressed id detail => markSuppressed id detail
  | superseded id detail => markSuperseded id detail
  | abandoned id detail => markAbandoned id detail
  | undeliveredLifecycleRelay id detail => markUndeliveredLifecycleRelay id detail
  | undeliveredAfterWakeDeclines id detail => markUndeliveredAfterWakeDeclines id detail

/-- 理由の含む段階は、順位 3 を越えない。 -/
theorem PendingReason.impliedStage_rank_le (reason : PendingReason) :
    reason.impliedStage.rank ≤ 3 := by
  cases reason <;> decide

/-- これらの操作は、推定も確認も提案しない。 -/
theorem StampOp.call_rank_le (op : StampOp) : op.call.proposed.rank ≤ 3 := by
  cases op with
  | selected id => exact Nat.le_of_ble_eq_true rfl
  | transportDelivered id => exact Nat.le_refl 3
  | broadcastOutcome id attempted succeeded failed detail =>
    simp only [call, markBroadcastOutcome]
    split
    · exact Nat.le_of_ble_eq_true rfl
    · split
      · exact Nat.le_refl 3
      · split
        · exact Nat.le_of_ble_eq_true rfl
        · exact Nat.le_refl 3
  | _ => exact Nat.le_refl 3

namespace PromptDb

/-! ## 押印に他の書き込みの付く操作 -/

/-- `record_pending_reason`。 -/
def recordPendingReason (db : PromptDb) (now : Time) (notices : List AbandonNotice) (id : Nat)
    (reason : PendingReason) (detail : Option String) : Except StoreError PromptDb := do
  let db ← db.atomicStageStampInTx now notices id reason.impliedStage (.ofReason reason detail)
  return if reason.countsAsDeliveryAttempt then
    db.updateId id (fun _ => true) fun r =>
      { r with
        deliveryAttempts := r.deliveryAttempts + 1
        firstAttemptAt := r.firstAttemptAt.or (some now) }
  else db

/-- `PROMPT_RETRY_MAX_ATTEMPTS`。 -/
def promptRetryMaxAttempts : Nat := 120

/-- `PROMPT_RETRY_MAX_AGE_SECS`。 -/
def promptRetryMaxAgeSecs : Int := 15 * 60

/-- `PROMPT_RETRY_BASE_DELAY_MS` から倍々に伸ばし、`PROMPT_RETRY_MAX_DELAY_MS` で止める。 -/
def retryDelayMs (attempts : Nat) : Nat := min (250 * 2 ^ min (attempts - 1) 20) 5000

/-- `PromptRetryDisposition`。 -/
inductive PromptRetryDisposition where
  | scheduled (attempts : Nat) (retryAt : Time)
  | abandoned (attempts : Nat)
  deriving DecidableEq, Repr

/-- 再試行の回数を書く。 -/
def recordAttempts (db : PromptDb) (id attempts : Nat) (firstAttempt : Time)
    (nextAttemptAt : Option Time) : PromptDb :=
  db.updateId id (fun _ => true) fun r =>
    { r with
      deliveryAttempts := attempts
      firstAttemptAt := r.firstAttemptAt.or (some firstAttempt)
      nextAttemptAt }

/-- `record_retry`。 -/
def recordRetry (db : PromptDb) (now : Time) (notices : List AbandonNotice) (id : Nat)
    (reason : PendingReason) (detail : Option String) :
    Except StoreError (PromptRetryDisposition × PromptDb) :=
  match (db.find? id).filter fun r => r.processedAt.isNone with
  | none => .ok (.abandoned 0, db)
  | some r => do
    let attempts := min (r.deliveryAttempts + 1) (2 ^ 32 - 1)
    let firstAttempt := r.firstAttemptAt.getD now
    let ageSecs := max ((now - firstAttempt).tdiv (seconds 1)) 0
    if attempts ≥ promptRetryMaxAttempts ∨ ageSecs ≥ promptRetryMaxAgeSecs then
      let exhaustion := detail.getD "delivery retry exhausted"
        ++ s!"; delivery abandoned after {attempts} failed attempts / {ageSecs}s age"
      let db ← db.atomicStageStampInTx now notices id .abandoned
        { reason := some .abandonedUnknownTarget, detail := some exhaustion, setProcessed := true }
      return (.abandoned attempts, db.recordAttempts id attempts firstAttempt none)
    else
      let retryAt := now + retryDelayMs attempts * 1000000
      let db ← db.atomicStageStampInTx now notices id reason.impliedStage (.ofReason reason detail)
      return (.scheduled attempts retryAt, db.recordAttempts id attempts firstAttempt (some retryAt))

/-- transport の claim のうち、Teams の本文が渡っていないもの。 -/
def openClaim (x : SeenRow) : Bool :=
  x.source = some .transportClaimed && x.teamsBodyFallbackAt.isNone

/-- `park_for_busy_recipient`。止めるのと同時に、宛先の claim を放す。 -/
def parkForBusyRecipient (db : PromptDb) (now : Time) (id : Nat) (detail : Option String)
    (recheckAt : Time) : Except StoreError PromptDb :=
  match (db.find? id).filter fun r => r.processedAt.isNone && r.ackedAt.isNone with
  | none => .ok db
  | some r => do
    let db ← db.atomicStageStampInTx now [] id PendingReason.awaitingBusyRecipient.impliedStage
      (.ofReason .awaitingBusyRecipient detail)
    let db := db.updateId id (fun _ => true) fun r => { r with nextAttemptAt := some recheckAt }
    return db.deleteSeen fun x => x.promptId = id && openClaim x && x.recipient = r.target

/-- `NOT_ALREADY_CONSUMED_SQL`。 -/
def notAlreadyConsumed (db : PromptDb) (r : PromptRow) : Bool :=
  r.target = allWorkers || (r.ackedAt.isNone && (db.receipt? r.id r.target).isNone)

/-- 一行の digest として見せる伝言。 -/
def isDigest (r : PromptRow) : Bool :=
  r.kind = some .workerPeerCopy || r.kind = some .supervisorDigest
    || (r.origin = some .daemon && r.kind = some .noticeDigest)

/-- 名指しで読む復旧の card。 -/
def isRecoveryReference (r : PromptRow) : Bool :=
  r.origin = some .daemon && r.source = "delivery-watchdog" && r.kind = some .recoveryReference

/-- `PROMPT_QUEUE_STALE_TTL_SECS`。 -/
def promptQueueStaleTtlSecs : Int := 24 * 60 * 60

/-- `peek_for_targets_on_conn` の選べる行。session のある呼び出しは、session の無い行も拾う。 -/
def peekable (db : PromptDb) (now : Time) (targets : List String) (session : Option String)
    (r : PromptRow) : Bool :=
  r.processedAt.isNone && r.nextAttemptAt.all (· ≤ now)
    && now - seconds promptQueueStaleTtlSecs ≤ r.createdAt
    && db.notAlreadyConsumed r && !isDigest r && !isRecoveryReference r
    && targets.contains r.target
    && (session.isNone || r.factorySession.isNone || r.factorySession = session)

/-- 押印を順に重ねる。どれかが落ちれば transaction の全体が落ちる。 -/
def stampEach (db : PromptDb) (now : Time) (ids : List Nat) (proposed : DeliveryStage)
    (opts : AtomicStampOpts) : Except StoreError PromptDb :=
  ids.foldlM (fun db id => db.atomicStageStampInTx now [] id proposed opts) db

/--
`select_for_targets`。

選べる行のうちどれをどの順に何行取るかは、優先順位と二つの列の割り当てが決める。ここでは取った番号を
引数とし、選べない番号は読み飛ばす。
-/
def selectForTargets (db : PromptDb) (now : Time) (targets : List String) (session : Option String)
    (picked : List Nat) : Except StoreError (List Nat × PromptDb) := do
  ensure (targets ≠ [])
    (.other "peek_for_targets requires at least one target; session-wide peeks are not supported")
  let ids := picked.filter fun id => (db.find? id).any (db.peekable now targets session)
  let db' ← db.stampEach now ids .selected .clearReason
  return (ids, db')

/-- `stamp_broadcast_policy`。同じ鍵の古い放送を取り下げる。 -/
def stampBroadcastPolicy (db : PromptDb) (now : Time) (id : Nat) (supersedeKey : Option String)
    (sticky : Bool) : Except StoreError (List Nat × PromptDb) := do
  let key := (supersedeKey.map fun k => String.ofList (trim k.toList)).filter (· ≠ "")
  let current ← okOr ((db.find? id).filter fun r => r.target = allWorkers)
    (.other s!"prompt_queue id={id} is not an all_workers broadcast")
  let db := db.updateId id (fun _ => true) fun r => { r with supersedeKey := key, sticky }
  match key with
  | none => return ([], db)
  | some k =>
    let older := (db.rows.filter fun r => r.target = allWorkers && r.supersedeKey = some k
      && r.id < id && r.processedAt.isNone
      && r.factorySession.getD "" = current.factorySession.getD "").map PromptRow.id
    let db' ← db.stampEach now older .suppressed
      (.ofReason .supersededStale (some s!"superseded by broadcast {id} (supersede_key={k})"))
    return (older, db')

/-- まだ渡していない、同じ worker の報告。 -/
def supersedable (session agentId : String) (r : PromptRow) : Bool :=
  r.factorySession = some session && r.origin = some (.registeredAgent agentId)
    && r.processedAt.isNone && r.transportDeliveredAt.isNone
    && (r.kind.isNone || r.kind = some .supervisorDigest)
    && stageDeliverable r.highestStage && !stageIs r.highestStage .confirmed

/--
`enqueue_worker_action_with_outcome`。

古い報告の本文を新しい伝言に畳み、古い方を取り下げる。畳んだ本文は `p.prompt` に入っているものとし、
本文の形で選んだ番号を `folded` として受け取る。
-/
def enqueueWorkerAction (db : PromptDb) (now : Time) (p : NewPrompt) (session agentId : String)
    (folded : List Nat) : Except StoreError (Nat × PromptDb) := do
  let id := db.nextId
  let superseded := folded.filter fun old => (db.find? old).any (supersedable session agentId)
  let db ← (db.insert p).stampEach now superseded .suppressed
    { reason := some .supersededStale
      detail := some s!"newer worker action message {id} superseded this pending wake and carries its body"
      setProcessed := true }
  return (id, db)

/-- `enqueue_worker_stall_nudge`。古い催促を取り下げてから足す。 -/
def enqueueWorkerStallNudge (db : PromptDb) (now : Time)
    (target prompt session taskId dedupeKey : String) : Except StoreError (Nat × PromptDb) :=
  match db.rows.find? fun r => r.dedupeKey = some dedupeKey with
  | some r => .ok (r.id, db)
  | none => do
    let summary := s!"Worker stall nudge: {taskId}"
    let older := (db.rows.filter fun r => r.source = "director" && r.origin = some .daemon
      && r.target = target && r.factorySession = some session && r.summary = some summary
      && r.kind = some .workerStallNudge && r.dedupeKey.any (likeStart "worker-attention:")
      && r.priority = .normal && !r.urgent && r.processedAt.isNone
      && r.transportDeliveredAt.isNone && r.ackedAt.isNone
      && !(db.seen.rows.any fun x => x.promptId = r.id)).map PromptRow.id
    let db ← db.stampEach now older .suppressed
      { reason := some .supersededStale
        detail := some "newer worker stall nudge superseded this undelivered episode"
        setProcessed := true }
    let p : NewPrompt :=
      { source := "director", target, prompt, createdAt := now, factorySession := some session
        summary := some summary, dedupeKey := some dedupeKey, origin := some .daemon
        kind := some .workerStallNudge }
    return (db.nextId, db.insert p)

/-- `persist_operator_receipt`。宛先の端末の控えだけが伝言を閉じる。 -/
def persistOperatorReceipt (db : PromptDb) (now : Time) (id : Nat) (session deviceId : String)
    (notice : Bool) : Except StoreError (Bool × PromptDb) := do
  ensure (deviceId ≠ "" ∧ deviceId.utf8ByteSize ≤ 128 ∧ deviceId ≠ "*")
    (.other "application receipt needs one authenticated device")
  let r ← okOr ((db.find? id).filter fun r => r.factorySession = some session && r.toOperator
      && ((r.source ≠ "supervisor" && r.origin = some .daemon) = notice))
    (.other "application receipt does not match this session's operator row class")
  if r.processedAt.isNone ∧ r.recipientDeviceId.all (· = deviceId) then
    let db ← db.atomicStageStampInTx now [] id .delivered { setProcessed := true }
    return (true, db)
  else
    return (false, db)

end PromptDb

end Cassy
