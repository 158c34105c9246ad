import Cassy.Prompt.Machine

/-!
# 送達の報告

`message_delivery_report`。一つの伝言について、段階、渡した時刻、確認、待つ理由をまとめる。

列どうしが食い違う行では報告を作らず、誤りを返す。渡したのに `transport_delivered_at` が無い行、渡していないはず
なのに有る行である。shutdown の取り下げだけは、渡した後の伝言を `suppressed` にしてよい。

`wake_attempt` などの起こし方の記録と、滞りの知らせの番号は置かない。
-/

namespace Cassy

open Infra

/-- `MessageStatus`。 -/
inductive MessageStatus where
  | pending | delivered | confirmed | undelivered
  deriving DecidableEq, Repr

/-- `ConfirmationSource`。 -/
inductive ConfirmationSource where
  | unconfirmed | explicitAck | inferredFromReply | hookSurfaced | unknown
  deriving DecidableEq, Repr

/-- `ConfirmationSource::from_column`。 -/
def ConfirmationSource.fromColumn (raw : Option AckedVia) (hasAck : Bool) : ConfirmationSource :=
  if !hasAck then unconfirmed
  else match raw with
    | some .explicitAck => explicitAck
    | some .inferredFromReply => inferredFromReply
    | some .hookSurfaced => hookSurfaced
    | _ => unknown

/-- `DeliveryRetryState`。 -/
structure DeliveryRetryState where
  deliveryAttempts : Nat
  nextAttemptAt : Option Time
  deriving DecidableEq, Repr

/-- `MessageDeliveryReport`。 -/
structure MessageDeliveryReport where
  id : Nat
  prompt : String
  legacyStatus : MessageStatus
  stage : DeliveryStage
  source : String
  target : String
  factorySession : Option String
  priority : NotificationPriority
  urgent : Bool
  retry : DeliveryRetryState
  enqueuedAt : Time
  selectedAt : Option Time
  deliveredAt : Option Time
  recipientTransportAt : Option Time
  recipientDeviceId : Option String
  recipientTransportDeviceId : Option String
  confirmedAt : Option Time
  assumedSeenAt : Option Time
  confirmationSource : ConfirmationSource
  pendingReason : Option PendingReason
  pendingDetail : Option String
  holdingDetail : Option String
  broadcastAttempted : Option Nat
  broadcastSucceeded : Option Nat
  broadcastFailed : Option Nat
  recipientReceipt : Option SurfacingSource
  recipientPollSettled : Option String
  wakeObservedAt : Option Time
  deriving DecidableEq, Repr

/-- 食い違った行の誤り。 -/
def invariantViolated (id : Nat) (detail : String) : StoreError :=
  .parse s!"prompt_queue id={id}: invariant violated: {detail}"

namespace PromptDb

/-- 旧い形の状態。 -/
def legacyStatus (r : PromptRow) : MessageStatus :=
  if stageIs r.highestStage .abandoned then .undelivered
  else if r.ackedAt.isSome then .confirmed
  else if r.processedAt.isSome then .delivered
  else .pending

/-- 報告に書く待つ理由。 -/
def reportedReason (stage : DeliveryStage) (r : PromptRow) : Option PendingReason × Option String :=
  let stored := r.lastPendingReason
  match stage with
  | .delivered | .assumedSeen | .confirmed =>
    -- 用済みになった中継は、確認を待っているとは言わず、用済みの理由を報告する
    if r.ackedAt.isSome ∧ stored = some .supersededStale then (stored, r.lastPendingDetail)
    else match stage with
      | .confirmed => (none, none)
      | .assumedSeen => (some .awaitingAck, some
        "later recipient activity observed; still awaiting message-specific confirmation")
      | _ => (some .awaitingAck, some "transport delivered; waiting for message_ack")
  | .partiallyDelivered => (some (stored.getD .partialBroadcast), r.lastPendingDetail)
  | .dropped => (some (stored.getD .droppedDeadSource), r.lastPendingDetail)
  | .suppressed => (some (stored.getD .suppressedIdle), r.lastPendingDetail)
  | .abandoned => (some (stored.getD .abandonedUnknownTarget), r.lastPendingDetail)
  | .gated | .selected | .enqueued =>
    match stored with
    | some reason => (some reason, r.lastPendingDetail)
    | none => (some .awaitingDelivery, some "awaiting authoritative delivery-path observation")

/-- 列どうしの食い違いを調べる。 -/
def checkStage (id : Nat) (stage : DeliveryStage) (r : PromptRow) : Except StoreError Unit := do
  ensure (¬ ((stage = .delivered ∨ stage = .assumedSeen) ∧ r.transportDeliveredAt.isNone))
    (invariantViolated id "stage=delivered without transport_delivered_at")
  let shutdownCancelled := stage = .suppressed ∧ r.lastPendingReason = some .shutdownCancelled
  ensure (¬ (stage.isTerminalNonDelivery ∧ r.transportDeliveredAt.isSome ∧ ¬ shutdownCancelled))
    (invariantViolated id s!"stage={stage.asStr} with transport_delivered_at")
  ensure (¬ (stage = .partiallyDelivered ∧ r.transportDeliveredAt.isSome))
    (invariantViolated id "partially_delivered with transport_delivered_at")

/-- `delivery_retry_on_conn`。回数は `u32` で読む。 -/
def deliveryRetry (r : PromptRow) : Except StoreError DeliveryRetryState := do
  ensure (r.deliveryAttempts < 2 ^ 32)
    (.database s!"Integer {r.deliveryAttempts} out of range at index 0")
  let waiting := r.processedAt.isNone && r.transportDeliveredAt.isNone && r.ackedAt.isNone
    && stageDeliverable r.highestStage && !stageIs r.highestStage .confirmed
  return { deliveryAttempts := r.deliveryAttempts
           nextAttemptAt := if waiting then r.nextAttemptAt else none }

/-- `message_delivery_report`。 -/
def messageDeliveryReport (db : PromptDb) (id : Nat) :
    Except StoreError (Option MessageDeliveryReport) :=
  match db.find? id with
  | none => .ok none
  | some r => do
    let stage ← db.readHighestStage id
    checkStage id stage r
    let (pendingReason, pendingDetail) := reportedReason stage r
    let retry ← deliveryRetry r
    let transport := db.transport.find? (id, r.target)
    let receipt := db.receipt? id r.target
    return some
      { id, prompt := r.prompt, legacyStatus := legacyStatus r
        stage := if r.ackedAt.isSome then .confirmed else stage
        source := r.source, target := r.target, factorySession := r.factorySession
        priority := r.priority, urgent := r.urgent, retry, enqueuedAt := r.createdAt
        selectedAt := r.selectedAt, deliveredAt := r.transportDeliveredAt
        recipientTransportAt := transport.map RecipientTransport.deliveredAt
        recipientDeviceId := r.recipientDeviceId
        recipientTransportDeviceId := transport.bind RecipientTransport.deviceId
        confirmedAt := r.ackedAt, assumedSeenAt := r.assumedSeenAt
        confirmationSource := .fromColumn r.ackedVia r.ackedAt.isSome
        pendingReason, pendingDetail, holdingDetail := r.holdingDetail
        broadcastAttempted := r.broadcastAttempted, broadcastSucceeded := r.broadcastSucceeded
        broadcastFailed := r.broadcastFailed
        recipientReceipt := receipt.bind SeenRow.source
        recipientPollSettled := receipt.bind SeenRow.pollSettled
        wakeObservedAt := (receipt.filter fun x => x.source = some .hookSurfaced).map
          SeenRow.seenAt }

end PromptDb

end Cassy
