import Mathlib.Data.String.Basic
import Cassy.Prompt.OperatorCloud

/-!
# operator の伝言を端末の外へ渡す

`operator_delivery.rs` の `operator_delivery_outbox`。一行が、operator の伝言の変わらない控えである。渡し手は期限の来た
控えを古い順に借り、件数と byte の上限の中で渡す。

* `claim_operator_delivery` — 期限の来た控えを借りる
* `retain_operator_delivery` — 受領を書いて控えを終える
* `retry_operator_delivery` — 後でもう一度渡す

どれも一つの transaction で、誤りのときは何も書かない。控えの並びは `created_at` の文字列の順である。
-/

namespace Cassy

open Infra

/-- `OperatorDeliveryEvent`。 -/
structure OperatorDeliveryEvent where
  eventId : String
  promptId : Int
  factorySession : Option String := none
  audienceState : String := "unenrolled"
  payloadSnapshot : String
  createdAt : String
  deriving DecidableEq, Repr

/-- `OperatorRelayReceipt`。 -/
structure OperatorRelayReceipt where
  eventId : String
  receiptId : String
  deriving DecidableEq, Repr

/-- `operator_delivery_outbox` の行。受領の二列は一緒に空か一緒に埋まっている。 -/
structure OperatorDeliveryRow where
  event : OperatorDeliveryEvent
  attempts : Nat := 0
  retryAtMs : Int := 0
  lease : Option CloudLease := none
  retained : Option (OperatorRelayReceipt × Time) := none
  deriving DecidableEq, Repr

/-- 主キー。 -/
def OperatorDeliveryRow.eventId (r : OperatorDeliveryRow) : String := r.event.eventId

/-- `length(CAST(payload_snapshot AS BLOB))`。 -/
def OperatorDeliveryRow.payloadLength (r : OperatorDeliveryRow) : Nat :=
  r.event.payloadSnapshot.utf8ByteSize

/-- `OperatorDeliveryClaim`。 -/
structure OperatorDeliveryClaim where
  event : OperatorDeliveryEvent
  leaseToken : String
  leaseUntil : Time
  deriving DecidableEq, Repr

/-- `OperatorDrainLimits`。 -/
structure OperatorDrainLimits where
  maxEvents : Nat := 100
  maxPayloadBytes : Nat := 1024 * 1024
  leaseSeconds : Int := 30
  deriving DecidableEq, Repr

/-- `validate` の通る上限。 -/
def OperatorDrainLimits.Valid (limits : OperatorDrainLimits) : Prop :=
  1 ≤ limits.maxEvents ∧ limits.maxEvents ≤ 100
    ∧ 1 ≤ limits.maxPayloadBytes ∧ limits.maxPayloadBytes ≤ 1024 * 1024
    ∧ 1 ≤ limits.leaseSeconds ∧ limits.leaseSeconds ≤ 120

instance (limits : OperatorDrainLimits) : Decidable limits.Valid := by
  unfold OperatorDrainLimits.Valid
  infer_instance

/-- `DateTime::<Utc>::MAX_UTC`。 -/
def maxUtc : Time := seconds 8210266876799 + 999999999

/-- `checked_add_signed(Duration::seconds(n))`。 -/
def checkedAddSeconds (now : Time) (n : Int) : Option Time :=
  if now + seconds n ≤ maxUtc then some (now + seconds n) else none

/-- 控えの表。 -/
abbrev OperatorOutbox := Table OperatorDeliveryRow.eventId

namespace OperatorOutbox

variable (outbox : OperatorOutbox)

/-- 期限の来た、借りられていない控え。 -/
def due (nowMs : Int) (r : OperatorDeliveryRow) : Bool :=
  r.retained.isNone && r.retryAtMs ≤ nowMs && r.lease.all (·.untilMs ≤ nowMs)

/-- `ORDER BY created_at, event_id`。 -/
def deliveryOrder (a b : OperatorDeliveryRow) : Bool :=
  a.event.createdAt < b.event.createdAt
    || (a.event.createdAt = b.event.createdAt && a.eventId ≤ b.eventId)

/-- 期限の来た控えを古い順に並べたもの。 -/
def dueRows (nowMs : Int) : List OperatorDeliveryRow :=
  (outbox.rows.filter (due nowMs)).insertionSort fun a b => deliveryOrder a b

/-- 借りる一行の文。 -/
def lend (token : String) (untilMs : Int) (eventId : String) : OperatorOutbox :=
  outbox.update (fun r => r.eventId = eventId) fun r =>
    { r with lease := some ⟨token, untilMs⟩, attempts := r.attempts + 1 }

/-- 控えを順に借りる。`bytes` は借りた分の長さ、`token i` は `i` 番目に作る印である。 -/
def claimRows (limits : OperatorDrainLimits) (leaseUntil : Time) (token : Nat → String) :
    List (String × Nat) → Nat → List OperatorDeliveryClaim → OperatorOutbox →
      Except StoreError (List OperatorDeliveryClaim × OperatorOutbox)
  | [], _, claims, outbox => .ok (claims, outbox)
  | (eventId, length) :: candidates, bytes, claims, outbox =>
    if limits.maxPayloadBytes < length ∧ claims = [] then
      .error (.other "operator event exceeds the drain byte budget; event remains pending")
    else if limits.maxPayloadBytes - bytes < length then .ok (claims, outbox)
    else match outbox.find? eventId with
      | none => .error (.database "Query returned no rows")
      | some r =>
        claimRows limits leaseUntil token candidates (bytes + length)
          (claims ++
            [{ event := r.event, leaseToken := token claims.length, leaseUntil := leaseUntil }])
          (lend outbox (token claims.length) (timestampMillis leaseUntil) eventId)

/-- `claim_operator_delivery`。 -/
def claimOperatorDelivery (now : Time) (limits : OperatorDrainLimits) (token : Nat → String) :
    Except StoreError (List OperatorDeliveryClaim × OperatorOutbox) := do
  ensure limits.Valid (.other "operator drain limits exceed the bounded batch/lease policy")
  let leaseUntil ← okOr (checkedAddSeconds now limits.leaseSeconds)
    (.other "operator lease exceeds timestamp range")
  let candidates := ((dueRows outbox (timestampMillis now)).take limits.maxEvents).map
    fun r => (r.eventId, r.payloadLength)
  claimRows limits leaseUntil token candidates 0 [] outbox

/-- 印の合う、期限の切れていない借り。 -/
def heldBy (claim : OperatorDeliveryClaim) (now : Time) (r : OperatorDeliveryRow) : Bool :=
  r.eventId = claim.event.eventId && r.retained.isNone
    && r.lease.any fun l => l.token = claim.leaseToken && timestampMillis now < l.untilMs

/-- `retain_operator_delivery`。控えを終えたかを返す。 -/
def retainOperatorDelivery (claim : OperatorDeliveryClaim) (receipt : OperatorRelayReceipt)
    (now : Time) : Except StoreError (Bool × OperatorOutbox) := do
  ensure (receipt.eventId = claim.event.eventId ∧ nonBlank receipt.receiptId = true)
    (.other "operator storage receipt does not match the claimed event")
  let p := fun r => heldBy claim now r
    && decide (r.event.payloadSnapshot = claim.event.payloadSnapshot)
  .ok (outbox.rows.any p, outbox.update p fun r =>
    { r with retained := some (receipt, now), lease := none })

/-- `retry_operator_delivery`。待つ秒数は借りた回数で延びる。 -/
def retryOperatorDelivery (claim : OperatorDeliveryClaim) (now : Time) :
    Except StoreError (Bool × OperatorOutbox) :=
  match outbox.rows.find? (heldBy claim now) with
  | none => .ok (false, outbox)
  | some r => do
    let retryAt ← okOr (checkedAddSeconds now (min (2 ^ min (r.attempts - 1) 6) 60 : Nat))
      (.other "operator retry exceeds timestamp range")
    .ok (true, outbox.update
      (fun r => r.eventId = claim.event.eventId && r.lease.any fun l => l.token = claim.leaseToken)
      fun r => { r with retryAtMs := timestampMillis retryAt, lease := none })

end OperatorOutbox

end Cassy
