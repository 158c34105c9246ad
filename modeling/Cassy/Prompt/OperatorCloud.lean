import Mathlib
import Cassy.Infra.Result
import Cassy.Infra.Table
import Cassy.Store.Types

/-!
# operator の伝言を cloud へ渡す

`operator_cloud_outbox` の一行は、ある operator の伝言を cloud へ渡す仕事である。送り手は行を期限付きで借り、鍵で封をし、
送り、結果を書く。封をするのも送るのも表の外で起こる。書き込みはどれも一つの文か transaction である。

* `claim_operator_cloud` — 期限の来た行を借りる
* `seal_operator_cloud` — 封の無い行に、封をした中身を書く
* `settle_operator_cloud` — 結果を書いて返す。受領、後でもう一度、封のやり直し、取り止めの四つがある

封と受領の列は、一緒に空か一緒に埋まっている（表の `CHECK`）。その三通りが `CloudProgress` である。
-/

namespace Cassy

open Infra

/-- `DateTime::timestamp_millis`。 -/
def timestampMillis (t : Time) : Int := t / 1000000

/-- `OperatorSealedBytes`。 -/
structure OperatorSealedBytes where
  feedGeneration : String
  keyEpoch : String
  ciphertext : String
  digest : String
  deriving DecidableEq, Repr

/-- cloud の受領。 -/
structure CloudReceipt where
  kind : String
  sequence : String
  receivedAt : Time
  deriving DecidableEq, Repr

/-- 封と受領の列。 -/
inductive CloudProgress where
  | unsealed
  | sealed (bytes : OperatorSealedBytes)
  | received (bytes : OperatorSealedBytes) (receipt : CloudReceipt)
  deriving DecidableEq, Repr

/-- 封をした中身。 -/
def CloudProgress.bytes? : CloudProgress → Option OperatorSealedBytes
  | unsealed => none
  | sealed bytes => some bytes
  | received bytes _ => some bytes

/-- `receipt_kind IS NOT NULL`。 -/
def CloudProgress.hasReceipt : CloudProgress → Bool
  | received .. => true
  | _ => false

/-- 封のある行に受領を書く。 -/
def CloudProgress.receive (receipt : CloudReceipt) : CloudProgress → CloudProgress
  | sealed bytes => .received bytes receipt
  | p => p

/-- `lease_token` と `lease_until_ms`。 -/
structure CloudLease where
  token : String
  untilMs : Int
  deriving DecidableEq, Repr

/-- `operator_cloud_outbox` の行。 -/
structure CloudRow where
  eventId : String
  accountId : String
  machineId : String
  hubId : String
  projectId : String
  sessionId : String
  createdAt : Time
  progress : CloudProgress := .unsealed
  sealCount : Nat := 0
  attempts : Nat := 0
  retryAtMs : Int := 0
  lease : Option CloudLease := none
  parkedReason : Option String := none
  deriving DecidableEq, Repr

/-- `operator_delivery_outbox` の行のうち、借りるときに読む列。 -/
structure OperatorTurnSnapshot where
  eventId : String
  payloadSnapshot : String
  factorySession : Option String
  deriving DecidableEq, Repr

/-- 二つの表。 -/
structure CloudDb where
  outbox : Table CloudRow.eventId
  turns : Table OperatorTurnSnapshot.eventId

/-- `OperatorCloudClaim`。 -/
structure OperatorCloudClaim where
  eventId : String
  accountId : String
  hubId : String
  projectId : String
  sessionId : String
  payloadSnapshot : String
  factorySession : Option String
  sealed : Option OperatorSealedBytes
  leaseToken : String
  attempts : Nat
  deriving DecidableEq, Repr

/-- `OperatorCloudSettlement`。 -/
inductive OperatorCloudSettlement where
  | receipt (kind sequence : String)
  | retry
  | reseal
  | park (reason : String)
  deriving DecidableEq, Repr

namespace CloudDb

/-- 番号の行。 -/
abbrev find? (db : CloudDb) (eventId : String) : Option CloudRow := db.outbox.find? eventId

/-- `UPDATE operator_cloud_outbox SET f WHERE p`。 -/
def update (db : CloudDb) (p : CloudRow → Bool) (f : CloudRow → CloudRow)
    (hf : ∀ r, (f r).eventId = r.eventId := by exact fun _ => rfl) : CloudDb :=
  { db with outbox := db.outbox.update p f hf }

/-! ## 借りる -/

/-- 借りてよい行。 -/
def due (db : CloudDb) (machineId : String) (nowMs : Int) (r : CloudRow) : Bool :=
  r.machineId = machineId && !r.progress.hasReceipt && r.parkedReason.isNone
    && r.retryAtMs ≤ nowMs && r.lease.all (·.untilMs ≤ nowMs) && (db.turns.find? r.eventId).isSome

/-- `ORDER BY created_at, event_id`。 -/
def cloudOrder (a b : CloudRow) : Bool :=
  a.createdAt < b.createdAt || (a.createdAt = b.createdAt && a.eventId ≤ b.eventId)

/-- 借りた行の写し。 -/
def claimOf (db : CloudDb) (token : String) (r : CloudRow) : OperatorCloudClaim where
  eventId := r.eventId
  accountId := r.accountId
  hubId := r.hubId
  projectId := r.projectId
  sessionId := r.sessionId
  payloadSnapshot := ((db.turns.find? r.eventId).map (·.payloadSnapshot)).getD ""
  factorySession := (db.turns.find? r.eventId).bind (·.factorySession)
  sealed := r.progress.bytes?
  leaseToken := token
  attempts := (r.attempts + 1) % 2 ^ 32

/-- 借りる行。 -/
def dueRows (db : CloudDb) (machineId : String) (nowMs : Int) (maxEvents : Nat) : List CloudRow :=
  ((db.outbox.rows.filter (db.due machineId nowMs)).insertionSort fun a b => cloudOrder a b).take
    maxEvents

/-- 借りる一行の文。 -/
def lend (untilMs : Int) (db : CloudDb) (c : OperatorCloudClaim) : CloudDb :=
  db.update (fun r => r.eventId = c.eventId) fun r =>
    { r with lease := some ⟨c.leaseToken, untilMs⟩, attempts := r.attempts + 1 }

/-- `claim_operator_cloud`。`token i` は `i` 番目の行に作る印である。 -/
def claimOperatorCloud (db : CloudDb) (machineId : String) (now : Time) (maxEvents : Nat)
    (leaseSeconds : Int) (token : Nat → String) :
    Except StoreError (List OperatorCloudClaim × CloudDb) := do
  ensure (1 ≤ maxEvents ∧ maxEvents ≤ 100 ∧ 1 ≤ leaseSeconds ∧ leaseSeconds ≤ 120)
    (.other "operator cloud claim exceeds the bounded batch/lease policy")
  let rows := db.dueRows machineId (timestampMillis now) maxEvents
  ensure (∀ r ∈ rows, r.attempts < 2 ^ 32) (.database "attempts out of range at index 11")
  let claims := rows.mapIdx fun i r => db.claimOf (token i) r
  return (claims, claims.foldl (lend (timestampMillis now + leaseSeconds * 1000)) db)

/-! ## 借りている間の書き込み -/

/-- `event_id = ? AND lease_token = ? AND lease_until_ms > ?`。 -/
def heldBy (c : OperatorCloudClaim) (now : Time) (r : CloudRow) : Bool :=
  r.eventId = c.eventId
    && r.lease.any fun l => l.token = c.leaseToken && timestampMillis now < l.untilMs

/-- `UPDATE … WHERE p` と、変えた行があったか。 -/
def updateChanges (db : CloudDb) (p : CloudRow → Bool) (f : CloudRow → CloudRow)
    (hf : ∀ r, (f r).eventId = r.eventId := by exact fun _ => rfl) : Bool × CloudDb :=
  (db.outbox.rows.any p, db.update p f hf)

/-- `seal_operator_cloud`。 -/
def sealOperatorCloud (db : CloudDb) (c : OperatorCloudClaim) (bytes : OperatorSealedBytes)
    (now : Time) : Bool × CloudDb :=
  db.updateChanges (fun r => heldBy c now r && r.progress = .unsealed) fun r =>
    { r with progress := .sealed bytes, sealCount := r.sealCount + 1 }

/-- 次に試すまでの秒数。`min(2^(attempts - 1), 60)`。 -/
def retrySeconds (attempts : Nat) : Int := (min (2 ^ min (attempts - 1) 6) 60 : Nat)

/-- 番号の byte の排他的論理和から作る、決まった揺らぎ。 -/
def retryJitter (eventId : String) : Int :=
  ((eventId.toUTF8.toList.foldl (fun a b => a ^^^ b) 0).toNat % 1000 : Nat)

/-- `settle_operator_cloud`。 -/
def settleOperatorCloud (db : CloudDb) (c : OperatorCloudClaim) (settlement : OperatorCloudSettlement)
    (now : Time) : Except StoreError (Bool × CloudDb) :=
  match settlement with
  | .receipt kind sequence => do
    let p (r : CloudRow) := heldBy c now r && r.progress.bytes?.isSome && !r.progress.hasReceipt
    ensure (kind ∈ ["stored", "duplicate", "expired"] ∨ db.outbox.rows.any p = false)
      (.database "CHECK constraint failed: receipt_kind IN ('stored', 'duplicate', 'expired')")
    return db.updateChanges p fun r =>
      { r with progress := CloudProgress.receive ⟨kind, sequence, now⟩ r.progress, lease := none }
  | .retry =>
    .ok <| db.updateChanges (heldBy c now) fun r =>
      { r with
        retryAtMs := timestampMillis now + retrySeconds c.attempts * 1000 + retryJitter c.eventId
        lease := none }
  | .reseal =>
    .ok <| db.updateChanges (fun r => heldBy c now r && !r.progress.hasReceipt) fun r =>
      { r with progress := .unsealed, retryAtMs := 0, lease := none }
  | .park reason =>
    .ok <| db.updateChanges (fun r => heldBy c now r && !r.progress.hasReceipt) fun r =>
      { r with parkedReason := some reason, lease := none }

end CloudDb

/-! ## 一歩 -/

/-- 送り手の呼び出しと、伝言の記録。 -/
inductive CloudOp where
  | record (row : CloudRow) (turn : OperatorTurnSnapshot)
  | claim (machineId : String) (now : Time) (maxEvents : Nat) (leaseSeconds : Int)
      (token : Nat → String)
  | sealEvent (c : OperatorCloudClaim) (bytes : OperatorSealedBytes) (now : Time)
  | settle (c : OperatorCloudClaim) (settlement : OperatorCloudSettlement) (now : Time)

/-- 呼び出しの答え。 -/
inductive CloudOutcome where
  | done
  | claimed (claims : List OperatorCloudClaim)
  | changed (b : Bool)
  | failed (e : StoreError)

/-- 一歩。 -/
def cloudStep (db : CloudDb) : CloudOp → CloudOutcome × CloudDb
  | .record row turn =>
    (.done, ⟨db.outbox.insertOrIgnore
      { row with progress := .unsealed, sealCount := 0, attempts := 0, retryAtMs := 0, lease := none
                 parkedReason := none }, db.turns.insertOrIgnore turn⟩)
  | .claim machineId now maxEvents leaseSeconds token =>
    match db.claimOperatorCloud machineId now maxEvents leaseSeconds token with
    | .ok (claims, db') => (.claimed claims, db')
    | .error e => (.failed e, db)
  | .sealEvent c bytes now =>
    let (b, db') := db.sealOperatorCloud c bytes now
    (.changed b, db')
  | .settle c settlement now =>
    match db.settleOperatorCloud c settlement now with
    | .ok (b, db') => (.changed b, db')
    | .error e => (.failed e, db)

end Cassy
