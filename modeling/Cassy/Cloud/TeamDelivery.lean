import Cassy.Infra.SortedMap
import Cassy.Cloud.SyncQueue

/-!
# team への配達の証拠

`cloud/sync_queue/team_delivery.rs`。team に同じ中身が届いた個人の行は、送らずに捨ててよい。その証拠は、
送った値の digest を含む受領証 `TeamDeliveryAck` で、個人の行の番号ごとに `sync_metadata` に残る。

受領証を作るのは `acknowledge_team_write` だけで、cloud が行ごとに inserted か updated と答えたときに呼ばれる。
行を捨てる側は、行の今の中身の digest を受領証のものと比べる。

digest の型は問わない。ソースでは JSON の SHA-256 の十六進表記である。
-/

namespace Cassy

open Infra

/-- `TeamDeliveryAck`。 -/
structure TeamDeliveryAck (δ : Type) where
  version : Nat
  queueId : Nat
  createdAt : Time
  entityType : EntityType
  entityId : String
  operation : SyncOperation
  teamId : String
  projectId : String
  payloadSha256 : δ
  personalProjectId : Option String
  deriving DecidableEq, Repr

/-- 列と、`sync_metadata` にある受領証。 -/
structure Outbox (δ : Type) where
  queue : SyncQueue
  acks : List (Nat × TeamDeliveryAck δ) := []

/-- `TeamOwnedCleanupRow`。 -/
structure TeamOwnedCleanupRow where
  id : Nat
  entityType : EntityType
  entityId : String
  eligible : Bool
  reason : String
  deriving DecidableEq, Repr

/-- digest を取る関数を加えた環境。 -/
structure DeliveryEnv (δ : Type) extends QueueEnv where
  digest : Json → δ

variable {δ : Type} [DecidableEq δ]

/-- `payload_digest`。 -/
def DeliveryEnv.payloadDigest (env : DeliveryEnv δ) (payload : Option String) : Option δ :=
  (env.payloadValue payload).map env.digest

namespace Outbox

variable (env : DeliveryEnv δ) (ob : Outbox δ)

/-- `personal_rows`。 -/
def personalRows : List QueuedSync :=
  ((ob.queue.rows.filter fun r => r.teamId = "").mergeSort fun r r' => r.id ≤ r'.id).map
    QueueRow.mapRow

/-- `receipt_matches`。 -/
def receiptMatches (item : QueuedSync) (teamId projectId : String) : Bool :=
  match mapGet item.id ob.acks with
  | none => false
  | some ack =>
    (ack.version = 1 || ack.version = 2) && teamId ≠ "" && projectId ≠ ""
      && ack.queueId = item.id && ack.createdAt = item.createdAt
      && ack.entityType = item.entityType && ack.entityId = item.entityId
      && ack.operation = item.operation && item.operation = .upsert
      && ack.teamId = teamId && ack.projectId = projectId
      && (if ack.version = 1 then item.projectId.isNone
          else ack.personalProjectId = item.projectId && item.projectId.all (· = projectId))
      && env.payloadDigest item.payload = some ack.payloadSha256

/-- `remove_with_receipt`。 -/
def removeWithReceipt (id : Nat) : Outbox δ where
  queue := ob.queue.delete fun r => r.id = id ∧ r.teamId = ""
  acks := mapRemove id ob.acks

/-- 送った値が、待っていた team の行と同じものであること。 -/
def equivalentDelivery (item : QueuedSync) (transmitted : Json) (teamId projectId : String) : Bool :=
  item.operation = .upsert && item.teamId = some teamId && teamId ≠ "" && projectId ≠ ""
    && item.projectId.all (· = projectId)
    && (match item.entityType with
      | .entry | .task | .rule | .skill | .taskDependency => true
      | _ => false)
    && transmitted.getStr "origin_project" = some projectId
    && transmitted.getStr "scope" ≠ some "global"
    && transmitted.getStr "share" ≠ some "private"
    && env.payloadDigest item.payload = some (env.digest transmitted)

/-- 個人の行の写しが、配達された team の行と同じ変更であること。 -/
def snapshotCovered (item personal : QueuedSync) (transmitted : Json) (projectId : String) : Bool :=
  personal.entityType = item.entityType && personal.entityId = item.entityId
    && personal.operation = item.operation && personal.projectId.all (· = projectId)
    && env.payloadDigest personal.payload = some (env.digest transmitted)

/-- 個人の行が、写しを取ったときのまま残っていること。 -/
def personalUnchanged (personal : QueuedSync) : Bool :=
  ob.queue.rows.any fun r => r.id = personal.id && r.teamId = ""
    && r.entityType = personal.entityType && r.entityId = personal.entityId
    && r.operation = personal.operation && r.payload = personal.payload
    && r.createdAt = personal.createdAt && r.projectId = personal.projectId

/-- 一枚の受領証。 -/
def deliveryAck (personal : QueuedSync) (transmitted : Json) (teamId projectId : String) :
    TeamDeliveryAck δ where
  version := 2
  queueId := personal.id
  createdAt := personal.createdAt
  entityType := personal.entityType
  entityId := personal.entityId
  operation := personal.operation
  teamId := teamId
  projectId := projectId
  payloadSha256 := env.digest transmitted
  personalProjectId := personal.projectId

/-- 写し一件について、条件が揃えば受領証を書く。 -/
def recordAck (item : QueuedSync) (transmitted : Json) (teamId projectId : String)
    (ob : Outbox δ) (personal : QueuedSync) : Outbox δ :=
  if snapshotCovered env item personal transmitted projectId ∧ ob.personalUnchanged personal then
    { ob with
      acks := mapInsert personal.id (deliveryAck env personal transmitted teamId projectId)
        ob.acks }
  else ob

/-- 送った写しと中身まで同じ行だけを消す。HTTP の間に置き換わった行は残る。 -/
def consumeSnapshot (item : QueuedSync) (teamId : String) : Outbox δ :=
  { ob with
    queue := ob.queue.delete fun r => r.id = item.id ∧ r.teamId = teamId
      ∧ r.operation = item.operation ∧ r.payload = item.payload
      ∧ r.createdAt = item.createdAt ∧ r.projectId = item.projectId }

/-- `acknowledge_team_write`。 -/
def acknowledgeTeamWrite (item : QueuedSync) (transmitted : Json) (teamId projectId : String)
    (personalSnapshots : List QueuedSync) : Outbox δ :=
  let ob := if equivalentDelivery env item transmitted teamId projectId then
      personalSnapshots.foldl (recordAck env item transmitted teamId projectId) ob
    else ob
  ob.consumeSnapshot item teamId

/-- 一行について、証拠があれば捨てる。 -/
def neutralizeOne (teamId projectId : String) (ob : Outbox δ) (item : QueuedSync) : Outbox δ :=
  if ob.receiptMatches env item teamId projectId then ob.removeWithReceipt item.id else ob

/-- `neutralize_team_only_personal`。 -/
def neutralizeTeamOnlyPersonal (teamId projectId : String) : Outbox δ :=
  ob.personalRows.foldl (neutralizeOne env teamId projectId) ob

/-- 持ち主が違うと断られた行。 -/
def teamOwnedRejection (item : QueuedSync) : Bool :=
  item.lastOutcome = some "rejected" && item.lastReason = some "team_owned_project"

/-- 片付けの報告の一行。 -/
def cleanupRow (teamId projectId : String) (item : QueuedSync) : TeamOwnedCleanupRow :=
  let eligible := teamOwnedRejection item && ob.receiptMatches env item teamId projectId
  { id := item.id
    entityType := item.entityType
    entityId := item.entityId
    eligible
    reason :=
      if eligible then "equivalent_team_write_acknowledged"
      else if !teamOwnedRejection item then "not_team_owned_personal_rejection"
      else "no_matching_team_delivery_proof" }

/-- 片付けの一行。報告を足し、試しでなければ証拠のある行を捨てる。 -/
def purgeOne (teamId projectId : String) (ids : List Nat) (dryRun : Bool)
    (acc : List TeamOwnedCleanupRow × Outbox δ) (item : QueuedSync) :
    List TeamOwnedCleanupRow × Outbox δ :=
  if (!ids.isEmpty && item.id ∉ ids) || (ids.isEmpty && !teamOwnedRejection item) then acc
  else
    let report := acc.2.cleanupRow env teamId projectId item
    (acc.1 ++ [report],
      if report.eligible && !dryRun then acc.2.removeWithReceipt item.id else acc.2)

/-- `purge_team_owned_personal_rejections`。 -/
def purgeTeamOwnedPersonalRejections (teamId projectId : String) (ids : List Nat) (dryRun : Bool) :
    Except String (List TeamOwnedCleanupRow) × Outbox δ :=
  if !dryRun && ids.isEmpty then
    (.error "cleanup requires explicit --ids; preview with --purge-team-owned --dry-run", ob)
  else
    let items := ob.personalRows
    if ids.any fun id => items.all fun item => item.id ≠ id then
      (.error "selected ID is not a current personal queue row; preview again", ob)
    else
      let (reports, ob) := items.foldl (purgeOne env teamId projectId ids dryRun) ([], ob)
      (.ok reports, ob)

end Outbox

end Cassy
