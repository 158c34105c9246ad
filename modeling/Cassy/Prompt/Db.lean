import Cassy.Infra.Result
import Cassy.Infra.Table
import Cassy.Infra.Text
import Cassy.Prompt.Stage

/-!
# 伝言の表

`prompt_queue` と、それに付く三つの表である。

* `prompt_queue` — 伝言。番号は `AUTOINCREMENT` なので、消えた伝言の番号は二度と使われない
* `prompt_queue_recipient_seen` — 受領の記録。伝言と宛先の組ごとに高々一行で、どの経路が書いたかを持つ
* `prompt_queue_recipient_ack` — 宛先が自分で返した確認。伝言が消えると trigger が一緒に消す
* `prompt_queue_recipient_transport` — transport が渡した記録

同じ database の他の表（`agents`、`tasks`、`qa_passes` など）と、project を止める指示の file は、読む文ごとに
`Surroundings` として受け取る。

`wake_gate_declines` や `wake_attempt` のように、ここで扱う関数が書くだけで読まない列は置かない。
-/

namespace Cassy

open Infra

/-! ## 行 -/

/-- `NotificationPriority`。小さい方が先に出る。 -/
inductive NotificationPriority where
  | critical | high | normal
  deriving DecidableEq, Repr

/-- `priority` 列の値。 -/
def NotificationPriority.toNat : NotificationPriority → Nat
  | critical => 0
  | high => 1
  | normal => 2

/-- `QueueOrigin`。`origin_kind` と `origin_agent_id` の二列。 -/
inductive QueueOrigin where
  | registeredAgent (agentId : String)
  | daemon
  | unattributed
  | pairedDevice (deviceId : String)
  deriving DecidableEq, Repr

/-- `kind` 列の綴り。 -/
inductive PromptKind where
  | noticeDigest | workerPeerCopy | supervisorDigest | recoveryReference | workerStallNudge
  /-- `merge_ready:` の後に JSON が続く。 -/
  | mergeReady (json : String)
  | other (text : String)
  deriving DecidableEq, Repr

/-- `prompt_queue` の行。 -/
structure PromptRow where
  id : Nat
  source : String
  target : String
  prompt : String
  summary : Option String := none
  createdAt : Time
  processedAt : Option Time := none
  priority : NotificationPriority := .normal
  urgent : Bool := false
  factorySession : Option String := none
  origin : Option QueueOrigin := none
  operatorVerified : Bool := false
  kind : Option PromptKind := none
  dedupeKey : Option String := none
  supersedeKey : Option String := none
  sticky : Bool := false
  recipientDeviceId : Option String := none
  ackedAt : Option Time := none
  ackedVia : Option AckedVia := none
  highestStage : Option StageText := none
  selectedAt : Option Time := none
  transportDeliveredAt : Option Time := none
  assumedSeenAt : Option Time := none
  lastPendingReason : Option PendingReason := none
  lastPendingDetail : Option String := none
  holdingDetail : Option String := none
  broadcastAttempted : Option Nat := none
  broadcastSucceeded : Option Nat := none
  broadcastFailed : Option Nat := none
  nextAttemptAt : Option Time := none
  deliveryAttempts : Nat := 0
  firstAttemptAt : Option Time := none
  deferredInboxAt : Option Time := none
  deriving DecidableEq, Repr

/-- `prompt_queue_recipient_seen` の行。`seenAt` は claim の token を兼ねる。 -/
structure SeenRow where
  promptId : Nat
  recipient : String
  seenAt : Time
  source : Option SurfacingSource
  deliveredAt : Option Time := none
  teamsBodyFallbackAt : Option Time := none
  pollSettled : Option String := none
  deriving DecidableEq, Repr

/-- 主キー。 -/
def SeenRow.key (r : SeenRow) : Nat × String := (r.promptId, r.recipient)

/-- 受領が本文の届いた証拠である。 -/
def SeenRow.surfaced (r : SeenRow) : Bool := r.source.any SurfacingSource.isSurfaced

/-- `ON CONFLICT DO UPDATE SET seen_at = excluded.seen_at, source = excluded.source`。 -/
def SeenRow.overwrittenBy (x r : SeenRow) : SeenRow :=
  { x with seenAt := r.seenAt, source := r.source }

@[simp] theorem SeenRow.overwrittenBy_key (x r : SeenRow) : (x.overwrittenBy r).key = x.key := rfl

/-- `disposition`。 -/
inductive AckDisposition where
  | acknowledged | answered
  deriving DecidableEq, Repr

/-- `prompt_queue_recipient_ack` の行。 -/
structure RecipientAck where
  promptId : Nat
  recipient : String
  settledAt : Time
  disposition : AckDisposition
  replyPromptId : Option Nat
  deriving DecidableEq, Repr

def RecipientAck.key (r : RecipientAck) : Nat × String := (r.promptId, r.recipient)

/-- `prompt_queue_recipient_transport` の行。 -/
structure RecipientTransport where
  promptId : Nat
  recipient : String
  deliveredAt : Time
  deviceId : Option String
  deriving DecidableEq, Repr

def RecipientTransport.key (r : RecipientTransport) : Nat × String := (r.promptId, r.recipient)

/-- 全員宛ての宛先。 -/
def allWorkers : String := "all_workers"

namespace PromptRow

/-- 読める段階。綴りの壊れた行は `none`。書かれていなければ `enqueued`。 -/
def stage? (r : PromptRow) : Option DeliveryStage :=
  match r.highestStage with
  | none => some .enqueued
  | some (.stage s) => some s
  | some (.corrupt _) => none

/-- `target = recipient OR target = 'all_workers'`。 -/
def addressedTo (r : PromptRow) (recipient : String) : Bool :=
  r.target = recipient || r.target = allWorkers

/-- `acked_at IS NOT NULL AND acked_via = 'explicit_ack'`。 -/
def explicitlyAcked (r : PromptRow) : Bool := r.ackedAt.isSome && r.ackedVia = some .explicitAck

/-- `lower(target) = 'operator'`。SQLite の `lower` は ASCII だけを変える。 -/
def toOperator (r : PromptRow) : Bool :=
  r.target.toList.map toAsciiLower = "operator".toList

end PromptRow

/-- SQLite の `LIKE 'pat%'`。ASCII の大文字と小文字を区別しない。 -/
def likeStart (pat s : String) : Bool :=
  (pat.toList.map toAsciiLower).isPrefixOf (s.toList.map toAsciiLower)

/-- `str::contains`、SQLite の `instr(s, pat) > 0`。 -/
def containsText (pat s : String) : Bool := s.toList.tails.any fun t => pat.toList.isPrefixOf t

/-- `str::starts_with`、SQLite の `GLOB 'pat*'`。 -/
def startsWithText (pat s : String) : Bool := pat.toList.isPrefixOf s.toList

/-- 足す伝言。段階も確認も持たない。 -/
structure NewPrompt where
  source : String
  target : String
  prompt : String
  summary : Option String := none
  createdAt : Time
  /-- 端末が既に渡した入力の控え。`processed_at = created_at` で入る。 -/
  alreadyDelivered : Bool := false
  priority : NotificationPriority := .normal
  urgent : Bool := false
  factorySession : Option String := none
  origin : Option QueueOrigin := none
  operatorVerified : Bool := false
  kind : Option PromptKind := none
  dedupeKey : Option String := none
  recipientDeviceId : Option String := none
  deriving DecidableEq, Repr

/-- 番号を得た伝言。 -/
def NewPrompt.toRow (p : NewPrompt) (id : Nat) : PromptRow where
  id := id
  source := p.source
  target := p.target
  prompt := p.prompt
  summary := p.summary
  createdAt := p.createdAt
  processedAt := if p.alreadyDelivered then some p.createdAt else none
  priority := p.priority
  urgent := p.urgent
  factorySession := p.factorySession
  origin := p.origin
  operatorVerified := p.operatorVerified
  kind := p.kind
  dedupeKey := p.dedupeKey
  recipientDeviceId := p.recipientDeviceId

/-! ## 表の外 -/

/-- 文が読む、伝言の表の外の事実。 -/
structure Surroundings where
  /-- `agents` の行。表がまだ無ければ `none`。 -/
  agents : Option (List Agent) := none
  /-- `RELAY_TASK_CLOSED_SQL`。`summary` の名指す task が閉じている。 -/
  relayTaskClosed : PromptRow → Bool := fun _ => false
  /-- QA の差し戻しの現在の担当。`none` は差し戻しでない行、`some none` は担当の無い行。 -/
  qaOwner : PromptRow → Option (Option String) := fun _ => none
  /-- `supervisor_relay_expiry_reason`。 -/
  relayExpiryReason : PromptRow → Option String := fun _ => none
  /-- `parse_lifecycle_envelope` の読めた本文について、その `transition`。 -/
  lifecycleEnvelope : String → Option (Option String) := fun _ => none
  /-- `held_on_connection`。 -/
  projectHeld : Bool := false

/-! ## 表 -/

/-- 伝言の表の一組。`nextId` は次の番号。 -/
structure PromptDb where
  prompts : Table PromptRow.id
  nextId : Nat
  fresh : ∀ r ∈ prompts.rows, r.id < nextId
  seen : Table SeenRow.key := .empty
  acks : Table RecipientAck.key := .empty
  transport : Table RecipientTransport.key := .empty

namespace PromptDb

/-- 行の無い表。 -/
def empty : PromptDb where
  prompts := .empty
  nextId := 1
  fresh := by simp [Table.empty]

instance : Inhabited PromptDb := ⟨empty⟩

abbrev find? (db : PromptDb) (id : Nat) : Option PromptRow := db.prompts.find? id

abbrev rows (db : PromptDb) : List PromptRow := db.prompts.rows

/-- 宛先の受領の記録。 -/
abbrev receipt? (db : PromptDb) (id : Nat) (recipient : String) : Option SeenRow :=
  db.seen.find? (id, recipient)

theorem lt_nextId {db : PromptDb} {id : Nat} {r : PromptRow} (h : db.find? id = some r) :
    id < db.nextId := by
  rw [← Table.key_of_find? h]
  exact db.fresh r (Table.mem_of_find? h)

/-- `UPDATE prompt_queue SET f WHERE p`。 -/
def update (db : PromptDb) (p : PromptRow → Bool) (f : PromptRow → PromptRow)
    (hf : ∀ r, (f r).id = r.id := by exact fun _ => rfl) : PromptDb where
  prompts := db.prompts.update p f hf
  nextId := db.nextId
  fresh := by
    intro r hr
    obtain ⟨r₀, hr₀, rfl⟩ := Table.mem_update.mp hr
    split
    · rw [hf]
      exact db.fresh r₀ hr₀
    · exact db.fresh r₀ hr₀
  seen := db.seen
  acks := db.acks
  transport := db.transport

/-- `UPDATE prompt_queue SET f WHERE id = ? AND p`。 -/
def updateId (db : PromptDb) (id : Nat) (p : PromptRow → Bool) (f : PromptRow → PromptRow)
    (hf : ∀ r, (f r).id = r.id := by exact fun _ => rfl) : PromptDb :=
  db.update (fun r => r.id = id && p r) f hf

/-- `DELETE FROM prompt_queue WHERE p`。確認は trigger が消し、受領は残る。 -/
def deletePrompts (db : PromptDb) (p : PromptRow → Bool) : PromptDb where
  prompts := db.prompts.delete p
  nextId := db.nextId
  fresh := fun r hr => db.fresh r (Table.mem_delete.mp hr).1
  seen := db.seen
  acks := db.acks.delete fun a => db.rows.any fun r => r.id = a.promptId && p r
  transport := db.transport

/-- `INSERT INTO prompt_queue`。番号は次の番号である。 -/
def insert (db : PromptDb) (p : NewPrompt) : PromptDb where
  prompts :=
    { rows := db.rows ++ [p.toRow db.nextId]
      nodup := by
        rw [List.map_append, List.map_singleton]
        refine List.nodup_append.mpr ⟨db.prompts.nodup, List.nodup_singleton _, ?_⟩
        intro a ha b hb
        obtain ⟨r, hr, rfl⟩ := List.mem_map.mp ha
        rw [List.mem_singleton.mp hb]
        exact Nat.ne_of_lt (db.fresh r hr) }
  nextId := db.nextId + 1
  fresh := by
    intro r hr
    rcases List.mem_append.mp hr with hr | hr
    · exact Nat.lt_succ_of_lt (db.fresh r hr)
    · rw [List.mem_singleton.mp hr]
      exact Nat.lt_succ_self _
  seen := db.seen
  acks := db.acks
  transport := db.transport

/-- 一意な索引が捨てた `INSERT OR IGNORE`。行は増えないが、`AUTOINCREMENT` の番号は一つ使われる。 -/
def skipId (db : PromptDb) : PromptDb :=
  { db with nextId := db.nextId + 1, fresh := fun r hr => Nat.lt_succ_of_lt (db.fresh r hr) }

/-- `INSERT OR IGNORE INTO prompt_queue`。`dedupe_key` の重なる伝言は足さない。 -/
def insertOrIgnore (db : PromptDb) (p : NewPrompt) : PromptDb :=
  if p.dedupeKey.isSome ∧ db.rows.any (fun r => r.dedupeKey = p.dedupeKey) then db.skipId
  else db.insert p

/-- `UPDATE prompt_queue_recipient_seen SET f WHERE p`。 -/
def updateSeen (db : PromptDb) (p : SeenRow → Bool) (f : SeenRow → SeenRow)
    (hf : ∀ r, (f r).key = r.key := by exact fun _ => rfl) : PromptDb :=
  { db with seen := db.seen.update p f hf }

/-- `DELETE FROM prompt_queue_recipient_seen WHERE p`。 -/
def deleteSeen (db : PromptDb) (p : SeenRow → Bool) : PromptDb :=
  { db with seen := db.seen.delete p }

/--
`INSERT INTO prompt_queue_recipient_seen … ON CONFLICT DO UPDATE SET seen_at, source WHERE p`。

無ければ足し、あれば `p` の立つときだけ時刻と経路を上書きする。
-/
def upsertSeen (db : PromptDb) (r : SeenRow) (p : SeenRow → Bool) : PromptDb :=
  { db with
    seen := (db.seen.update (fun x => x.key = r.key && p x) (fun x => x.overwrittenBy r)
      fun x => x.overwrittenBy_key r).insertOrIgnore r }

/-- 上の文が行を変えた。 -/
def upsertSeenChanges (db : PromptDb) (r : SeenRow) (p : SeenRow → Bool) : Bool :=
  (db.seen.find? r.key).all p

/-! ## 読み出し -/

section Lookup

variable (db : PromptDb) (id : Nat) (p : PromptRow → Bool) (f : PromptRow → PromptRow)
  (hf : ∀ r, (f r).id = r.id) (n : NewPrompt)

@[simp] theorem find?_update :
    (db.update p f hf).find? id = (db.find? id).map fun r => if p r then f r else r :=
  @Table.find?_update _ _ _ _ db.prompts p f hf id

@[simp] theorem update_seen : (db.update p f hf).seen = db.seen := rfl

@[simp] theorem find?_deletePrompts :
    (db.deletePrompts p).find? id = (db.find? id).filter fun r => !p r :=
  Table.find?_delete

@[simp] theorem deletePrompts_seen : (db.deletePrompts p).seen = db.seen := rfl

theorem find?_insert :
    (db.insert n).find? id = if id = db.nextId then some (n.toRow id) else db.find? id := by
  show (db.rows ++ [n.toRow db.nextId]).find? _ = _
  rw [List.find?_append]
  split
  · next hid =>
    subst hid
    have hnone : db.rows.find? (fun r => decide (r.id = db.nextId)) = none := by
      rw [List.find?_eq_none]
      intro r hr
      simpa using Nat.ne_of_lt (db.fresh r hr)
    rw [hnone]
    simp [NewPrompt.toRow]
  · next hid =>
    have hs : [n.toRow db.nextId].find? (fun r => decide (r.id = id)) = none := by
      simp [NewPrompt.toRow, Ne.symm hid]
    rw [hs, Option.or_none]
    rfl

@[simp] theorem insert_seen : (db.insert n).seen = db.seen := rfl

/-- `INSERT OR IGNORE` は、番号だけを使うか一行を足すかである。 -/
theorem insertOrIgnore_cases :
    db.insertOrIgnore n = db.skipId ∨ db.insertOrIgnore n = db.insert n := by
  unfold insertOrIgnore
  split
  · exact Or.inl rfl
  · exact Or.inr rfl

end Lookup

/-- 上書きの後に引いた受領。 -/
theorem receipt?_upsertSeen (db : PromptDb) (r : SeenRow) (p : SeenRow → Bool) (k : Nat × String) :
    (db.upsertSeen r p).seen.find? k
      = if r.key = k then
          some ((db.seen.find? k).elim r fun x => if p x then x.overwrittenBy r else x)
        else db.seen.find? k := by
  show ((db.seen.update _ _ _).insertOrIgnore r).find? k = _
  rw [Table.find?_insertOrIgnore, Table.find?_update]
  split
  · next hk =>
    cases h : db.seen.find? k with
    | none => simp
    | some x =>
      have hx : x.key = r.key := (Table.key_of_find? h).trans hk.symm
      cases hp : p x <;> simp [hx, hp]
  · next hk =>
    rw [Option.or_none]
    cases h : db.seen.find? k with
    | none => rfl
    | some x =>
      have hx : x.key ≠ r.key := fun he => hk (he.symm.trans (Table.key_of_find? h))
      simp [hx]

end PromptDb

end Cassy
