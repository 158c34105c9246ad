import Mathlib.Data.List.Sort
import Cassy.Prompt.Sweep

/-!
# 受付と確認

伝言を足す操作、確認を書く操作、段階に触れずに列を書き換える操作。

確認の時刻 `acked_at` を書くのは、宛先の `ack`、返事に添えた確認、hook が本文を見せたとき、用済みの中継の
始末である。`ack` は押印と `acked_at` の二つの文に分かれ、押印の失敗は捨てられる。

返事から「読まれたらしい」と推す `ack_delivered_for_recipient` は、候補を読む文と、一つずつ書く文に分かれる。
-/

namespace Cassy

open Infra

namespace PromptDb

/-! ## 受付 -/

/-- `EnqueueOutcome`。 -/
inductive EnqueueOutcome where
  | created (id : Nat)
  | suppressedDuplicate (id : Nat)
  deriving DecidableEq, Repr

/-- `PROMPT_DUPLICATE_WINDOW_SECS`。 -/
def promptDuplicateWindowSecs : Int := 30

/-- 渡したばかりで確認を待つ、同じ中身の伝言。 -/
def deliveredDuplicate (p : NewPrompt) (r : PromptRow) : Bool :=
  r.source = p.source && r.target = p.target && r.prompt = p.prompt
    && r.factorySession = p.factorySession && !r.urgent && r.ackedAt.isNone
    && !stageIs r.highestStage .confirmed
    && r.transportDeliveredAt.any (p.createdAt - seconds promptDuplicateWindowSecs ≤ ·)

/-- 渡したばかりの同じ中身の伝言のうち、最後に渡したもの。 -/
def lastDelivered? (db : PromptDb) (p : NewPrompt) : Option PromptRow :=
  ((db.rows.filter (deliveredDuplicate p)).insertionSort fun x y =>
    y.transportDeliveredAt.getD 0 < x.transportDeliveredAt.getD 0
      ∨ y.transportDeliveredAt.getD 0 = x.transportDeliveredAt.getD 0 ∧ y.id ≤ x.id).head?

/-- 足そうとする伝言と重なる行。鍵があれば鍵で、無ければ中身で見る。 -/
def duplicateOf? (db : PromptDb) (p : NewPrompt) : Option PromptRow :=
  match p.dedupeKey with
  | some key => db.rows.find? fun r => r.dedupeKey = some key
  | none => if p.urgent || p.source = "supervisor" then none else db.lastDelivered? p

/--
伝言を足す。`enqueue_attributed_urgent_with_outcome`、`enqueue_idempotent_urgent`、
`insert_complete_operator_turn` の前半。重なる行があれば足さない。

鍵のある伝言は `INSERT OR IGNORE` で足すので、捨てられても番号を使う。鍵の無い伝言は足す前に重なりを読む。
-/
def enqueue (db : PromptDb) (p : NewPrompt) : EnqueueOutcome × PromptDb :=
  match db.duplicateOf? p with
  | some r => (.suppressedDuplicate r.id, if p.dedupeKey.isSome then db.skipId else db)
  | none => (.created db.nextId, db.insert p)

/-- 受付は、何もしないか、番号だけを使うか、一行を足すかである。 -/
theorem enqueue_cases (db : PromptDb) (p : NewPrompt) : (db.enqueue p).2 = db
    ∨ (db.enqueue p).2 = db.skipId ∨ (db.enqueue p).2 = db.insert p := by
  unfold enqueue
  split
  · dsimp only
    split
    · exact Or.inr (Or.inl rfl)
    · exact Or.inl rfl
  · exact Or.inr (Or.inr rfl)

/-- `enqueue_worker_peer_with_supervisor_copy`。supervisor への写しと本文を一緒に足す。 -/
def enqueueWorkerPeer (db : PromptDb) (copy p : NewPrompt) : PromptDb :=
  (db.insert { copy with kind := some .workerPeerCopy, urgent := false }).insert p

/-! ## 確認 -/

/-- `UPDATE prompt_queue SET acked_at, acked_via WHERE id = ? AND acked_at IS NULL`。 -/
def setAcked (db : PromptDb) (now : Time) (id : Nat) (via : AckedVia) : PromptDb :=
  db.updateId id (fun r => r.ackedAt.isNone) fun r =>
    { r with ackedAt := some now, ackedVia := some via }

/-- 宛先の確認を書く。返事のあった確認は、返事のあったままにする。 -/
def settleAck (now : Time) (id : Nat) (reply : Option Nat) (db : PromptDb) (recipient : String) :
    PromptDb :=
  let disposition : AckDisposition := if reply.isSome then .answered else .acknowledged
  let row : RecipientAck :=
    { promptId := id, recipient, settledAt := now, disposition, replyPromptId := reply }
  { db with
    acks := (db.acks.update (fun a => a.key = row.key) fun a =>
      { a with
        disposition := if a.replyPromptId.isSome then .answered else disposition
        replyPromptId := reply.or a.replyPromptId }).insertOrIgnore row }

/-- 失敗を捨てる押印。 -/
def stampIgnoringError (db : PromptDb) (now : Time) (id : Nat) (proposed : DeliveryStage)
    (opts : AtomicStampOpts) : PromptDb :=
  match db.atomicStageStampInTx now [] id proposed opts with
  | .ok db' => db'
  | .error _ => db

/-- `settle_recipient_message`。全員宛てでは、宛先ごとの確認だけを書く。 -/
def settleRecipientMessage (db : PromptDb) (now : Time) (id : Nat) (recipients : List String)
    (reply : Option Nat) : Except StoreError PromptDb := do
  ensure (recipients ≠ []) (.other "message acknowledgement requires a recipient")
  let row ← okOr (db.find? id) (.other "message does not exist")
  ensure (row.target = allWorkers ∨ row.target ∈ recipients)
    (.other "message is not addressed to this recipient")
  match reply with
  | none => pure ()
  | some replyId =>
    let replyRow ← okOr (db.find? replyId) (.other "reply has not been durably queued")
    ensure (replyRow.source ∈ recipients) (.other "reply endpoints do not match message")
  let db := recipients.foldl (settleAck now id reply) db
  if row.target = allWorkers then
    return db
  let db := db.updateId id (fun _ => true) fun r =>
    { r with ackedAt := r.ackedAt.or (some now), ackedVia := some .explicitAck }
  return db.stampIgnoringError now id .confirmed .clearReason

/-- `insert_complete_operator_turn`。返事を足し、答えた伝言を確認する。 -/
def insertCompleteOperatorTurn (db : PromptDb) (p : NewPrompt) (ackId : Option Nat) :
    Except StoreError (EnqueueOutcome × PromptDb) :=
  match db.enqueue p with
  | (.suppressedDuplicate id, _) => .ok (.suppressedDuplicate id, db)
  | (.created id, db') =>
    match ackId with
    | none => .ok (.created id, db')
    | some ack => do
      let db' ← if (db'.find? ack).isSome then
          db'.atomicStageStampInTx p.createdAt [] ack .confirmed .clearReason
        else pure db'
      return (.created id, db'.setAcked p.createdAt ack .explicitAck)

/-! ## 返事からの推定 -/

/-- `reply_confirms_delivered_message`。 -/
def replyConfirmsDeliveredMessage (deliveredAt seenAt : Option Time) (replyAt : Time) : Bool :=
  deliveredAt.any (· ≤ replyAt) && seenAt.any (· ≤ replyAt)

/-- `ack_delivered_for_recipient` の候補。読むだけの文である。 -/
def confirmable (db : PromptDb) (recipients senders : List String) (session : Option String)
    (replyAt : Time) : List Nat :=
  (db.rows.filter fun r => r.ackedAt.isNone && r.transportDeliveredAt.isSome
    && stageDeliverable r.highestStage && recipients.contains r.target && senders.contains r.source
    && (r.factorySession.isNone || (session.isSome && r.factorySession = session))
    && replyConfirmsDeliveredMessage r.transportDeliveredAt
      ((db.receipt? r.id r.target).map SeenRow.seenAt) replyAt).map PromptRow.id

/-- 推定の書く列。 -/
def assumeSeenRow (now : Time) (r : PromptRow) : PromptRow :=
  { r with
    assumedSeenAt := r.assumedSeenAt.or (some now)
    highestStage := some (.stage .assumedSeen)
    lastPendingReason := some .awaitingAck
    lastPendingDetail := some
      "later recipient activity observed; not confirmation of this message" }

/-- 候補の一つを書く文。段階は見ない。 -/
def assumeSeen (db : PromptDb) (now : Time) (id : Nat) : PromptDb :=
  db.updateId id (fun r => r.ackedAt.isNone && r.assumedSeenAt.isNone) (assumeSeenRow now)

/-! ## 中継の始末 -/

/-- `TERMINAL_UNACKED_RELAY_SQL`。 -/
def terminalUnackedRelay (r : PromptRow) : Bool :=
  r.transportDeliveredAt.isNone && r.ackedAt.isNone && likeStart "lifecycle-wake:" r.source
    && (stageIs r.highestStage .suppressed || stageIs r.highestStage .dropped
      || stageIs r.highestStage .abandoned)

/-- `RELAY_SESSION_ENDED_SQL`。 -/
def relaySessionEnded (agents : List Agent) (cutoff : Time) (r : PromptRow) : Bool :=
  r.factorySession.any (· ≠ "") && r.createdAt < cutoff
    && !agents.any fun a => a.factorySession = r.factorySession && a.status ≠ .shutdown

/-- 用済みの中継に確認を書く。 -/
def reconcileWhere (db : PromptDb) (now : Time) (via : AckedVia) (p : PromptRow → Bool) : PromptDb :=
  db.update (fun r => terminalUnackedRelay r && p r) fun r =>
    { r with ackedAt := some now, ackedVia := some via }

/-- `ENDED_SESSION_RELAY_AGE_SECS`。 -/
def endedSessionRelayAgeSecs : Int := 24 * 60 * 60

/-- `reconcile_relays`。 -/
def reconcileRelays (db : PromptDb) (now : Time) (w : Surroundings)
    (taskClosed sessionEnded : Bool) : PromptDb :=
  let db := if taskClosed then
      db.reconcileWhere now .terminalTaskReconciled w.relayTaskClosed
    else db
  match w.agents with
  | some agents =>
    if sessionEnded then
      db.reconcileWhere now .sessionEndedReconciled
        (relaySessionEnded agents (now - seconds endedSessionRelayAgeSecs))
    else db
  | none => db

/-! ## 処理済みの印 -/

/-- `mark_processed`。 -/
def markProcessed (db : PromptDb) (now : Time) (id : Nat) : PromptDb :=
  db.updateId id (fun _ => true) fun r => { r with processedAt := some now }

/-- `ORDER BY priority ASC, id ASC`。 -/
def deliveryOrder (a b : PromptRow) : Bool :=
  a.priority.toNat < b.priority.toNat || (a.priority = b.priority && a.id ≤ b.id)

/-- `poll_for_target_with_session` と `poll_all` の読む行。`target` が `none` なら宛先を問わない。 -/
def pollCandidates (db : PromptDb) (target : Option String) (session : Option String)
    (limit : Nat) : List Nat :=
  let pending := db.rows.filter fun r => r.processedAt.isNone && target.all r.addressedTo
    && (session.isNone || r.factorySession.isNone || r.factorySession = session)
  ((pending.insertionSort fun a b => deliveryOrder a b).take limit).map PromptRow.id

/-- 読んだ行を処理済みにする文。 -/
def markPolled (db : PromptDb) (now : Time) (ids : List Nat) : PromptDb :=
  db.update (fun r => ids.contains r.id) fun r =>
    { r with processedAt := some now, lastPendingReason := none, lastPendingDetail := none }

end PromptDb

/-! ## 列の書き換え -/

/-- 段階にも確認にも触れない書き換え。 -/
inductive RowEdit where
  | rewritePending (id : Nat) (prompt : String) (summary : Option String)
  | stampRecipientDevice (id : Nat) (deviceId : String)
  | stampOperatorReply (id : Nat) (kind : String)
  | recordWakeGateDecline (id : Nat) (detail : String)
  | recordDeferredInbox (id : Nat) (now : Time)
  | releaseReceivedDedupeKeys (target session start : String)
  | releaseStrandedSupervisorDigest (id : Nat)
  | digestMergedReadiness (tip : String → Bool)
  | bindTerminalTurn (id : Nat) (key : String)

/-- 宛先が受け取った。claim だけでは受け取ったことにならない。 -/
def SeenRow.handedOff (x : SeenRow) : Bool :=
  x.source ≠ some .transportClaimed || x.deliveredAt.isSome || x.teamsBodyFallbackAt.isSome

/-- 書き換える行。 -/
def RowEdit.selects (db : PromptDb) : RowEdit → PromptRow → Bool
  | rewritePending id _ _, r => r.id = id && r.processedAt.isNone && r.ackedAt.isNone
    && (r.highestStage.isNone || stageIs r.highestStage .selected)
  | stampRecipientDevice id _, r => r.id = id && r.toOperator
  | stampOperatorReply id _, r => r.id = id && r.toOperator
  | recordWakeGateDecline id _, r => r.id = id && r.ackedAt.isNone && r.processedAt.isNone
  | recordDeferredInbox id _, r => r.id = id && r.processedAt.isNone
  | releaseReceivedDedupeKeys target session start, r =>
    r.target = target && r.factorySession = some session && r.dedupeKey.any (startsWithText start)
      && (r.processedAt.isSome || r.transportDeliveredAt.isSome || r.ackedAt.isSome
        || (db.receipt? r.id target).any SeenRow.handedOff)
  | releaseStrandedSupervisorDigest id, r =>
    r.id = id && r.kind = some .supervisorDigest
      && (match r.origin with | some (.registeredAgent _) => true | _ => false)
      && r.processedAt.isNone && r.transportDeliveredAt.isNone && r.ackedAt.isNone
      && !(db.seen.rows.any fun x => x.promptId = r.id)
  | digestMergedReadiness tip, r =>
    r.processedAt.isNone && r.transportDeliveredAt.isNone && r.ackedAt.isNone && !r.urgent
      && (match r.kind with | some (.mergeReady json) => tip json | _ => false)
  | bindTerminalTurn id _, r => r.id = id && r.source = "terminal" && r.target = "terminal-history"
    && r.dedupeKey.isNone

/-- 書き換えた行。 -/
def RowEdit.apply : RowEdit → PromptRow → PromptRow
  | rewritePending _ prompt summary, r => { r with prompt, summary }
  | stampRecipientDevice _ deviceId, r => { r with recipientDeviceId := some deviceId }
  | stampOperatorReply _ kind, r => { r with kind := some (.other kind) }
  | recordWakeGateDecline _ detail, r =>
    { r with holdingDetail := if nonBlank detail then some detail else r.holdingDetail }
  | recordDeferredInbox _ now, r => { r with deferredInboxAt := r.deferredInboxAt.or (some now) }
  | releaseReceivedDedupeKeys .., r => { r with dedupeKey := none }
  | releaseStrandedSupervisorDigest _, r => { r with kind := none }
  | digestMergedReadiness _, r => { r with kind := some .supervisorDigest }
  | bindTerminalTurn _ key, r => { r with dedupeKey := some key }

theorem RowEdit.apply_id (e : RowEdit) (r : PromptRow) : (e.apply r).id = r.id := by
  cases e <;> rfl

/-- 書き換えの文。 -/
def PromptDb.edit (db : PromptDb) (e : RowEdit) : PromptDb :=
  db.update (e.selects db) e.apply e.apply_id

end Cassy
