import Cassy.Prompt.Stamp

/-!
# 一括の書き込み

押印を通らずに列 `highest_stage` を書く文と、伝言を消す文。

* `cancel_unread_for_shutdown` — 畳む宛先の未読を取り下げる。渡した後の伝言も戻す
* `refresh_qa_rejection_targets` — 差し戻しを現在の担当に宛て直す。新しい宛先の段階は初めから始まる
* `settle_aged_rows_in_tx` — 古い伝言の始末。読まれたものは押印で `delivered` に、読まれなかったものは打ち切る
* `abandon_pending_older_than`、`expire_stale_pending`、`abandon_ineligible_session_targets` — 打ち切りの掃除
* `init` — 旧い版の書いた行の補修
-/

namespace Cassy

open Infra

namespace PromptDb

/-- 宛先の受領が、transport の渡した記録の他にある。`source` の無い旧い行は読まれたものとする。 -/
def readByTarget (db : PromptDb) (r : PromptRow) : Bool :=
  (db.receipt? r.id r.target).any fun x => x.source.getD .inboxPoll ≠ .transportDelivered

/-! ## 取り下げ -/

/-- `SHUTDOWN_UNREAD_IDS_SQL`。 -/
def shutdownUnread (db : PromptDb) (recipient : String) (session : Option String) (r : PromptRow) :
    Bool :=
  r.target = recipient
    && (r.factorySession.isNone || (session.isSome && r.factorySession = session))
    && r.ackedAt.isNone && stageDeliverable r.highestStage && !stageIs r.highestStage .confirmed
    && !db.readByTarget r

/-- 一つの伝言を取り下げる。 -/
def cancelRow (now : Time) (detail : String) (r : PromptRow) : PromptRow :=
  { r with
    highestStage := some (.stage .suppressed)
    processedAt := r.processedAt.or (some now)
    lastPendingReason := some .shutdownCancelled
    lastPendingDetail := some detail }

/-- `cancel_unread_for_shutdown`。段階の読めない行があれば、何も取り下げずに落ちる。 -/
def cancelUnreadForShutdown (db : PromptDb) (now : Time) (recipient : String)
    (session : Option String) (detail : String) : Except StoreError (List Nat × PromptDb) := do
  ensure (nonBlank recipient ∧ recipient ≠ allWorkers ∧ nonBlank detail)
    (.other "shutdown cancellation requires a direct recipient and a reason")
  let ids := (db.rows.filter (db.shutdownUnread recipient session)).map PromptRow.id
  let db' ← ids.foldlM (fun db id => do
    let _ ← db.readHighestStage id
    return db.updateId id (fun _ => true) (cancelRow now detail)) db
  return (ids, db')

/-! ## 宛て直し -/

/-- `QA_REJECTION_ROUTES_SQL` の行。 -/
def qaRejection (db : PromptDb) (w : Surroundings) (session : String) (promptId : Option Nat)
    (r : PromptRow) : Bool :=
  r.factorySession = some session && r.origin = some .daemon && promptId.all (· = r.id)
    && r.processedAt.isNone && r.ackedAt.isNone && !db.readByTarget r && (w.qaOwner r).isSome

/-- 新しい宛先の伝言として、段階を初めに戻す。 -/
def readdressRow (owner : String) (r : PromptRow) : PromptRow :=
  { r with
    target := owner
    deferredInboxAt := none
    selectedAt := none
    transportDeliveredAt := none
    highestStage := some (.stage .enqueued)
    assumedSeenAt := none
    nextAttemptAt := none
    deliveryAttempts := 0
    firstAttemptAt := none
    lastPendingReason := none
    lastPendingDetail := none }

/-- 差し戻しの一つを、現在の担当に従って動かす。 -/
def routeQaRejection (now : Time) (w : Surroundings) (db : PromptDb) (r : PromptRow) :
    Except StoreError PromptDb :=
  match w.qaOwner r with
  | some (some owner) =>
    if owner ≠ r.target then .ok (db.updateId r.id (fun _ => true) (readdressRow owner)) else .ok db
  | some none =>
    db.atomicStageStampInTx now [] r.id .suppressed
      { reason := some .supersededStale
        detail := some "QA rejection withdrawn: task has no current assignee or is terminal"
        setProcessed := true }
  | none => .ok db

/-- `refresh_qa_rejection_targets`。 -/
def refreshQaRejectionTargets (db : PromptDb) (now : Time) (w : Surroundings) (session : String)
    (promptId : Option Nat) : Except StoreError PromptDb :=
  (db.rows.filter (db.qaRejection w session promptId)).foldlM (routeQaRejection now w) db

/-! ## 古い伝言の始末 -/

/-- 本文が宛先の turn に入ったか、確認された。 -/
def settledAsSurfaced (db : PromptDb) (r : PromptRow) : Bool :=
  r.ackedAt.isSome || (db.receipt? r.id r.target).any SeenRow.surfaced

/-- 宛先が実在した。 -/
def recipientExisted (db : PromptDb) (w : Surroundings) (r : PromptRow) : Bool :=
  (db.receipt? r.id r.target).isSome || db.transport.rows.any (fun t => t.promptId = r.id)
    || w.agents.any fun agents => agents.any fun a =>
      a.name = r.target && r.factorySession.isSome && a.factorySession = r.factorySession

/-- 打ち切りの書く列。 -/
def abandonRow (now : Time) (reason : PendingReason) (detail : String) (r : PromptRow) : PromptRow :=
  { r with
    processedAt := r.processedAt.or (some now)
    highestStage := some (.stage .abandoned)
    lastPendingReason := some reason
    lastPendingDetail := some detail
    nextAttemptAt := none }

/-- 古い伝言の一つを始末する。 -/
def settleAgedRow (now : Time) (w : Surroundings) (existedDetail unresolvedDetail : String)
    (db : PromptDb) (id : Nat) : Except StoreError PromptDb :=
  match db.find? id with
  | none => .ok db
  | some r =>
    if db.settledAsSurfaced r then
      db.atomicStageStampInTx now [] id .delivered
        (.ofDetail "surfaced to the recipient before the queue gave up on it")
    else
      let abandon := if db.recipientExisted w r then abandonRow now .recipientEndedUnread existedDetail
        else abandonRow now .abandonedUnknownTarget unresolvedDetail
      .ok (db.updateId id (fun r => r.processedAt.isNone) abandon (by
        intro r
        dsimp only [abandon]
        split <;> rfl))

/-- `settle_aged_rows_in_tx`。 -/
def settleAgedRowsInTx (db : PromptDb) (now : Time) (w : Surroundings) (ids : List Nat)
    (existedDetail unresolvedDetail : String) : Except StoreError PromptDb :=
  ids.foldlM (settleAgedRow now w existedDetail unresolvedDetail) db

/-- `OPERATOR_LANE_EXCLUSION`。 -/
def outsideOperatorLane (r : PromptRow) : Bool :=
  !r.toOperator && !likeStart "commander:" r.target

/-- `TRANSCRIPT_MIRROR`。 -/
def transcriptMirror (r : PromptRow) : Bool :=
  r.toOperator && r.source = "supervisor" && r.dedupeKey.any (likeStart "commander-mirror:")

/-- 期限を過ぎた未処理の伝言。 -/
def expired (cutoff : Time) (r : PromptRow) : Bool := r.processedAt.isNone && r.createdAt < cutoff

/-- `abandon_pending_older_than`。確認の有無を見ない。 -/
def abandonPendingOlderThan (db : PromptDb) (now : Time) (olderThanSecs : Int)
    (notices : List AbandonNotice) : PromptDb :=
  (db.update (expired (now - seconds olderThanSecs)) (abandonRow now .abandonedUnknownTarget
    s!"expired by explicit queue remediation (older_than_secs={olderThanSecs})")).notifyAll notices

/-- 写しの後始末の書く列。 -/
def expireMirrorRow (now : Time) (r : PromptRow) : PromptRow :=
  { r with
    processedAt := some now
    highestStage := some (.stage .suppressed)
    lastPendingReason := some .supersededStale
    lastPendingDetail := some "expired completed supervisor transcript mirror"
    nextAttemptAt := none }

/-- `expire_stale_pending`。 -/
def expireStalePending (db : PromptDb) (now : Time) (w : Surroundings) (olderThanSecs : Int)
    (notices : List AbandonNotice) : Except StoreError PromptDb := do
  let cutoff := now - seconds olderThanSecs
  let db := db.update (fun r => expired cutoff r && transcriptMirror r) (expireMirrorRow now)
  let ids := (db.rows.filter fun r => expired cutoff r && outsideOperatorLane r).map PromptRow.id
  let db ← db.settleAgedRowsInTx now w ids
    s!"stale queue item: pending {olderThanSecs}s+ and never surfaced to its recipient — quarantined instead of delivered (cas-d047)"
    s!"stale queue item: pending {olderThanSecs}s+ with no successful handoff — quarantined instead of delivered (cas-d047)"
  return db.notifyAll notices

/-- `abandon_ineligible_session_targets` の拾う行。 -/
def ineligible (targets : List String) (session : String) (cutoff : Time) (r : PromptRow) : Bool :=
  expired cutoff r && r.factorySession = some session && outsideOperatorLane r
    && !targets.contains r.target

/-- `abandon_ineligible_session_targets`。 -/
def abandonIneligibleSessionTargets (db : PromptDb) (now : Time) (w : Surroundings)
    (targets : List String) (session : String) (olderThanSecs : Int)
    (notices : List AbandonNotice) : Except StoreError PromptDb :=
  if targets = [] then .ok db
  else do
    let ids := (db.rows.filter
      (ineligible targets session (now - seconds olderThanSecs))).map PromptRow.id
    let db ← db.settleAgedRowsInTx now w ids
      "recipient left the factory session before the message surfaced to it"
      "target no longer belongs to factory session"
    return db.notifyAll notices

/-! ## `init` の補修 -/

/-- 旧い版が返事から推した確認を、推定に戻す。 -/
def demoteInferred (db : PromptDb) : PromptDb :=
  db.update (fun r => r.ackedVia = some .inferredFromReply) fun r =>
    { r with
      assumedSeenAt := r.assumedSeenAt.or r.ackedAt
      ackedAt := none
      ackedVia := none
      highestStage := some (.stage .assumedSeen)
      lastPendingReason := some .awaitingAck
      lastPendingDetail := some
        "historical reply activity; awaiting message-specific confirmation" }

/-- 段階の列が無かった頃の、処理済みの行の補い。 -/
def hydrateProcessed (db : PromptDb) (p : PromptRow → Bool) : PromptDb :=
  db.update (fun r => r.processedAt.isSome && r.highestStage.isNone && p r) fun r =>
    { r with highestStage := some (.stage .delivered), transportDeliveredAt := r.processedAt }

/-- `hydrate_legacy_processed`。控えと処理の時刻の合う行だけを補う。 -/
def hydrateLegacyProcessed (db : PromptDb) (snapshot : List (Nat × Time)) : PromptDb :=
  db.hydrateProcessed fun r => snapshot.any fun e => e.1 = r.id && some e.2 = r.processedAt

/-! ## 消す文 -/

/-- `prune_terminal_batch`。消してよいかのうち、他の表が決める部分は `releasable` である。 -/
def pruneTerminalBatch (db : PromptDb) (cutoff : Time) (releasable : PromptRow → Bool)
    (picked : List Nat) : PromptDb :=
  let ids := picked.filter fun id => (db.find? id).any fun r =>
    r.processedAt.any (· < cutoff) && releasable r
  let db := db.deletePrompts fun r => ids.contains r.id
  { db with
    seen := db.seen.delete fun x => ids.contains x.promptId
    transport := db.transport.delete fun t => ids.contains t.promptId }

/-- `clear`。 -/
def clear (db : PromptDb) : PromptDb :=
  (db.deletePrompts fun _ => true).deleteSeen fun _ => true

/-- `cleanup_old`。 -/
def cleanupOld (db : PromptDb) (cutoff : Time) (retained : PromptRow → Bool) : PromptDb :=
  let db := db.deletePrompts fun r => r.processedAt.any (· < cutoff)
    && !r.dedupeKey.any (likeStart "ci-red-run:") && !retained r
  db.deleteSeen fun x => (db.find? x.promptId).isNone

end PromptDb

end Cassy
