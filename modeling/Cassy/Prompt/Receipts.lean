import Cassy.Prompt.Confirm

/-!
# 受領の記録

`prompt_queue_recipient_seen` を書く操作。行は transport の予約（`transport_claimed`）、渡した記録
（`transport_delivered`）、本文の見えた証拠（`inbox_poll`、`hook_surfaced`、`observed_wake`）のどれかである。

予約は行が無いか渡した記録のときにだけ取れ、放せるのは予約のままの行だけである。Teams の本文が渡った予約は
放せない。本文の見えた証拠を上書きするのは、drain が poll の証拠を hook の証拠に替えるときに限る。
-/

namespace Cassy

open Infra

namespace PromptDb

/-! ## 予約 -/

/-- 予約を取れる行。 -/
def claimable (db : PromptDb) (id : Nat) (recipient : String) (r : PromptRow) : Bool :=
  r.addressedTo recipient && (r.target = allWorkers || !r.explicitlyAcked)
    && stageDeliverable r.highestStage && (db.acks.find? (id, recipient)).isNone

/-- `claim_recipient_transport_on_conn`。取れたら token を返す。 -/
def claimRecipientTransport (db : PromptDb) (id : Nat) (recipient : String) (token : Time) :
    Except StoreError (Option Time × PromptDb) := do
  ensure (nonBlank recipient) (.other "transport claim requires a recipient")
  let claim : SeenRow :=
    { promptId := id, recipient, seenAt := token, source := some .transportClaimed }
  let handedOver (x : SeenRow) : Bool := x.source = some .transportDelivered
  if (db.find? id).any (db.claimable id recipient) && db.upsertSeenChanges claim handedOver then
    -- 前の試みが残した据え置きの印は、新しい予約と同時に消す
    return (some token, (db.upsertSeen claim handedOver).updateId id (fun _ => true) fun r =>
      { r with deferredInboxAt := none })
  else
    return (none, db)

/-- `release_recipient_transport`。 -/
def releaseRecipientTransport (db : PromptDb) (id : Nat) (recipient : String) : PromptDb :=
  db.deleteSeen fun x => x.key = (id, recipient) && openClaim x

/-- `release_recipient_transport_claim`。自分の token の予約だけを放す。 -/
def releaseRecipientTransportClaim (db : PromptDb) (id : Nat) (recipient : String) (token : Time) :
    PromptDb :=
  db.deleteSeen fun x => x.key = (id, recipient) && openClaim x && x.seenAt = token

/-- `release_orphaned_transport_claims`。daemon が落ちて宙に浮いた予約を放す。 -/
def releaseOrphanedTransportClaims (db : PromptDb) (session : String) : PromptDb :=
  db.deleteSeen fun x => openClaim x && x.deliveredAt.isNone
    && (db.find? x.promptId).any fun r => r.processedAt.isNone && r.transportDeliveredAt.isNone
      && r.deferredInboxAt.isNone && r.factorySession = some session

/-! ## 記録 -/

/-- `record_recipient_surfaced` の上書きの条件。 -/
def surfacedOverwrites (source : SurfacingSource) (x : SeenRow) : Bool :=
  (x.source = some .transportDelivered && source ≠ .transportDelivered)
    || (x.source = some .transportClaimed && (source = .hookSurfaced || source = .inboxPoll))

/-- `record_recipient_surfaced`。伝言の有無は見ない。 -/
def recordRecipientSurfaced (db : PromptDb) (now : Time) (id : Nat) (recipient : String)
    (source : SurfacingSource) : PromptDb :=
  if nonBlank recipient then
    db.upsertSeen { promptId := id, recipient, seenAt := now, source := some source }
      (surfacedOverwrites source)
  else db

/-- 渡した時刻を予約に書く。`record_recipient_transport_delivered` の二つ目の文。 -/
def markClaimDelivered (db : PromptDb) (now : Time) (id : Nat) (recipient : String) : PromptDb :=
  db.updateSeen (fun x => x.key = (id, recipient) && x.source = some .transportClaimed) fun x =>
    { x with deliveredAt := x.deliveredAt.or (some now) }

/-- 読んだときの伝言と同じ行である。 -/
def sameMessage (current expected : PromptRow) : Bool :=
  current.target ≠ allWorkers && current.target = expected.target
    && current.source = expected.source && current.prompt = expected.prompt
    && current.createdAt = expected.createdAt && current.factorySession = expected.factorySession
    && current.origin = expected.origin && current.ackedAt.isNone

/-- `record_transcript_consumed`。 -/
def recordTranscriptConsumed (db : PromptDb) (now : Time) (expected : PromptRow) : PromptDb :=
  if (db.find? expected.id).any (sameMessage · expected) then
    db.upsertSeen
      { promptId := expected.id, recipient := expected.target, seenAt := now
        source := some .observedWake }
      fun x => x.source = some .transportDelivered || x.source = some .transportClaimed
  else db

/-- `claim_teams_body_fallback`。 -/
def claimTeamsBodyFallback (db : PromptDb) (now : Time) (id : Nat) (recipient : String) : PromptDb :=
  db.updateSeen (fun x => x.key = (id, recipient) && x.teamsBodyFallbackAt.isNone
      && (x.source = some .transportClaimed || x.source = some .transportDelivered)
      && (db.acks.find? x.key).isNone
      && (db.find? id).any fun r => r.target = allWorkers || r.ackedAt.isNone) fun x =>
    { x with teamsBodyFallbackAt := some now }

/-- `release_teams_body_fallback`。 -/
def releaseTeamsBodyFallback (db : PromptDb) (id : Nat) (recipient : String) : PromptDb :=
  db.updateSeen (fun x => x.key = (id, recipient)) fun x => { x with teamsBodyFallbackAt := none }

/-- `settle_polled_rows` の一つの文。poll の見せ方の控えで、証拠は変えない。 -/
def settlePolled (db : PromptDb) (id : Nat) (recipient reason : String) : PromptDb :=
  db.updateSeen (fun x => x.key = (id, recipient) && x.source = some .inboxPoll) fun x =>
    { x with pollSettled := some reason }

/-! ## 宛先の引き継ぎ -/

/-- 渡り終えていない予約。 -/
def unfinishedClaim (x : SeenRow) : Bool := openClaim x && x.deliveredAt.isNone

/-- 終わった supervisor の宛名。 -/
def predecessorNames (predecessor : String) : List String := [predecessor, "supervisor"]

/-- `retarget_operator_rows_to_successor` の拾う行。 -/
def retargetable (db : PromptDb) (w : Surroundings) (predecessor : String) (session : Option String)
    (r : PromptRow) : Bool :=
  r.processedAt.isNone && r.ackedAt.isNone && r.transportDeliveredAt.isNone
    && ((match r.origin with | some (.pairedDevice _) => r.operatorVerified | _ => false)
      || (r.origin = some .daemon && (startsWithText "violet-activity:" r.source
        || startsWithText "violet-watch:" r.source)))
    && (r.target = predecessor || (r.target = "supervisor" && session.isSome))
    && r.factorySession = session
    && !(db.seen.rows.any fun x => x.promptId = r.id
      && (predecessorNames predecessor).contains x.recipient && !unfinishedClaim x)
    && !(db.transport.rows.any fun t => t.promptId = r.id)
    && !(w.agents.any fun agents => agents.any fun a => a.name = predecessor
      && a.factorySession = r.factorySession && a.status.isLive)

/-- 一つの伝言を後任に宛て直す。 -/
def retargetRow (predecessor successor : String) (successorSession : Option String) (db : PromptDb)
    (id : Nat) : PromptDb :=
  (db.deleteSeen fun x => x.promptId = id
      && (predecessorNames predecessor).contains x.recipient).updateId id
    (fun r => r.processedAt.isNone && (predecessorNames predecessor).contains r.target) fun r =>
      { r with
        target := successor
        factorySession := successorSession
        nextAttemptAt := none
        lastPendingReason := none
        lastPendingDetail := some
          s!"re-routed from ended supervisor {predecessor} to its successor {successor}"
        deferredInboxAt := none }

/-- `retarget_operator_rows_to_successor`。 -/
def retargetOperatorRows (db : PromptDb) (w : Surroundings) (predecessor : String)
    (session : Option String) (successor : String) (successorSession : Option String) : PromptDb :=
  if !nonBlank predecessor || !nonBlank successor
      || (predecessor = successor && session = successorSession) then db
  else
    ((db.rows.filter (db.retargetable w predecessor session)).map PromptRow.id).foldl
      (retargetRow predecessor successor successorSession) db

end PromptDb

end Cassy
