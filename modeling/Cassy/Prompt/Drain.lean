import Cassy.Prompt.Receipts

/-!
# 伝言を見せる

`drain_unseen_for_recipient_budgeted` と、それを呼ぶ公開の関数。宛先の `inbox_poll` と、turn の境目の hook が
伝言を取り出す経路は、すべてこの一つの関数を通る。違いは、どの受領の行を取り出してよいか
（`TransportEligibility`）と、どの経路として受領を書くかだけである。

関数はまず lock を取らずに同じ問い合わせを走らせ、一行も無ければ何もしない。あれば `BEGIN IMMEDIATE` の中で
選び直し、用済みの中継を片付け、予算に収まる分にだけ受領を書き、段階を進める。
-/

namespace Cassy

open Infra

/-! ## 取り出しの種類 -/

/-- `TransportEligibility`。 -/
inductive TransportEligibility where
  | any
  | noneRecorded
  | after (turnStart : Time)
  | wakeNamed
  | polledBefore (turnStart : Time)
  | namedRead
  | noticeDigest
  deriving DecidableEq, Repr

/-- `HookDrain`。 -/
inductive HookDrain where
  | unseen
  | withoutTransport
  | deliveredAfter (turnStart : Time)
  | wakeNamed (ids : List Nat)
  | polledBefore (turnStart : Time)
  | noticeDigest
  deriving DecidableEq, Repr

/-- `drain_unseen_for_recipient_budgeted` の引数。 -/
structure DrainRequest where
  recipient : String
  factorySession : Option String
  limit : Nat
  source : SurfacingSource
  sourceFilter : Option (List String) := none
  transport : TransportEligibility
  onlyIds : List Nat := []
  budgetChars : Option Nat := none
  deriving DecidableEq, Repr

/-- `poll_unseen_for_recipient`。 -/
def pollUnseenForRecipient (recipient : String) (session : Option String) (limit : Nat) :
    DrainRequest where
  recipient := recipient
  factorySession := session
  limit := limit
  source := .inboxPoll
  transport := .any

/-- `poll_named_for_recipient`。 -/
def pollNamedForRecipient (recipient : String) (session : Option String) (ids : List Nat) :
    DrainRequest where
  recipient := recipient
  factorySession := session
  limit := ids.length
  source := .inboxPoll
  transport := .namedRead
  onlyIds := ids

/-- hook の取り出しに共通の形。 -/
def surfaceWith (recipient : String) (session : Option String) (limit : Nat)
    (transport : TransportEligibility) : DrainRequest where
  recipient := recipient
  factorySession := session
  limit := limit
  source := .hookSurfaced
  transport := transport

/-- `surface_unseen_for_recipient`。 -/
def surfaceUnseenForRecipient (recipient : String) (session : Option String) (limit : Nat) :
    DrainRequest :=
  surfaceWith recipient session limit .any

/-- `surface_unseen_for_recipient_without_transport_delivery`。 -/
def surfaceUnseenWithoutTransportDelivery (recipient : String) (session : Option String)
    (limit : Nat) : DrainRequest :=
  surfaceWith recipient session limit .noneRecorded

/-- `surface_unseen_for_recipient_delivered_after`。 -/
def surfaceUnseenDeliveredAfter (recipient : String) (session : Option String) (limit : Nat)
    (turnStart : Time) : DrainRequest :=
  surfaceWith recipient session limit (.after turnStart)

/-- `surface_wake_named_for_recipient`。 -/
def surfaceWakeNamedForRecipient (recipient : String) (session : Option String) (ids : List Nat) :
    DrainRequest :=
  { surfaceWith recipient session ids.length .wakeNamed with onlyIds := ids }

/-- `surface_unseen_from_sources_for_recipient`。 -/
def surfaceUnseenFromSources (recipient : String) (session : Option String) (sources : List String)
    (limit : Nat) : DrainRequest :=
  { surfaceWith recipient session limit .any with sourceFilter := some sources }

/-- `surface_for_recipient_within_budget`。 -/
def surfaceForRecipientWithinBudget (recipient : String) (session : Option String)
    (drain : HookDrain) (limit budget : Nat) : DrainRequest :=
  match drain with
  | .unseen => { surfaceWith recipient session limit .any with budgetChars := some budget }
  | .withoutTransport =>
    { surfaceWith recipient session limit .noneRecorded with budgetChars := some budget }
  | .deliveredAfter t =>
    { surfaceWith recipient session limit (.after t) with budgetChars := some budget }
  | .wakeNamed ids =>
    { surfaceWith recipient session (min limit ids.length) .wakeNamed with
      onlyIds := ids, budgetChars := some budget }
  | .polledBefore t =>
    { surfaceWith recipient session limit (.polledBefore t) with budgetChars := some budget }
  -- digest は一行に畳んで見せるので、予算に数えない
  | .noticeDigest => surfaceWith recipient session limit .noticeDigest

/-- 取り出しの公開の関数。 -/
inductive DrainCall where
  | pollUnseen (recipient : String) (session : Option String) (limit : Nat)
  | pollNamed (recipient : String) (session : Option String) (ids : List Nat)
  | surfaceUnseen (recipient : String) (session : Option String) (limit : Nat)
  | surfaceWithoutTransport (recipient : String) (session : Option String) (limit : Nat)
  | surfaceDeliveredAfter (recipient : String) (session : Option String) (limit : Nat)
      (turnStart : Time)
  | surfaceWakeNamed (recipient : String) (session : Option String) (ids : List Nat)
  | surfaceFromSources (recipient : String) (session : Option String) (sources : List String)
      (limit : Nat)
  | surfaceWithinBudget (recipient : String) (session : Option String) (drain : HookDrain)
      (limit budget : Nat)
  deriving DecidableEq, Repr

/-- 呼び出しの引数。 -/
def DrainCall.request : DrainCall → DrainRequest
  | pollUnseen recipient session limit => pollUnseenForRecipient recipient session limit
  | pollNamed recipient session ids => pollNamedForRecipient recipient session ids
  | surfaceUnseen recipient session limit => surfaceUnseenForRecipient recipient session limit
  | surfaceWithoutTransport recipient session limit =>
    surfaceUnseenWithoutTransportDelivery recipient session limit
  | surfaceDeliveredAfter recipient session limit t =>
    surfaceUnseenDeliveredAfter recipient session limit t
  | surfaceWakeNamed recipient session ids => surfaceWakeNamedForRecipient recipient session ids
  | surfaceFromSources recipient session sources limit =>
    surfaceUnseenFromSources recipient session sources limit
  | surfaceWithinBudget recipient session drain limit budget =>
    surfaceForRecipientWithinBudget recipient session drain limit budget

/-- 受領に書く経路は、poll か hook である。 -/
theorem DrainCall.source_request (c : DrainCall) :
    c.request.source = .inboxPoll ∨ c.request.source = .hookSurfaced := by
  cases c with
  | pollUnseen => exact Or.inl rfl
  | pollNamed => exact Or.inl rfl
  | surfaceWithinBudget recipient session drain limit budget => cases drain <;> exact Or.inr rfl
  | _ => exact Or.inr rfl

/-! ## 取り出してよい行 -/

/-- `held_teams_claim_sql!`。Teams の写しを書いた後、turn の終わりまで据え置かれた予約。 -/
def heldTeamsClaim (r : PromptRow) (x : SeenRow) : Bool :=
  x.source = some .transportClaimed && r.transportDeliveredAt.isNone && r.deferredInboxAt.isSome
    && !r.urgent

/-- 受領の行についての条件。 -/
def TransportEligibility.receiptAllows (t : TransportEligibility) (r : PromptRow)
    (x : Option SeenRow) : Bool :=
  match t with
  | any => x.all fun x => x.source = some .transportDelivered
  | noneRecorded | noticeDigest =>
    (x.isNone && r.transportDeliveredAt.isNone) || x.any (heldTeamsClaim r)
  | after t =>
    (x.all (fun x => x.source = some .transportDelivered) && r.transportDeliveredAt.all (t < ·))
      || x.any (heldTeamsClaim r)
  | wakeNamed =>
    x.all fun x => x.source = some .transportDelivered || x.source = some .transportClaimed
  | polledBefore t =>
    (x.any fun x => x.source = some .inboxPoll && x.seenAt < t && x.pollSettled.isNone)
      && r.target ≠ allWorkers && r.ackedAt.isNone && r.assumedSeenAt.isNone
  | namedRead => x.all fun x => x.source.isSome

/-- project を止めている間は見せない中継。 -/
def actionRelays : List (String × String) :=
  [("<task-lifecycle ", "new=\"awaiting_merge\""),
    ("<task-lifecycle ", "transition=\"task_ready\""),
    ("<worker-attention ", "kind=\"supervisor_stalled\""),
    ("<worker-attention ", "kind=\"merged_close_blocked\""),
    ("", "<cas-merge-request>"),
    ("", "<cas-director-ready>"),
    ("<delivery-pr-merged ", "")]

/-- `is_action_relay`。 -/
def isActionRelay (prompt : String) : Bool :=
  actionRelays.any fun rule => startsWithText rule.1 prompt && containsText rule.2 prompt

namespace PromptDb

/-- この session の supervisor の名前。 -/
def isSupervisorName (w : Surroundings) (r : PromptRow) (name : String) : Bool :=
  name = "supervisor" || w.agents.any fun agents => agents.any fun a =>
    a.name = name && a.role = .supervisor
      && (r.factorySession.isNone || a.factorySession = r.factorySession)

/-- `broadcast_audience_sql`。放送は、送り主自身と、後から登録した宛先と、新しい放送のあるときには見せない。 -/
def inAudience (db : PromptDb) (w : Surroundings) (recipient : String) (r : PromptRow) : Bool :=
  r.target ≠ allWorkers
    || (r.source ≠ recipient
      && !(isSupervisorName w r recipient && isSupervisorName w r r.source)
      && (r.sticky || !(w.agents.any fun agents => agents.any fun a => a.name = recipient
        && (r.factorySession.isNone || a.factorySession = r.factorySession)
        && r.createdAt < a.registeredAt))
      && !(r.supersedeKey.isSome && db.rows.any fun newer => newer.target = allWorkers
        && newer.supersedeKey = r.supersedeKey && r.id < newer.id
        && newer.factorySession.getD "" = r.factorySession.getD ""
        && stageDeliverable newer.highestStage))

/-- 名指しの読み出しが拾う段階。期限切れの掃除が打ち切った行も拾う。 -/
def stageReadable (named : Bool) (r : PromptRow) : Bool :=
  stageDeliverable r.highestStage
    || (named && stageIs r.highestStage .abandoned
      && r.lastPendingDetail.any (containsText "(cas-d047)"))

/-- 予算や wake の外で、hook が本文を描く取り出し。 -/
def renders (req : DrainRequest) : Bool :=
  req.source = .hookSurfaced && !(req.transport = .wakeNamed && req.budgetChars.isNone)

/-- 空白を落とし、小文字にした送り主の名前。空のものは除く。 -/
def normalizedSources (sources : List String) : List Text :=
  (sources.map fun s => (trim s.toList).map toAsciiLower).filter (· ≠ [])

/-- 問い合わせの文。期限と、project を止める指示は、文を組み立てたときのものである。 -/
structure DrainQuery where
  request : DrainRequest
  staleCutoff : Time
  held : Bool

/-- `WHERE` の条件。 -/
def eligible (db : PromptDb) (w : Surroundings) (q : DrainQuery) (r : PromptRow) : Bool :=
  let req := q.request
  let named := req.transport = .namedRead
  req.transport.receiptAllows r (db.receipt? r.id req.recipient)
    && (named || ((r.target = allWorkers || !r.explicitlyAcked)
      && (db.acks.find? (r.id, req.recipient)).isNone))
    && (named || q.staleCutoff ≤ r.createdAt) && stageReadable named r
    && (named || !isRecoveryReference r)
    && !(req.source = .hookSurfaced && r.origin = some .daemon && r.kind = some .workerStallNudge)
    && (if req.transport = .noticeDigest then isDigest r
      else !(req.source = .hookSurfaced && isDigest r))
    && !(q.held && isActionRelay r.prompt)
    && r.addressedTo req.recipient && db.inAudience w req.recipient r
    && !(renders req && db.seen.rows.any fun fb => fb.promptId = r.id
      && fb.teamsBodyFallbackAt.isSome && (r.target ≠ allWorkers || fb.recipient = req.recipient))
    && (req.sourceFilter.all fun sources =>
      (normalizedSources sources).contains (r.source.toList.map toAsciiLower))
    && (req.onlyIds.isEmpty || req.onlyIds.contains r.id)
    && (r.factorySession.isNone || (req.factorySession.isSome && r.factorySession = req.factorySession))

/-- `INBOX_POLL_ORDER_SQL`。渡していない行を優先順位と古い順に、渡した行を新しい順に並べる。 -/
def inboxPollOrder (a b : PromptRow) : Bool :=
  match a.processedAt, b.processedAt with
  | none, some _ => true
  | some _, none => false
  | none, none => deliveryOrder a b
  | some t, some u =>
    a.priority.toNat < b.priority.toNat
      || (a.priority = b.priority && (u < t || (t = u && b.id ≤ a.id)))

/-- 問い合わせの結果。 -/
def drainSelection (db : PromptDb) (w : Surroundings) (q : DrainQuery) : List PromptRow :=
  let order (a b : PromptRow) : Bool :=
    if q.request.source = .inboxPoll then inboxPollOrder a b else deliveryOrder a b
  ((db.rows.filter (db.eligible w q)).insertionSort fun a b => order a b).take q.request.limit

/-! ## 用済みの中継 -/

/-- `LIFECYCLE_DELIVERY_WINDOW_SECS`。 -/
def lifecycleDeliveryWindowSecs : Int := 9 * 60

/-- 空白で区切った語。 -/
def words (t : Text) : List Text := (t.splitOnP isWhitespace).filter (· ≠ [])

/-- 遅れの理由。160 字で切る。 -/
def delayCause (holding : Option String) : String :=
  match holding with
  | none => "cause unrecorded"
  | some detail =>
    let text := List.intercalate [' '] (words detail.toList)
    "held: " ++ String.ofList (if text.length > 160 then text.take 160 ++ ['…'] else text)

/-- 遅れて見せる中継の要約に、遅れを書き添える。 -/
def withDelay (now : Time) (w : Surroundings) (r : PromptRow) : PromptRow :=
  let ageSecs := max ((now - r.createdAt).tdiv (seconds 1)) 0
  if (startsWithText "lifecycle:" r.source || startsWithText "lifecycle-wake:" r.source)
      && (w.lifecycleEnvelope r.prompt).isSome && lifecycleDeliveryWindowSecs ≤ ageSecs then
    { r with
      summary := some (r.summary.getD "task lifecycle"
        ++ s!" [delayed {ageSecs / 60}m; {delayCause r.holdingDetail}]") }
  else r

/-- 用済みの中継を閉じる。段階の進んだ行は段階をそのままに、確認だけを書く。 -/
def expireRelay (db : PromptDb) (now : Time) (notices : Nat → List AbandonNotice) (w : Surroundings)
    (r : PromptRow) (detail : String) : Except StoreError PromptDb := do
  let stage ← db.readHighestStage r.id
  let stage := if DeliveryStage.suppressed.rank ≤ stage.rank then stage else .suppressed
  let db ← db.atomicStageStampInTx now (notices r.id) r.id stage
    { reason := some .supersededStale, detail := some detail, setProcessed := true }
  let via : AckedVia :=
    if (w.lifecycleEnvelope r.prompt).isSome then .terminalTaskReconciled else .relayExpired
  return db.setAcked now r.id via

/-- `expire_supervisor_relays_in_tx`。残った行を返す。 -/
def expireSupervisorRelays (now : Time) (notices : Nat → List AbandonNotice) (w : Surroundings) :
    List PromptRow → PromptDb → Except StoreError (List PromptRow × PromptDb)
  | [], db => .ok ([], db)
  | r :: rest, db =>
    match w.relayExpiryReason r with
    | some detail => do
      let db ← db.expireRelay now notices w r detail
      expireSupervisorRelays now notices w rest db
    | none => do
      let (current, db) ← expireSupervisorRelays now notices w rest db
      return (withDelay now w r :: current, db)

/-! ## 見せる形 -/

/-- 返す伝言。`referenceOnly` なら本文を持たない。 -/
structure Rendered where
  row : PromptRow
  referenceOnly : Bool
  deriving DecidableEq, Repr

/-- `needs_full_recovery`。 -/
def needsFullRecovery (w : Surroundings) (r : PromptRow) : Bool :=
  r.urgent || r.priority = .critical || startsWithText "verification-dispatch:" r.source
    || startsWithText "lifecycle-wake:ci-red-run:" r.source
    || startsWithText "lifecycle-wake:worker-attention:" r.source
    || containsText "<cas-blocker " r.prompt || containsText "<cas-merge-request>" r.prompt
    || (w.lifecycleEnvelope r.prompt).any fun transition => transition = some "task_blocked"
      || transition = some "task_awaiting_merge" || transition = some "task_close_rejected"

/-- 本文の代わりに番号だけを見せる。 -/
def reference (r : PromptRow) (status : String) : Rendered where
  row := { r with
    prompt := s!"Message {r.id}: {status}."
    summary := some s!"Message {r.id}: {status}" }
  referenceOnly := true

/-- 宛先の返した確認の綴り。全員宛ての行の確認は、誰の確認の代わりにもならない。 -/
def terminalStatus (db : PromptDb) (recipient : String) (r : PromptRow) : Option String :=
  match db.acks.find? (r.id, recipient) with
  | some a => some (match a.disposition with
    | .acknowledged => "acknowledged"
    | .answered => "answered")
  | none =>
    if r.target ≠ allWorkers && (db.find? r.id).any PromptRow.explicitlyAcked then
      some "acknowledged"
    else none

/-- `recipient_delivery_on_conn`。 -/
def recipientDelivery (db : PromptDb) (w : Surroundings) (recipient : String) (named : Bool)
    (r : PromptRow) : Rendered :=
  match db.terminalStatus recipient r with
  | some status => reference r status
  | none =>
    if needsFullRecovery w r || !((db.receipt? r.id recipient).any SeenRow.surfaced) || named then
      { row := r, referenceOnly := false }
    else reference r "already surfaced; not acknowledged"

/-- `hook_surface_cost`。 -/
def hookSurfaceCost (prompt : String) : Nat := (trim prompt.toList).length + 400

/-- 予算に収まる伝言と、収まらない伝言の番号。 -/
def withinBudget : Option Nat → List Rendered → List Rendered × List (Nat × Nat)
  | none, rows => (rows, [])
  | some _, [] => ([], [])
  | some left, p :: rest =>
    let cost := hookSurfaceCost p.row.prompt
    if cost ≤ left then
      let (kept, overBudget) := withinBudget (some (left - cost)) rest
      (p :: kept, overBudget)
    else
      let (kept, overBudget) := withinBudget (some left) rest
      (kept, (p.row.id, cost) :: overBudget)

/-! ## 書き込み -/

/-- 予約を引き取る取り出し。 -/
def takesClaim : TransportEligibility → Bool
  | .wakeNamed | .namedRead | .after _ | .noneRecorded => true
  | .any | .polledBefore _ | .noticeDigest => false

/-- poll の受領を hook の受領に替える取り出し。 -/
def resurfacesPoll : TransportEligibility → Bool
  | .polledBefore _ => true
  | _ => false

/-- 受領の上書きの条件。 -/
def drainOverwrites (t : TransportEligibility) (x : SeenRow) : Bool :=
  x.source = some .transportDelivered || (takesClaim t && x.source = some .transportClaimed)
    || (resurfacesPoll t && x.source = some .inboxPoll)

/-- 本文を見せた伝言に受領を書く。 -/
def writeReceipt (now : Time) (req : DrainRequest) (db : PromptDb) (p : Rendered) : PromptDb :=
  if p.referenceOnly then db
  else db.upsertSeen
    { promptId := p.row.id, recipient := req.recipient, seenAt := now, source := some req.source }
    (drainOverwrites req.transport)

/-- hook の見せた直接の伝言に確認を書く。 -/
def writeHookAck (now : Time) (db : PromptDb) (p : Rendered) : PromptDb :=
  if p.row.target = allWorkers ∨ p.referenceOnly then db
  else db.setAcked now p.row.id .hookSurfaced

/-- 直接の伝言の段階を進める。押印の失敗は取り出しを落とさない。 -/
def writeStage (now : Time) (req : DrainRequest) (db : PromptDb) (p : Rendered) : PromptDb :=
  if p.referenceOnly then db.settlePolled p.row.id req.recipient "repeat reference rendered"
  else if p.row.target = allWorkers then db
  else
    match db.atomicStageStampInTx now [] p.row.id .delivered
        (.ofReason .awaitingAck (some "consumed by recipient inbox poll")) with
    | .error _ => db
    | .ok db =>
      if req.source = .hookSurfaced then
        db.stampIgnoringError now p.row.id .confirmed
          (.ofDetail "acked by turn-start hook surfacing into the recipient's prompt")
      else db

/-- 取り出しの結果。 -/
structure Drained where
  rows : List Rendered
  overBudget : List (Nat × Nat)
  deriving DecidableEq, Repr

/-- 本文ごと見せた伝言の番号。 -/
def Drained.fullIds (d : Drained) : List Nat :=
  (d.rows.filter fun p => !p.referenceOnly).map fun p => p.row.id

/-- 取り出しの transaction の前半。見せる伝言を決める。 -/
def drainRender (db : PromptDb) (now : Time) (notices : Nat → List AbandonNotice) (w : Surroundings)
    (recoveryText : PromptRow → String) (q : DrainQuery) :
    Except StoreError (Drained × PromptDb) := do
  let req := q.request
  let named := req.transport = .namedRead
  let (current, db) ← expireSupervisorRelays now notices w (db.drainSelection w q) db
  let current := if w.projectHeld then current.filter fun r => !isActionRelay r.prompt else current
  let current := current.map fun r =>
    if named && isRecoveryReference r then { r with prompt := recoveryText r } else r
  let rendered := current.map (db.recipientDelivery w req.recipient named)
  let (kept, overBudget) := withinBudget req.budgetChars rendered
  return ({ rows := kept, overBudget }, db)

/-- 取り出しの transaction の後半。受領、確認、段階の順に書く。 -/
def drainRecord (db : PromptDb) (now : Time) (req : DrainRequest) (rows : List Rendered) :
    PromptDb :=
  let db := rows.foldl (writeReceipt now req) db
  let db := if req.source = .hookSurfaced then rows.foldl (writeHookAck now) db else db
  rows.foldl (writeStage now req) db

/-- `drain_unseen_for_recipient_budgeted` の transaction。 -/
def drainTx (db : PromptDb) (now : Time) (notices : Nat → List AbandonNotice) (w : Surroundings)
    (recoveryText : PromptRow → String) (q : DrainQuery) :
    Except StoreError (Drained × PromptDb) := do
  let (drained, db) ← db.drainRender now notices w recoveryText q
  return (drained, db.drainRecord now q.request drained.rows)

/-- 問い合わせるまでもなく空である呼び出し。 -/
def DrainRequest.isVacuous (req : DrainRequest) : Bool :=
  req.limit = 0 || req.sourceFilter.any (fun sources => (normalizedSources sources).isEmpty)
    || ((req.transport = .wakeNamed || req.transport = .namedRead) && req.onlyIds.isEmpty)

/-- 問い合わせを組み立て、lock を取らずに一度走らせる。見せる行が無ければ `none`。 -/
def drainProbe (db : PromptDb) (now : Time) (w : Surroundings) (req : DrainRequest) :
    Except StoreError (Option DrainQuery) := do
  ensure (nonBlank req.recipient) (.other "poll_unseen_for_recipient requires a recipient")
  let q : DrainQuery :=
    { request := req, staleCutoff := now - seconds promptQueueStaleTtlSecs, held := w.projectHeld }
  return if DrainRequest.isVacuous req || (db.drainSelection w q).isEmpty then none else some q

end PromptDb

/-!
## 未読の数と一覧

`count_unseen_for_recipient` と `peek_unseen_for_recipient`。取り出さずに未読を数え、並べる。二つは同じ条件
`unseen_for_recipient_predicate` を使う。

条件は `poll_unseen_for_recipient` の問い合わせとは別に組み立てられている。
-/

namespace PromptDb

/-- `unseen_for_recipient_predicate`。 -/
def unseenForRecipient (db : PromptDb) (now : Time) (w : Surroundings) (recipient : String)
    (session : Option String) (r : PromptRow) : Bool :=
  ((db.receipt? r.id recipient).all fun x => x.source = some .transportDelivered)
    && (r.target = allWorkers || !r.explicitlyAcked) && !isRecoveryReference r
    && now - seconds promptQueueStaleTtlSecs ≤ r.createdAt && stageDeliverable r.highestStage
    && r.addressedTo recipient && db.inAudience w recipient r
    && (r.factorySession.isNone || (session.isSome && r.factorySession = session))

/-- `unseen_for_recipient_summary`。未読の数と、一番古い未読の秒数。 -/
def unseenForRecipientSummary (db : PromptDb) (now : Time) (w : Surroundings) (recipient : String)
    (session : Option String) : Nat × Option Int :=
  if !nonBlank recipient then (0, none)
  else
    let unseen := db.rows.filter (db.unseenForRecipient now w recipient session)
    let oldest : Option Time := (unseen.map PromptRow.createdAt).min?
    (unseen.length, oldest.map fun created => max ((now - created).tdiv (seconds 1)) 0)

/-- `count_unseen_for_recipient`。 -/
def countUnseenForRecipient (db : PromptDb) (now : Time) (w : Surroundings) (recipient : String)
    (session : Option String) : Nat :=
  (db.unseenForRecipientSummary now w recipient session).1

/-- `peek_unseen_for_recipient`。 -/
def peekUnseenForRecipient (db : PromptDb) (now : Time) (w : Surroundings) (recipient : String)
    (session : Option String) (limit : Nat) : List PromptRow :=
  if !nonBlank recipient || limit = 0 then []
  else
    ((db.rows.filter (db.unseenForRecipient now w recipient session)).insertionSort
      fun a b => a.id ≤ b.id).take limit

/-- 間に他の書き込みの入らない `poll_unseen_for_recipient`。 -/
def pollUnseen (db : PromptDb) (now : Time) (notices : Nat → List AbandonNotice) (w : Surroundings)
    (recoveryText : PromptRow → String) (recipient : String) (session : Option String)
    (limit : Nat) : Except StoreError (Drained × PromptDb) := do
  match ← db.drainProbe now w (pollUnseenForRecipient recipient session limit) with
  | none => .ok ({ rows := [], overBudget := [] }, db)
  | some q => db.drainTx now notices w recoveryText q

end PromptDb

end Cassy
