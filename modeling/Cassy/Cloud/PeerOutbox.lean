import Cassy.Infra.Table
import Cassy.Prompt.Db

/-!
# 相手の supervisor への送り

`peer_mailbox/outbox.rs` の `peer_message_outbox`。一行が一つの送りで、何度送り直しても cloud へは同じ鍵で送る。

* `enqueue_with_recovery` — 行を作る。同じ鍵の行があればそれを返し、求められれば、諦めた行を戻す
* `attempt` — 行を期限付きで借り、送り、答を書く。借りるのと答を書くのは別の文で、送るのはその間である
* `tick_at` — 期限の過ぎた行を諦め、送り主に知らせ、期限の来た行を送る
* `cancel_build_route` — 送り先を選ぶ相談の行を諦める

書き込みはどれも一つの文か transaction である。`reconcile_build_route` がこの表にする書き込みは `cancel_build_route` だけで
ある。
-/

namespace Cassy

open Infra

/-- `PeerScope`。 -/
inductive PeerScope where
  | project | user
  deriving DecidableEq, Repr

/-- `PeerSend`。 -/
structure PeerSend where
  projectId : String
  senderAgentId : String
  recipientAgentId : String
  body : String
  summary : Option String := none
  inReplyTo : Option String := none
  dedupeKey : String
  scope : PeerScope := .project
  recipientProjectId : Option String := none
  deriving DecidableEq, Repr

/-- `SendReceipt`。 -/
structure SendReceipt where
  id : String
  status : String
  deriving DecidableEq, Repr

/-- `agents.get` の返す送り主。番号は `PeerSend` のものである。 -/
structure PeerSender where
  name : String
  factorySession : Option String := none
  deriving DecidableEq, Repr

/-- `state` の列。 -/
inductive PeerState where
  | pending | retrying | sent | abandoned
  deriving DecidableEq, Repr

/-- `state IN ('pending','retrying')`。 -/
def PeerState.isOpen : PeerState → Bool
  | pending | retrying => true
  | sent | abandoned => false

/-- `peer_message_outbox` の行。`requestKey` は呼び手の渡した鍵の控えで、表には無い。時刻は秒である。 -/
structure PeerRow where
  id : Nat
  senderAgentId : String
  senderName : String
  senderSession : Option String
  recipient : String
  payload : PeerSend
  requestKey : String
  state : PeerState := .pending
  createdAt : Int
  nextAttemptAt : Int
  attempts : Nat := 0
  cloudId : Option String := none
  lastError : Option String := none
  noticeSent : Bool := false
  deriving DecidableEq, Repr

/-- 行の変わらない列。 -/
def PeerRow.stem (r : PeerRow) : Nat × String × PeerSend × String :=
  (r.id, r.senderAgentId, r.payload, r.requestKey)

/-- 同じ送りを引く組。送り主、宛先、鍵。 -/
def PeerRow.slot (r : PeerRow) : String × String × String :=
  (r.senderAgentId, r.payload.recipientAgentId, r.payload.dedupeKey)

/-- 呼び手の引く組。 -/
def PeerSend.slot (m : PeerSend) : String × String × String :=
  (m.senderAgentId, m.recipientAgentId, m.dedupeKey)

/-! ## 表 -/

/-- 表。`nextId` は `AUTOINCREMENT` の次の番号。 -/
structure PeerOutbox where
  table : Table PeerRow.id
  nextId : Nat
  fresh : ∀ r ∈ table.rows, r.id < nextId

namespace PeerOutbox

/-- 行の列。 -/
abbrev rows (o : PeerOutbox) : List PeerRow := o.table.rows

/-- 行の無い表。 -/
def empty : PeerOutbox where
  table := Table.empty
  nextId := 1
  fresh := by simp [Table.empty]

/-- `UPDATE peer_message_outbox SET f WHERE p`。 -/
def update (o : PeerOutbox) (p : PeerRow → Bool) (f : PeerRow → PeerRow)
    (hf : ∀ r, (f r).id = r.id := by exact fun _ => rfl) : PeerOutbox where
  table := o.table.update p f hf
  nextId := o.nextId
  fresh := by
    intro r hr
    obtain ⟨r₀, hr₀, rfl⟩ := Table.mem_update.mp hr
    have hlt := o.fresh r₀ hr₀
    split
    · rw [hf]
      exact hlt
    · exact hlt

/-- 次の番号で一行を足す。 -/
def insert (o : PeerOutbox) (row : Nat → PeerRow) (hid : ∀ n, (row n).id = n) : PeerOutbox where
  table :=
    { rows := o.rows ++ [row o.nextId]
      nodup := by
        rw [List.map_append, List.map_singleton]
        refine List.nodup_append.mpr ⟨o.table.nodup, List.nodup_singleton _, ?_⟩
        intro a ha b hb
        obtain ⟨r, hr, rfl⟩ := List.mem_map.mp ha
        rw [List.mem_singleton.mp hb, hid]
        exact Nat.ne_of_lt (o.fresh r hr) }
  nextId := o.nextId + 1
  fresh := by
    intro r hr
    rcases List.mem_append.mp hr with hr | hr
    · exact Nat.lt_succ_of_lt (o.fresh r hr)
    · rw [List.mem_singleton.mp hr, hid]
      exact Nat.lt_succ_self _

theorem eq_of_id {o : PeerOutbox} {r r' : PeerRow} (hr : r ∈ o.rows) (hr' : r' ∈ o.rows)
    (h : r.id = r'.id) : r = r' :=
  Table.eq_of_key hr hr' h

theorem mem_update {o : PeerOutbox} {p : PeerRow → Bool} {f : PeerRow → PeerRow}
    {hf : ∀ r, (f r).id = r.id} {r' : PeerRow} :
    r' ∈ (o.update p f hf).rows ↔ ∃ r ∈ o.rows, (if p r then f r else r) = r' :=
  List.mem_map

theorem mem_insert {o : PeerOutbox} {row : Nat → PeerRow} {hid : ∀ n, (row n).id = n} {r : PeerRow} :
    r ∈ (o.insert row hid).rows ↔ r ∈ o.rows ∨ r = row o.nextId := by
  show r ∈ o.rows ++ [row o.nextId] ↔ _
  rw [List.mem_append, List.mem_singleton]

/-! ## 行を作る -/

/-- 呼び手が鍵を渡さないときの鍵。`digest` は `(sender, recipient, id)` の JSON の SHA-256 である。 -/
def generatedKey (digest : String → String → Nat → String) (m : PeerSend) (id : Nat) : String :=
  "peer:" ++ String.ofList (m.senderAgentId.toList.take 64) ++ ":"
    ++ digest m.senderAgentId m.recipientAgentId id

/-- 番号の決まった後の中身。 -/
def keyed (digest : String → String → Nat → String) (m : PeerSend) (id : Nat) : PeerSend :=
  if m.dedupeKey = "" then { m with dedupeKey := generatedKey digest m id } else m

/-- 新しい行。 -/
def newRow (digest : String → String → Nat → String) (sender : PeerSender) (m : PeerSend)
    (recipient : String) (now : Int) (id : Nat) : PeerRow where
  id := id
  senderAgentId := m.senderAgentId
  senderName := sender.name
  senderSession := sender.factorySession
  recipient := recipient
  payload := keyed digest m id
  requestKey := m.dedupeKey
  createdAt := now
  nextAttemptAt := now

/-- 同じ鍵の行。鍵の無い送りは、どの行とも同じでない。 -/
def existing (o : PeerOutbox) (m : PeerSend) : Option PeerRow :=
  if m.dedupeKey = "" then none else o.rows.find? fun r => r.slot = m.slot

/-- 90 秒のうちに同じ宛先へ出した相談がある。 -/
def buildRouteOccupied (o : PeerOutbox) (m : PeerSend) (now : Int) : Bool :=
  o.rows.any fun r => now - 90 < r.createdAt && likeStart "build-route:" r.payload.dedupeKey
    && r.payload.recipientAgentId = m.recipientAgentId

/-- 諦めた行を戻す文。 -/
def recover (o : PeerOutbox) (id : Nat) (now : Int) : PeerOutbox :=
  o.update (fun r => r.id = id && r.state = .abandoned) fun r =>
    { r with state := .pending, createdAt := now, nextAttemptAt := now, lastError := none }

/-- 呼び手が戻してよい行。 -/
def recovers (recoverAbandoned : Bool) (r : PeerRow) : Bool :=
  recoverAbandoned && r.state = .abandoned && r.cloudId.isNone

end PeerOutbox

/-- 一歩の答え。 -/
inductive PeerOutcome where
  | queued (id : Nat)
  | duplicate (id : Nat) (cloudId : String)
  | cooldown (recipient : String)
  | claimed (attempt : Nat)
  | done
  deriving DecidableEq, Repr

namespace PeerOutbox

/-- `enqueue_with_recovery` の transaction。送るのはこの後の `attempt` である。 -/
def enqueueWithRecovery (digest : String → String → Nat → String) (o : PeerOutbox)
    (sender : PeerSender) (m : PeerSend) (recipient : String) (recoverAbandoned : Bool) (now : Int) :
    PeerOutcome × PeerOutbox :=
  match o.existing m with
  | some r =>
    (match r.cloudId with
      | some cloudId => .duplicate r.id cloudId
      | none => .queued r.id,
      if recovers recoverAbandoned r then o.recover r.id now else o)
  | none =>
    if startsWithText "build-route:" m.dedupeKey && o.buildRouteOccupied m now then
      (.cooldown recipient, o)
    else (.queued o.nextId, o.insert (newRow digest sender m recipient now) fun _ => rfl)

/-! ## 送る -/

/-- `SEND_LEASE_SECS`。 -/
def sendLeaseSecs : Int := 120

/-- `OUTBOX_TTL_SECS`。 -/
def outboxTtlSecs : Int := 15 * 60

/-- 借りてよい行。 -/
def due (id : Nat) (now : Int) (r : PeerRow) : Bool :=
  r.id = id && r.state.isOpen && r.nextAttemptAt ≤ now && now - outboxTtlSecs < r.createdAt

/-- 行を借りる文。 -/
def lend (o : PeerOutbox) (id : Nat) (now : Int) : PeerOutbox :=
  o.update (due id now) fun r =>
    { r with
      state := .retrying
      attempts := r.attempts + 1
      nextAttemptAt := now + sendLeaseSecs }

/-- 送っている一つの試み。`attempt` は借りたときの `attempts` である。 -/
structure Flight where
  id : Nat
  attempt : Nat
  message : PeerSend
  now : Int
  deriving DecidableEq, Repr

/-- `RETURNING payload,attempts` で受け取る試み。数が `u32` に収まらなければ、読み出しで落ちる。 -/
def flightOf (o : PeerOutbox) (id : Nat) (now : Int) : Option Flight :=
  ((o.rows.find? (due id now)).filter fun r => r.attempts + 1 < 2 ^ 32).map fun r =>
    ⟨r.id, r.attempts + 1, r.payload, now⟩

/-- `retryable`。 -/
def retryable (cause : String) : Bool :=
  !containsText "not logged in" cause
    && !(List.range' 400 100).any fun code =>
      code ≠ 408 && code ≠ 429 && containsText s!"({code})" cause

/-- `BUILD_ROUTE_SEND_ATTEMPTS`。 -/
def buildRouteSendAttempts : Nat := 3

/-- 送り損ねた後の状態。 -/
def failedState (f : Flight) (cause : String) : PeerState :=
  if retryable cause
      && !(startsWithText "build-route:" f.message.dedupeKey && buildRouteSendAttempts ≤ f.attempt) then
    .retrying
  else .abandoned

/-- 次に試すまでの秒数。 -/
def retryDelay (attempt : Nat) : Int := (min (5 * 2 ^ min (attempt - 1) 3) 30 : Nat)

/-- 答を書いてよい行。 -/
def awaits (f : Flight) (r : PeerRow) : Bool :=
  r.id = f.id && r.state = .retrying && r.attempts = f.attempt

/-- 答を書く文。 -/
def settle (o : PeerOutbox) (f : Flight) : Except String SendReceipt → PeerOutbox
  | .ok receipt =>
    o.update (awaits f) fun r => { r with state := .sent, cloudId := some receipt.id, lastError := none }
  | .error cause =>
    o.update (awaits f) fun r =>
      { r with
        state := failedState f cause
        lastError := some cause
        nextAttemptAt := f.now + retryDelay f.attempt }

/-! ## 諦める -/

/-- 期限の過ぎた行。 -/
def expired (now : Int) (r : PeerRow) : Bool :=
  r.state.isOpen && r.createdAt ≤ now - outboxTtlSecs && r.nextAttemptAt ≤ now

/-- `tick_at` の最初の文。 -/
def sweep (o : PeerOutbox) (now : Int) : PeerOutbox :=
  o.update (expired now) fun r =>
    { r with
      state := .abandoned
      lastError := some (r.lastError.getD "mailbox unavailable" ++ "; retry TTL expired") }

/-- `cancel_build_route` の選ぶ行。 -/
def cancellable (sender key : String) (r : PeerRow) : Bool :=
  r.senderAgentId = sender && r.payload.dedupeKey = key && r.cloudId.isNone && r.state.isOpen

/-- `cancel_build_route`。 -/
def cancelBuildRoute (o : PeerOutbox) (sender key : String) : PeerOutbox :=
  o.update (cancellable sender key) fun r =>
    { r with
      state := .abandoned
      lastError := some "build route expired; local admission restored" }

/-- 送り主に知らせたことを書く文。 -/
def noticed (o : PeerOutbox) (id : Nat) : PeerOutbox :=
  o.update (fun r => r.id = id) fun r => { r with noticeSent := true }

end PeerOutbox

/-! ## 一歩 -/

/-- 表と、送っている試み。`flights` は process ごとである。 -/
structure PeerWorld where
  outbox : PeerOutbox := .empty
  flights : Nat → Option PeerOutbox.Flight := fun _ => none

/-- 一つの文、cloud の答え、process の落ちること。 -/
inductive PeerAct where
  | enqueue (sender : PeerSender) (message : PeerSend) (recipient : String) (recoverAbandoned : Bool)
      (now : Int)
  | claim (pid id : Nat) (now : Int)
  | answer (pid : Nat) (result : Except String SendReceipt)
  | crash (pid : Nat)
  | sweep (now : Int)
  | cancelBuildRoute (sender key : String)
  | noticed (id : Nat)

/-- 試みを持つ process の一歩。 -/
def PeerAct.pid? : PeerAct → Option Nat
  | claim pid _ _ | answer pid _ | crash pid => some pid
  | _ => none

/-- 一歩。試みの途中の process は、ほかの行を借りない。 -/
def peerStep (digest : String → String → Nat → String) (s : PeerWorld) :
    PeerAct → PeerOutcome × PeerWorld
  | .enqueue sender message recipient recoverAbandoned now =>
    let (outcome, o) := s.outbox.enqueueWithRecovery digest sender message recipient recoverAbandoned now
    (outcome, { s with outbox := o })
  | .claim pid id now =>
    match s.flights pid with
    | some _ => (.done, s)
    | none =>
      let flight := s.outbox.flightOf id now
      (match flight with
        | some f => .claimed f.attempt
        | none => .done,
        { outbox := s.outbox.lend id now, flights := Function.update s.flights pid flight })
  | .answer pid result =>
    match s.flights pid with
    | none => (.done, s)
    | some f =>
      (.done, { outbox := s.outbox.settle f result, flights := Function.update s.flights pid none })
  | .crash pid => (.done, { s with flights := Function.update s.flights pid none })
  | .sweep now => (.done, { s with outbox := s.outbox.sweep now })
  | .cancelBuildRoute sender key => (.done, { s with outbox := s.outbox.cancelBuildRoute sender key })
  | .noticed id => (.done, { s with outbox := s.outbox.noticed id })

end Cassy
