import Cassy.Prompt.Machine

/-!
# 伝言を片づける

片づけは三つある。`prune_terminal_batch`、それを繰り返す `prune_terminal_older_than`、`cleanup_old` である。どれも
渡し終えて古くなった伝言を消すが、残す行の見分けが違う。

`dedupe_key` の一意な索引は、同じ出来事の伝言を二度足さないための台帳でもある。行を消せば鍵も空く。

`supervisor_queue` と `operator_delivery_outbox` は、片づけが読むだけの表である。前者は通知の番号と、渡した印だけを持つ。後者は、
まだ保管されていない伝言の番号だけを持つ。
-/

namespace Cassy

open Infra PromptDb

/-! ## 通知の表 -/

/-- SQLite の空白。 -/
def sqliteSpace (c : Char) : Bool := c = ' ' || (0x9 ≤ c.toNat && c.toNat ≤ 0xD)

/-- 先頭の数字の列の値。 -/
def leadingDigits (t : Text) : Nat :=
  (t.takeWhile Char.isDigit).foldl (fun n c => 10 * n + (c.toNat - '0'.toNat)) 0

/-- `CAST(t AS INTEGER)`。空白の後の、整数と読める一番長い頭である。越えた値は端に止まる。 -/
def castInteger (t : Text) : Int :=
  match t.dropWhile sqliteSpace with
  | '-' :: ds => max (-(leadingDigits ds : Int)) (-2 ^ 63)
  | '+' :: ds => min (leadingDigits ds : Int) (2 ^ 63 - 1)
  | ds => min (leadingDigits ds : Int) (2 ^ 63 - 1)

/-- `supervisor_queue` の行。`delivered` は `prompt_delivered_at IS NOT NULL`。 -/
structure SupervisorNotification where
  id : Int
  delivered : Bool
  deriving DecidableEq, Repr

/-- `supervisor_queue`。`hasDeliveryMarker` は、渡した印の列があるか。 -/
structure SupervisorQueue where
  hasDeliveryMarker : Bool
  rows : List SupervisorNotification
  deriving DecidableEq, Repr

/-- outbox の鍵か。 -/
def outboxKey (key : String) : Bool :=
  likeStart "lifecycle-outbox:" key || likeStart "worker-died-outbox:" key
    || likeStart "worker-attention-outbox:" key

/-- 鍵の名指す通知。`substr(key, instr(key, ':') + 1)` を数と読む。 -/
def outboxNotification (key : String) : Int :=
  match key.toList.dropWhile (· ≠ ':') with
  | [] => castInteger key.toList
  | _ :: t => castInteger t

/-- 鍵の名指す通知が、もう渡ったか、無い。印の列が無ければ、無いことしか分からない。 -/
def outboxReleased (queue : Option SupervisorQueue) (key : String) : Bool :=
  queue.all fun q => !q.rows.any fun n =>
    n.id = outboxNotification key && (!q.hasDeliveryMarker || !n.delivered)

/-! ## 台帳を使う操作 -/

/-- 伝言の表と、片づけの読む二つの表。 -/
structure RetentionState where
  db : PromptDb
  supervisorQueue : Option SupervisorQueue := none
  /-- `operator_delivery_outbox` で `retained_at IS NULL` の伝言。 -/
  unretained : List Nat := []

namespace RetentionState

/-- 通知の渡ったか消えた outbox の鍵。 -/
def released (s : RetentionState) (key : String) : Bool :=
  outboxKey key && outboxReleased s.supervisorQueue key

/-- `prune_terminal_batch` の消してよい行。 -/
def releasable (s : RetentionState) (r : PromptRow) : Bool :=
  r.dedupeKey.all s.released && !s.unretained.contains r.id

/-- `prune_terminal_batch` が選ぶ番号。若い番号から `batch` 個。 -/
def terminalIds (s : RetentionState) (cutoff : Time) (batch : Nat) : List Nat :=
  (((s.db.rows.filter fun r => r.processedAt.any (· < cutoff) && s.releasable r).map
    PromptRow.id).insertionSort (· ≤ ·)).take batch

/-- 一つの transaction で消す。消した数を返す。 -/
def pruneBatch (s : RetentionState) (cutoff : Time) (batch : Nat) : Nat × RetentionState :=
  let ids := s.terminalIds cutoff batch
  (ids.length, { s with db := s.db.pruneTerminalBatch cutoff s.releasable ids })

end RetentionState

/-- `RETENTION_MAX_BATCH`。 -/
def retentionMaxBatch : Nat := 1000

/-- `PromptRetentionSweep`。`retainedEpisodeRows` は、鍵のために残した古い行の数である。 -/
structure PromptRetentionSweep where
  pruned : Nat
  retainedEpisodeRows : Nat
  deriving DecidableEq, Repr

/-- 台帳を使う操作の答え。 -/
inductive RetentionOutcome where
  | done
  | created (id : Nat)
  | alreadyExists (id : Nat)
  | removed (rows : Nat)
  | swept (sweep : PromptRetentionSweep)
  | failed (e : StoreError)
  deriving DecidableEq, Repr

namespace RetentionState

/-- `target.trim().eq_ignore_ascii_case("operator")`。 -/
def operatorTarget (target : String) : Bool := eqIgnoreAsciiCase (trim target.toList) "operator".toList

/-- 伝言の行。operator 宛ての伝言は `record_operator_turn` で足す。そこでは空の鍵を断る。 -/
def insertKeyed (db : PromptDb) (p : NewPrompt) : Except StoreError (EnqueueOutcome × PromptDb) :=
  if operatorTarget p.target then do
    ensure (p.dedupeKey.all nonBlank = true)
      (.other "operator turn metadata cannot contain empty identifiers")
    db.insertCompleteOperatorTurn p none
  else .ok (db.enqueue p)

/--
`enqueue_idempotent_urgent`。鍵の立っている間は足さない。operator 宛ての伝言は、配達の控えも一緒に書く。
-/
def enqueueIdempotent (s : RetentionState) (p : NewPrompt) (key : String) :
    Except StoreError (RetentionOutcome × RetentionState) := do
  ensure (¬ (operatorTarget p.target = true ∧ (p.factorySession.all fun f => !nonBlank f) = true))
    (.other "a Commander turn (target='operator') must name the factory session it belongs to")
  let p := { p with dedupeKey := some key }
  let (outcome, db) ← insertKeyed s.db p
  match outcome with
  | .suppressedDuplicate id => return (.alreadyExists id, { s with db })
  | .created id =>
    let unretained := if operatorTarget p.target then id :: s.unretained else s.unretained
    return (.created id, { s with db, unretained })

/-- `prune_terminal_batch`。 -/
def pruneTerminalBatch (s : RetentionState) (now : Time) (olderThanSecs : Int) (batch : Nat) :
    Except StoreError (Nat × RetentionState) := do
  ensure (0 < olderThanSecs) (.other "prune_terminal_batch requires a positive window")
  return s.pruneBatch (now - seconds olderThanSecs) (min (max batch 1) retentionMaxBatch)

/-- 埋まらない組が出るまで繰り返す。`i` 番目の組は時刻 `clock i` を読む。 -/
def pruneLoop (clock : Nat → Time) (olderThanSecs : Int) :
    Nat → RetentionState → Nat × RetentionState
  | 0, s => (0, s)
  | n + 1, s =>
    let (deleted, s') := s.pruneBatch (clock n - seconds olderThanSecs) retentionMaxBatch
    if deleted < retentionMaxBatch then (deleted, s')
    else
      let (rest, s'') := pruneLoop clock olderThanSecs n s'
      (deleted + rest, s'')

/-- 古いのに残っている、鍵のある行の数。 -/
def retainedEpisodeRows (s : RetentionState) (cutoff : Time) : Nat :=
  s.db.rows.countP fun r => r.processedAt.any (· < cutoff) && r.dedupeKey.isSome

/--
`prune_terminal_older_than`。埋まった組は行を減らすから、行の数だけ繰り返せば足りる。残した行は、その後の時刻 `counted` で
数える。
-/
def pruneTerminalOlderThan (s : RetentionState) (clock : Nat → Time) (counted : Time)
    (olderThanSecs : Int) : Except StoreError (PromptRetentionSweep × RetentionState) := do
  ensure (0 < olderThanSecs) (.other "prune_terminal_older_than requires a positive window")
  let (pruned, s) := pruneLoop clock olderThanSecs (s.db.rows.length + 1) s
  return ({ pruned, retainedEpisodeRows := s.retainedEpisodeRows (counted - seconds olderThanSecs) }, s)

/-- `cleanup_old`。 -/
def cleanupOld (s : RetentionState) (now : Time) (olderThanSecs : Int) : RetentionState :=
  { s with
    db := s.db.cleanupOld (now - seconds olderThanSecs) fun r => s.unretained.contains r.id }

end RetentionState

/-- 台帳を使う操作と、渡す操作と、他の表の動き。 -/
inductive RetentionOp where
  | enqueueIdempotent (p : NewPrompt) (key : String)
  -- 渡す
  | stamp (now : Time) (op : StampOp) (notices : List AbandonNotice)
  | markProcessed (now : Time) (id : Nat)
  | poll (now : Time) (target session : Option String) (limit : Nat)
  /-- 番号と鍵の他の列を書く文。受領や取り出しの書く文はどれもこの形である。 -/
  | writeColumns (rows : PromptRow → Bool) (columns : PromptRow → PromptRow)
  -- 片づける
  | pruneTerminalBatch (now : Time) (olderThanSecs : Int) (batch : Nat)
  | pruneTerminalOlderThan (clock : Nat → Time) (counted : Time) (olderThanSecs : Int)
  | cleanupOld (now : Time) (olderThanSecs : Int)
  -- 他の表
  | supervisorQueue (queue : Option SupervisorQueue)
  | retain (unretained : List Nat)

/-- 一歩。落ちた操作は何も変えない。 -/
def retentionStep (s : RetentionState) : RetentionOp → RetentionOutcome × RetentionState
  | .enqueueIdempotent p key =>
    match s.enqueueIdempotent p key with
    | .ok out => out
    | .error e => (.failed e, s)
  | .stamp now op notices =>
    match s.db.atomicStageStampInTx now notices op.call.id op.call.proposed op.call.opts with
    | .ok db => (.done, { s with db })
    | .error e => (.failed e, s)
  | .markProcessed now id => (.done, { s with db := s.db.markProcessed now id })
  | .poll now target session limit =>
    (.done, { s with db := s.db.markPolled now (s.db.pollCandidates target session limit) })
  | .writeColumns rows columns =>
    (.done, { s with db := s.db.update rows fun r =>
      { columns r with id := r.id, dedupeKey := r.dedupeKey } })
  | .pruneTerminalBatch now olderThanSecs batch =>
    match s.pruneTerminalBatch now olderThanSecs batch with
    | .ok (rows, s') => (.removed rows, s')
    | .error e => (.failed e, s)
  | .pruneTerminalOlderThan clock counted olderThanSecs =>
    match s.pruneTerminalOlderThan clock counted olderThanSecs with
    | .ok (sweep, s') => (.swept sweep, s')
    | .error e => (.failed e, s)
  | .cleanupOld now olderThanSecs => (.done, s.cleanupOld now olderThanSecs)
  | .supervisorQueue queue => (.done, { s with supervisorQueue := queue })
  | .retain unretained => (.done, { s with unretained })

end Cassy
