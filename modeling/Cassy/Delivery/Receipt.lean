import Cassy.Infra.Codec
import Cassy.Verification.Capability

/-!
# 完了の受領と配達

`delivery_store.rs`。worker の完了報告は receipt として残り、receipt ごとに配達の
transaction と検証の割り当てが一つずつ立つ。三つの行は一つの transaction で書かれ、
その入口で task の lease の世代を確かめる。

二度目の同じ報告は、最初の報告が lease を手放した後に届くことがある。その場合は何も書かず、
既に残っている行を返す。
-/

namespace Cassy

open Infra

/-- `worker_delivery_transaction_id`。最初の `wcr-` を `wdt-` に置き換える。 -/
def replaceFirstWcr : Text → Text
  | 'w' :: 'c' :: 'r' :: '-' :: rest => 'w' :: 'd' :: 't' :: '-' :: rest
  | c :: rest => c :: replaceFirstWcr rest
  | [] => []

def workerDeliveryTransactionId (receiptId : String) : String :=
  String.ofList (replaceFirstWcr receiptId.toList)

/-- `same_immutable_receipt_payload`。受付時刻の外は同じか。 -/
def sameImmutableReceiptPayload (persisted receipt : WorkerCompletionReceipt) : Bool :=
  persisted = { receipt with createdAt := persisted.createdAt }

namespace ProofDb

variable (H : Digests) (db : ProofDb)

/-! ## 配達の event -/

/-- event の id。transaction と状態から決まる。 -/
def deliveryEventId (transactionId : String) (state : WorkerDeliveryState) : String :=
  "wde-" ++ String.ofList ((H.delivery [transactionId, state.toString]).toList.take 24)

/-- その event を挿せるか。主キーと、transaction と状態の組が空いていること。 -/
def eventVacant (e : WorkerDeliveryEvent) : Bool :=
  !db.events.rows.any fun e' => e'.transactionId = e.transactionId ∧ e'.state = e.state

/-- `insert_event`。`INSERT OR IGNORE` なので、塞がっていれば何もしない。 -/
def insertEvent (transactionId : String) (state : WorkerDeliveryState) (actor : String)
    (detail : Option String) (now : Time) : ProofDb :=
  let e : WorkerDeliveryEvent :=
    { id := deliveryEventId H transactionId state, transactionId, state, actorAgentId := actor
      detail, createdAt := now }
  if db.eventVacant e then { db with events := db.events.insertOrIgnore e } else db

/-- 差し戻しと訂正が書く event。`INSERT` なので、塞がっていれば落ちる。 -/
def appendEvent (rid transactionId : String) (state : WorkerDeliveryState) (actor : String)
    (detail : Option String) (now : Time) : Except StoreError ProofDb := do
  let e : WorkerDeliveryEvent :=
    { id := "wde-" ++ rid, transactionId, state, actorAgentId := actor, detail, createdAt := now }
  ensure (db.eventVacant e)
    (uniqueFailed "worker_delivery_events.transaction_id, worker_delivery_events.state")
  let events ← okOr (db.events.insert? e) (uniqueFailed "worker_delivery_events.id")
  pure { db with events }

/-! ## 受領 -/

/-- 新しい配達の transaction。 -/
def newTransaction (receipt : WorkerCompletionReceipt) (state : WorkerDeliveryState) (now : Time) :
    WorkerDeliveryTransaction where
  id := workerDeliveryTransactionId receipt.id
  receiptId := receipt.id
  taskId := receipt.taskId
  state
  createdAt := now
  updatedAt := now

/-- `SELECT … FROM worker_delivery_transactions WHERE receipt_id = ?`。 -/
def transactionForReceipt? (receiptId : String) : Option WorkerDeliveryTransaction :=
  db.transactions.rows.find? fun t => t.receiptId = receiptId

/-- `INSERT OR IGNORE INTO worker_delivery_transactions`。挿したら `true`。 -/
def insertTransaction (t : WorkerDeliveryTransaction) : Bool × ProofDb :=
  if (db.transactionForReceipt? t.receiptId).isSome then (false, db)
  else
    match db.transactions.insert? t with
    | none => (false, db)
    | some transactions => (true, { db with transactions })

/-- `create_worker_delivery_with_conn`。 -/
def createWorkerDelivery (receipt : WorkerCompletionReceipt) (state : WorkerDeliveryState)
    (actor : String) (now : Time) : Except StoreError (WorkerDeliveryTransaction × ProofDb) := do
  -- 同じ id の receipt が残っていれば挿さず、中身が同じかを確かめる。
  let db := { db with receipts := db.receipts.insertOrIgnore receipt }
  let persisted ← okOr (db.receipts.find? receipt.id) (.database "Query returned no rows")
  ensure (sameImmutableReceiptPayload persisted receipt)
    (.parse "immutable worker completion receipt mismatch")
  let (inserted, db) := db.insertTransaction (newTransaction receipt state now)
  let transaction ← okOr (db.transactionForReceipt? receipt.id) (.database "Query returned no rows")
  if inserted then
    pure (transaction,
      db.insertEvent H (workerDeliveryTransactionId receipt.id) state actor none now)
  else
    let persistedState := transaction.state.toString
    let requested := state.toString
    ensure (transaction.state = state) (.parse
      s!"worker delivery initial state mismatch: persisted {persistedState}, requested {requested}")
    pure (transaction, db)

/-- 呼び手が、その世代の有効な lease を握る生きた worker か。 -/
def leaseAuthorizes (receipt : WorkerCompletionReceipt) (actor : String) (epoch : UInt64)
    (now : Time) : Bool :=
  (db.base.taskLeases.find? receipt.taskId).any fun l =>
    l.status = .active
      && (db.base.agents.find? l.agentId).any fun a =>
        receipt.workerAgentId = actor ∧ l.agentId = actor ∧ l.epoch = epoch ∧ a.role = .worker
          ∧ a.status.isLive ∧ now < l.expiresAt

/-- `exact_receipt_replay_with_conn`。 -/
def exactReceiptReplay? (receipt : WorkerCompletionReceipt) (actor : String) :
    Option (WorkerDeliveryTransaction × VerificationDispatch) :=
  -- 自分の lease は切れていてよい。他の session が握っていれば再読は許さない。
  let foreignLease := (db.base.taskLeases.find? receipt.taskId).any fun l =>
    l.status = .active ∧ l.agentId ≠ actor
  let liveWorker := (db.base.agents.find? actor).any fun a =>
    a.role = .worker ∧ a.status.isLive
  if receipt.workerAgentId ≠ actor ∨ foreignLease ∨ ¬ liveWorker then none
  else do
    let persisted ← db.receipts.find? receipt.id
    if sameImmutableReceiptPayload persisted receipt then
      let transaction ← db.transactionForReceipt? receipt.id
      let dispatch ← (db.latestDispatch? receipt.taskId).filter fun d =>
        d.receiptId = some receipt.id ∧ d.deliveryTransactionId = some transaction.id
      pure (transaction, dispatch)
    else none

/-- 時計の読み。lease の期限、割り当ての要求時刻、配達の時刻の順に読む。 -/
structure DeliveryReadings where
  leaseAt : Time
  requestedAt : Time
  createdAt : Time

/-- `create_worker_delivery_with_dispatch_for_lease_bound`。 -/
def createWorkerDeliveryForLease (receipt : WorkerCompletionReceipt) (state : WorkerDeliveryState)
    (actor : String) (epoch : UInt64) (owner : String) (deadlineAt : Time)
    (repository : Option RepositoryProofBoundary) (rid : String) (at' : DeliveryReadings) :
    Except StoreError ((WorkerDeliveryTransaction × VerificationDispatch) × ProofDb) :=
  if db.leaseAuthorizes receipt actor epoch at'.leaseAt then do
    let boundary := { VerificationProofBoundary.delivery receipt.id
      (workerDeliveryTransactionId receipt.id) with repository }
    -- 割り当てを先に作る。ここで落ちれば receipt も transaction も残らない。
    let (dispatch, db) ← db.createDispatch receipt.taskId actor owner boundary deadlineAt false rid
      at'.requestedAt
    let (transaction, db) ← db.createWorkerDelivery H receipt state actor at'.createdAt
    pure ((transaction, dispatch), db)
  else
    match db.exactReceiptReplay? receipt actor with
    | some replay => do
      ensure (repository.isSome → replay.2.repository = repository)
        (.parse "immutable delivery candidate proof mismatch")
      pure (replay, db)
    | none => .error (.parse
        "exact active task lease changed, expired, or no longer belongs to the authenticated worker session")

/-! ## 配達の遷移 -/

/-- `UPDATE worker_delivery_transactions SET … WHERE …`。 -/
def updateTransactions (p : WorkerDeliveryTransaction → Bool)
    (f : WorkerDeliveryTransaction → WorkerDeliveryTransaction)
    (hf : ∀ t, (f t).id = t.id := by exact fun _ => rfl) : ProofDb :=
  { db with transactions := db.transactions.update p f hf }

/-- `COALESCE` つきで書き換える列。 -/
structure TransitionFields where
  supervisorAgentId : Option String := none
  verificationId : Option String := none
  mergeCommitSha : Option String := none
  error : Option (String × String) := none

/-- `transition_worker_delivery`。 -/
def transitionWorkerDelivery (transactionId : String) (expected : List WorkerDeliveryState)
    (state : WorkerDeliveryState) (actor : String) (fields : TransitionFields) (now : Time) :
    Except StoreError (WorkerDeliveryTransaction × ProofDb) := do
  let current ← okOr (db.transactions.find? transactionId) (.database "Query returned no rows")
  -- 同じ状態への遷移は何も書かずに成功する。
  if current.state = state then pure (current, db)
  else
    let from' := current.state.toString
    let to' := state.toString
    ensure (expected.contains current.state)
      (.parse ("delivery transition rejected: " ++ from' ++ " -> " ++ to'))
    let db := db.updateTransactions (fun t => t.id = transactionId) fun t =>
      { t with
        state
        supervisorAgentId := fields.supervisorAgentId.or t.supervisorAgentId
        verificationId := fields.verificationId.or t.verificationId
        mergeCommitSha := fields.mergeCommitSha.or t.mergeCommitSha
        lastErrorCode := fields.error.map Prod.fst
        lastErrorDetail := fields.error.map Prod.snd
        updatedAt := now }
    let db := db.insertEvent H transactionId state actor (fields.error.map Prod.snd) now
    let updated ← okOr (db.transactions.find? transactionId) (.database "Query returned no rows")
    pure (updated, db)

/-- 判定が、その配達の receipt と transaction に結ばれたものか。 -/
def exactBinding (current : WorkerDeliveryTransaction) (verificationId actor : String)
    (approved : Bool) : Bool :=
  (db.verifications.find? verificationId).any fun v =>
    v.taskId = current.taskId && v.agentId = some actor
      && (if approved then v.status.storageStatus = "approved"
        else v.status.storageStatus = "rejected" ∨ v.status.storageStatus = "error")
      && (v.dispatchId.bind db.dispatches.find?).any (fun d =>
        d.taskId = current.taskId ∧ d.receiptId = some current.receiptId
          ∧ d.deliveryTransactionId = some current.id ∧ d.state = .resolved)
      && (db.receipts.find? current.receiptId).any fun r => r.taskId = current.taskId

/-- `transition_worker_delivery_verification_with_conn`。 -/
def transitionWorkerDeliveryVerification (transactionId verificationId : String) (approved : Bool)
    (actor : String) (now : Time) :
    Except StoreError (Option WorkerDeliveryTransaction × ProofDb) :=
  match (db.transactions.find? transactionId).filter fun t =>
      t.state = .awaitingVerification with
  | none => .ok (none, db)
  | some current => do
    ensure (db.exactBinding current verificationId actor approved) (.parse
      "delivery verification is not bound to the exact receipt, transaction, task, and verifier")
    let target := if approved then WorkerDeliveryState.awaitingMerge else .verificationFailed
    let p := fun t : WorkerDeliveryTransaction =>
      decide (t.id = current.id ∧ t.state = .awaitingVerification)
    ensure (db.transactions.count p = 1)
      (.parse "exact delivery verification transition raced")
    -- 却下のときだけ、行と event に同じ文面を残す。
    let detail := if approved then none else some "durable verification rejected"
    let db := db.updateTransactions p fun t =>
      { t with
        state := target
        verificationId := some verificationId
        lastErrorCode := if approved then none else some "verification_failed"
        lastErrorDetail := detail
        updatedAt := now }
    let db := db.insertEvent H current.id target actor detail now
    let updated ← okOr (db.transactions.find? current.id) (.database "Query returned no rows")
    pure (some updated, db)

end ProofDb

/-!
## 受領の id

`delivery_store.rs` の `build_worker_completion_receipt`。id は、報告の中身を並べた列の SHA-256 から作る。並べるときは、
部分ごとに長さを先に書く。`artifact_path` は無ければ並べない。受付時刻は並べない。
-/

/-- `WorkerCompletionReceiptInput`。 -/
structure WorkerCompletionReceiptInput where
  taskId : String
  workerAgentId : String
  repoSelector : String
  sourceBranch : String
  commitSha : String
  mergeBaseSha : String
  targetBranch : String
  targetSha : String
  proofReference : String
  scopeSummary : String
  artifactPath : Option String := none
  deriving DecidableEq, Repr

/-- `str::as_bytes`。 -/
def strBytes (s : String) : Bytes := s.toUTF8.data.toList

/-- `digest` が hasher に渡す、一つの部分。 -/
def digestPart (part : String) : Bytes := beBytes 8 (strBytes part).length ++ strBytes part

/-- `digest` が hasher に渡す列。 -/
def digestInput (parts : List String) : Bytes := parts.flatMap digestPart

/-- `digest`。`sha256` は 16 進の文字列を返す。 -/
def digest (sha256 : Bytes → String) (parts : List String) : String := sha256 (digestInput parts)

namespace WorkerCompletionReceiptInput

/-- `build_worker_completion_receipt` の `parts`。 -/
def parts (input : WorkerCompletionReceiptInput) (workerName : String) : List String :=
  [input.taskId, input.workerAgentId, workerName, input.repoSelector, input.sourceBranch,
    input.commitSha, input.mergeBaseSha, input.targetBranch, input.targetSha, input.proofReference,
    input.scopeSummary] ++ input.artifactPath.toList

end WorkerCompletionReceiptInput

/-- `build_worker_completion_receipt`。 -/
def buildWorkerCompletionReceipt (sha256 : Bytes → String) (input : WorkerCompletionReceiptInput)
    (workerName : String) (createdAt : Time) : WorkerCompletionReceipt where
  id := "wcr-" ++ String.ofList ((digest sha256 (input.parts workerName)).toList.take 24)
  taskId := input.taskId
  workerAgentId := input.workerAgentId
  workerName := workerName
  repoSelector := input.repoSelector
  sourceBranch := input.sourceBranch
  commitSha := input.commitSha
  mergeBaseSha := input.mergeBaseSha
  targetBranch := input.targetBranch
  targetSha := input.targetSha
  proofReference := input.proofReference
  scopeSummary := input.scopeSummary
  artifactPath := input.artifactPath
  createdAt := createdAt

/-- `build_worker_completion_receipt` の引数。 -/
structure ReceiptArgs where
  input : WorkerCompletionReceiptInput
  workerName : String
  createdAt : Time
  deriving DecidableEq, Repr

namespace ReceiptArgs

/-- id を作る列。 -/
def preimage (a : ReceiptArgs) : Bytes := digestInput (a.input.parts a.workerName)

/-- その引数の受領。 -/
def receipt (sha256 : Bytes → String) (a : ReceiptArgs) : WorkerCompletionReceipt :=
  buildWorkerCompletionReceipt sha256 a.input a.workerName a.createdAt

/-- どの文字列も `usize` で長さを持てる。 -/
def Fits (a : ReceiptArgs) : Prop := ∀ part ∈ a.input.parts a.workerName, (strBytes part).length < 2 ^ 64

instance (a : ReceiptArgs) : Decidable a.Fits :=
  inferInstanceAs (Decidable (∀ part ∈ a.input.parts a.workerName, (strBytes part).length < 2 ^ 64))

end ReceiptArgs

end Cassy
