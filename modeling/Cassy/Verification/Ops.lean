import Cassy.Agent.Ops
import Cassy.Delivery.Correction

/-!
# 検証と配達の操作の一覧

検証と配達の表に触る操作を一つの型にまとめ、一歩の実行を定める。操作はそれぞれ一つの
transaction である。判定の transaction のように幾つかの関数を続けて呼ぶものは、操作の列に
なる（途中で落ちれば全体が巻き戻るので、何も起きなかったのと同じである）。

lease の操作 `AgentOp` と、他の store による task・判定・観測された merge の書き換え
`external` も間に挟まる。後者は表を好きに取り替える。

時計は状態に持たせる。操作が読んだ時刻の列が `readings` で、`Ticks` が時計の進み方の条件で
ある。
-/

namespace Cassy

open Infra

/-- 証明範囲の訂正の三つの入口。 -/
inductive CorrectionKind where
  | scope | targets | executionNote
  deriving DecidableEq, Repr

/-- 検証と配達の操作。 -/
inductive ProofOp where
  | createDispatch (taskId requester owner : String) (boundary : VerificationProofBoundary)
      (deadlineAt : Time) (supervisorRecovery : Bool) (rid : String) (requestedAt : Time)
  | claimDispatch (dispatchId owner verifier capabilityId : String) (now : Time)
  | resolveDispatch (dispatchId verifier : String) (capabilityId : Option String)
      (supervisorDirect : Bool) (now : Time)
  | timeoutDispatch (taskId : String) (now : Time)
  | extendDeadline (dispatchId : String) (now extendTo : Time) (hardCap : Int)
  | adoptOrphaned (supervisorId : String) (deadOwners : List Agent) (deadlineAt : Time)
      (localMachine : String) (retired : String → Option ProofDb.RetiredAgent) (now : Time)
  | newCycle (taskId : String) (now : Time)
  | repositoryDrift (dispatchId : String) (now : Time)
  | rebind (priorDispatchId priorVerdictId requester owner : String)
      (boundary : VerificationProofBoundary) (receipt rid verdictId : String)
      (now requestedAt : Time)
  | issueCapability (taskId issuer rid secret : String) (now issuedAt : Time)
  | issueHandoff (taskId dispatchId issuer toolUseId : String) (secret : List UInt8)
      (rid : String) (now : Time)
  | bindCapability (token verifier : String) (now now' boundAt : Time)
  | bindHandoff (issuer verifier : String) (now : Time)
  | bindHandoffAndRegister (issuer : String) (child : Agent) (env : Option String)
      (capture : Except StoreError Unit) (rehomedAt : String) (now : Time)
  | cancelHandoff (issuer toolUseId : String)
  | consumeCapability (token taskId verifier : String) (now now' consumedAt : Time)
  | consumeHandoff (capabilityId taskId verifier : String)
      (expected : Option VerificationDispatch) (now : Time)
  | requestChanges (taskId supervisor reason : String) (sourceCommits : List String)
      (stamp : Text) (rid : String) (now cycleNow : Time)
  | correctScope (kind : CorrectionKind) (c : ProofDb.ProofScopeCorrection) (rid : String)
      (now : Time)
  | deliver (receipt : WorkerCompletionReceipt) (state : WorkerDeliveryState) (actor : String)
      (epoch : UInt64) (owner : String) (deadlineAt : Time)
      (repository : Option RepositoryProofBoundary) (rid : String)
      (readings : ProofDb.DeliveryReadings)
  | transition (transactionId : String) (expected : List WorkerDeliveryState)
      (state : WorkerDeliveryState) (actor : String) (fields : ProofDb.TransitionFields)
      (now : Time)
  | transitionVerification (transactionId verificationId : String) (approved : Bool)
      (actor : String) (now : Time)
  | agent (op : AgentOp)
  | external (tasks : Table Task.id) (verifications : Table Verification.id)
      (observedMerges : List ObservedDeliveryMerge)

/-- 操作の答え。 -/
inductive ProofRes where
  | dispatch (d : VerificationDispatch)
  | dispatch? (d : Option VerificationDispatch)
  | adopted (ids : List String)
  | rebound (d : VerificationDispatch) (v : Verification)
  | issued (c : VerifierCapability)
  | bound (c : VerifierCapability)
  | cancelled (b : Bool)
  | consumed (c : VerifierCapability)
  | changes (o : RequestChangesOutcome)
  | corrected (o : ProofScopeCorrectionOutcome)
  | delivery (t : WorkerDeliveryTransaction) (d : VerificationDispatch)
  | transaction (t : Option WorkerDeliveryTransaction)
  | agent (r : AgentRes)
  | unit
  deriving DecidableEq

namespace ProofDb

/-- 訂正の入口を選ぶ。 -/
def correct (db : ProofDb) (kind : CorrectionKind) (c : ProofScopeCorrection) (rid : String)
    (now : Time) : Except StoreError (ProofScopeCorrectionOutcome × ProofDb) :=
  match kind with
  | .scope => db.correctProofScope c rid now
  | .targets => db.correctProofTargets c rid now
  | .executionNote => db.correctExecutionNote c rid now

/-- lease の操作を、調整用の表の上で行う。 -/
def agentBody (db : ProofDb) (op : AgentOp) : Except StoreError (AgentRes × ProofDb) := do
  let (r, base) ← op.body db.base
  pure (r, { db with base })

end ProofDb

/-- 操作の本体。 -/
def ProofOp.body (H : Digests) (db : ProofDb) : ProofOp → Except StoreError (ProofRes × ProofDb)
  | createDispatch taskId requester owner boundary deadlineAt recovery rid requestedAt =>
    mapResult .dispatch
      (db.createDispatch taskId requester owner boundary deadlineAt recovery rid requestedAt)
  | claimDispatch dispatchId owner verifier capabilityId now =>
    mapResult .dispatch (db.claimDispatchBound dispatchId owner verifier capabilityId now)
  | resolveDispatch dispatchId verifier capabilityId direct now =>
    mapResult .dispatch (db.resolveDispatch dispatchId verifier capabilityId direct now)
  | timeoutDispatch taskId now => mapResult .dispatch? (db.timeoutDispatch taskId now)
  | extendDeadline dispatchId now extendTo hardCap =>
    mapResult .dispatch? (db.extendDeadline dispatchId now extendTo hardCap)
  | adoptOrphaned supervisorId deadOwners deadlineAt localMachine retired now =>
    mapResult .adopted
      (db.adoptOrphanedDispatches supervisorId deadOwners deadlineAt localMachine retired now)
  | newCycle taskId now => mapResult .dispatch? (db.invalidateTaskForNewCycle taskId now)
  | repositoryDrift dispatchId now =>
    mapResult .dispatch (db.invalidateForRepositoryDrift dispatchId now)
  | rebind priorDispatchId priorVerdictId requester owner boundary receipt rid verdictId now at' =>
    mapResult (fun r => .rebound r.1 r.2) (db.rebindApprovedDispatch priorDispatchId
      priorVerdictId requester owner boundary receipt rid verdictId now at')
  | issueCapability taskId issuer rid secret now issuedAt =>
    mapResult (fun r => .issued r.capability)
      (db.issueVerifierCapability H taskId issuer rid secret now issuedAt)
  | issueHandoff taskId dispatchId issuer toolUseId secret rid now => mapResult .issued
      (db.issueServerVerifierHandoff H taskId dispatchId issuer toolUseId secret rid now)
  | bindCapability token verifier now now' boundAt =>
    mapResult .bound (db.bindVerifierCapability H token verifier now now' boundAt)
  | bindHandoff issuer verifier now =>
    mapResult .bound (db.bindServerVerifierHandoff issuer verifier now)
  | bindHandoffAndRegister issuer child env capture rehomedAt now => mapResult .bound
      (db.bindServerHandoffAndRegisterChild issuer child env capture rehomedAt now)
  | cancelHandoff issuer toolUseId =>
    mapResult .cancelled (db.cancelUnboundServerHandoff H issuer toolUseId)
  | consumeCapability token taskId verifier now now' consumedAt => mapResult .consumed
      (db.consumeVerifierCapability H token taskId verifier now now' consumedAt)
  | consumeHandoff capabilityId taskId verifier expected now =>
    mapResult .consumed (db.consumeServerHandoff capabilityId taskId verifier expected now)
  | requestChanges taskId supervisor reason sourceCommits stamp rid now cycleNow =>
    mapResult .changes
      (db.requestChanges taskId supervisor reason sourceCommits stamp rid now cycleNow)
  | correctScope kind c rid now => mapResult .corrected (db.correct kind c rid now)
  | deliver receipt state actor epoch owner deadlineAt repository rid readings =>
    mapResult (fun r => .delivery r.1 r.2) (db.createWorkerDeliveryForLease H receipt state actor
      epoch owner deadlineAt repository rid readings)
  | transition transactionId expected state actor fields now =>
    mapResult (fun t => .transaction (some t))
      (db.transitionWorkerDelivery H transactionId expected state actor fields now)
  | transitionVerification transactionId verificationId approved actor now =>
    mapResult .transaction
      (db.transitionWorkerDeliveryVerification H transactionId verificationId approved actor now)
  | agent op => mapResult .agent (db.agentBody op)
  | external tasks verifications observedMerges =>
    .ok (.unit, { db with base := { db.base with tasks }, verifications, observedMerges })

/-- 外の仕組みは、証明の表の外の表だけを取り替える。 -/
example (H : Digests) (db : ProofDb) (tasks : Table Task.id) :
    (ProofOp.external tasks db.verifications db.observedMerges).body H db
      = .ok (.unit, { db with base := { db.base with tasks } }) := by
  simp only [ProofOp.body]

/-- 操作が読む時計。`timeout` と `extend` の時刻は呼び手が渡すもので、読みではない。 -/
def ProofOp.readings : ProofOp → List Time
  | createDispatch _ _ _ _ _ _ _ requestedAt => [requestedAt]
  | claimDispatch _ _ _ _ now => [now]
  | resolveDispatch _ _ _ _ now => [now]
  | timeoutDispatch _ _ => []
  | extendDeadline _ _ _ _ => []
  | adoptOrphaned _ _ _ _ _ now => [now]
  | newCycle _ now => [now]
  | repositoryDrift _ now => [now]
  | rebind _ _ _ _ _ _ _ _ now requestedAt => [now, requestedAt]
  | issueCapability _ _ _ _ now issuedAt => [now, issuedAt]
  | issueHandoff _ _ _ _ _ _ now => [now]
  | bindCapability _ _ now now' boundAt => [now, now', boundAt]
  | bindHandoff _ _ now => [now]
  | bindHandoffAndRegister _ _ _ _ _ now => [now]
  | cancelHandoff _ _ => []
  | consumeCapability _ _ _ now now' consumedAt => [now, now', consumedAt]
  | consumeHandoff _ _ _ _ now => [now]
  | requestChanges _ _ _ _ _ _ now cycleNow => [now, cycleNow]
  | correctScope _ _ _ now => [now]
  | deliver _ _ _ _ _ _ _ _ r => [r.leaseAt, r.requestedAt, r.createdAt]
  | transition _ _ _ _ _ now => [now]
  | transitionVerification _ _ _ _ now => [now]
  | agent _ => []
  | external _ _ _ => []

/-- 新しい権限に刻まれる時刻。 -/
def ProofOp.issuedAt? : ProofOp → Option Time
  | issueCapability _ _ _ _ _ issuedAt => some issuedAt
  | issueHandoff _ _ _ _ _ _ now => some now
  | _ => none

/-- 表と、最後に読まれた時計。 -/
structure ProofState where
  db : ProofDb := {}
  clock : Time := 0

/-- 一つの操作を実行する。 -/
def proofStep (H : Digests) (s : ProofState) (op : ProofOp) :
    Except StoreError ProofRes × ProofState :=
  let r := commit s.db (op.body H s.db)
  (r.1, { db := r.2, clock := op.readings.getLastD s.clock })

/--
時計は戻らず、権限の発行は前の読みより真に後である。

狭義に増える時計はこれを満たす。等号を許すのは、落ちた操作や分岐によっては読まれない時刻が
引数にあるためで、その分には前の読みをそのまま置いてよい。
-/
def Ticks (s : ProofState) (op : ProofOp) : Prop :=
  (s.clock :: op.readings).Pairwise (· ≤ ·) ∧ ∀ t ∈ op.issuedAt?, s.clock < t

instance (s : ProofState) (op : ProofOp) : Decidable (Ticks s op) :=
  inferInstanceAs (Decidable ((s.clock :: op.readings).Pairwise (· ≤ ·)
    ∧ ∀ t ∈ op.issuedAt?, s.clock < t))

end Cassy
