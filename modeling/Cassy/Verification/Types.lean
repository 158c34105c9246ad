import Cassy.Store.Types

/-!
# 検証と配達の行

`verification_store.rs` と `delivery_store.rs` の表の行。検証の権限は三つの表に散らばる。

* `verification_dispatches` — 一回の検証の割り当て。証明の対象と、今の担い手を持つ
* `verification_capabilities` — 検証者に渡す一度きりの権限
* `verification_handoffs` — server が仲介する渡し方の側の記録
-/

namespace Cassy

open Infra

/-! ## 検証 -/

inductive VerificationProvenance where
  | legacy | taskVerifier | supervisorDirect | system | peerAttested
  deriving DecidableEq, Repr

inductive VerificationStatus where
  | approved | rejected | supervisorCall | pending | skipped | error
  deriving DecidableEq, Repr

/-- `storage_status`。古い読み手が知っている四つの値に潰す。 -/
def VerificationStatus.storageStatus : VerificationStatus → String
  | .approved => "approved"
  | .rejected => "rejected"
  | .skipped => "skipped"
  | .error | .pending | .supervisorCall => "error"

/-- `verifications` の行。 -/
structure Verification where
  id : String
  taskId : String
  agentId : Option String := none
  provenance : VerificationProvenance := .legacy
  capabilityId : Option String := none
  dispatchId : Option String := none
  issuerAgentId : Option String := none
  status : VerificationStatus := .approved
  summary : String := ""
  createdAt : Time
  deriving DecidableEq, Repr

/-! ## 割り当て -/

inductive VerificationDispatchState where
  | pending | claimed | timedOut | resolved | invalidated
  deriving DecidableEq, Repr

/-- `state IN ('pending', 'claimed')`。 -/
def VerificationDispatchState.isActive : VerificationDispatchState → Bool
  | .pending | .claimed => true
  | .timedOut | .resolved | .invalidated => false

/-- 他の machine で通った merge 前の検証の写し。 -/
structure PeerPremergeReceipt where
  status : VerificationStatus
  projectId : String
  supervisorId : String
  taskId : String
  sourceBranch : String
  sourceSha : String
  targetBranch : String
  targetSha : String
  candidateTree : String
  landedSha : String
  dispatchId : String
  verdictId : String
  planDigest : String
  deriving DecidableEq, Repr

structure PeerPremergeAttestation where
  receipt : PeerPremergeReceipt
  messageId : String
  senderMachineId : String
  senderSession : String
  deriving DecidableEq, Repr

/-- 検証者が見た repository の状態。 -/
structure RepositoryProofBoundary where
  peerPremerge : Option PeerPremergeAttestation := none
  repositoryRoot : String
  worktreeRoot : String
  headCommit : String
  stateDigest : String
  targetBranch : Option String := none
  anchorCommits : List String := []
  deriving DecidableEq, Repr

/-- 証明の対象。配達の検証は receipt と transaction の両方に結ばれる。 -/
structure VerificationProofBoundary where
  receiptId : Option String := none
  deliveryTransactionId : Option String := none
  repository : Option RepositoryProofBoundary := none
  deriving DecidableEq, Repr

/-- `VerificationProofBoundary::delivery`。 -/
def VerificationProofBoundary.delivery (receiptId deliveryTransactionId : String) :
    VerificationProofBoundary where
  receiptId := some receiptId
  deliveryTransactionId := some deliveryTransactionId

/-- `verification_dispatches` の行。`recovery_action` は値が一つしか無いので省く。 -/
structure VerificationDispatch where
  id : String
  taskId : String
  receiptId : Option String
  deliveryTransactionId : Option String
  repository : Option RepositoryProofBoundary
  requesterAgentId : String
  ownerAgentId : String
  verifierAgentId : Option String
  capabilityId : Option String
  state : VerificationDispatchState
  requestedAt : Time
  deadlineAt : Time
  resolvedAt : Option Time
  deriving DecidableEq, Repr

/-! ## 権限 -/

/-- `verification_capabilities` の行。token そのものは残さない。 -/
structure VerifierCapability where
  id : String
  taskId : String
  dispatchId : Option String
  issuerAgentId : String
  verifierAgentId : Option String
  tokenHash : String
  issuedAt : Time
  expiresAt : Time
  boundAt : Option Time
  consumedAt : Option Time
  deriving DecidableEq, Repr

inductive HandoffState where
  | pending | bound | consumed
  deriving DecidableEq, Repr

/-- `state IN ('pending', 'bound')`。 -/
def HandoffState.isLive : HandoffState → Bool
  | .pending | .bound => true
  | .consumed => false

/-- `verification_handoffs` の行。主キーは権限の id である。 -/
structure VerifierHandoff where
  capabilityId : String
  issuerAgentId : String
  verifierAgentId : Option String
  toolUseIdHash : String
  state : HandoffState
  createdAt : Time
  boundAt : Option Time
  consumedAt : Option Time
  deriving DecidableEq, Repr

/-! ## 配達 -/

/-- `worker_completion_receipts` の行。trigger が更新も削除も拒む。 -/
structure WorkerCompletionReceipt where
  id : String
  taskId : String
  workerAgentId : String
  workerName : String
  repoSelector : String
  sourceBranch : String
  commitSha : String
  mergeBaseSha : String
  targetBranch : String
  targetSha : String
  proofReference : String
  scopeSummary : String
  artifactPath : Option String := none
  createdAt : Time
  deriving DecidableEq, Repr

inductive WorkerDeliveryState where
  | awaitingVerification | awaitingMerge | mergeAuthorized | merged | closeReady | delivered
  | verificationFailed | changesRequested | conflict | stale | repoMismatch | tipChanged
  deriving DecidableEq, Repr

def WorkerDeliveryState.toString : WorkerDeliveryState → String
  | .awaitingVerification => "awaiting_verification"
  | .awaitingMerge => "awaiting_merge"
  | .mergeAuthorized => "merge_authorized"
  | .merged => "merged"
  | .closeReady => "close_ready"
  | .delivered => "delivered"
  | .verificationFailed => "verification_failed"
  | .changesRequested => "changes_requested"
  | .conflict => "conflict"
  | .stale => "stale"
  | .repoMismatch => "repo_mismatch"
  | .tipChanged => "tip_changed"

/-- `worker_delivery_transactions` の行。 -/
structure WorkerDeliveryTransaction where
  id : String
  receiptId : String
  taskId : String
  state : WorkerDeliveryState
  supervisorAgentId : Option String := none
  verificationId : Option String := none
  mergeCommitSha : Option String := none
  lastErrorCode : Option String := none
  lastErrorDetail : Option String := none
  createdAt : Time
  updatedAt : Time
  deriving DecidableEq, Repr

/-- `worker_delivery_events` の行。追記しかされない。 -/
structure WorkerDeliveryEvent where
  id : String
  transactionId : String
  state : WorkerDeliveryState
  actorAgentId : String
  detail : Option String
  createdAt : Time
  deriving DecidableEq, Repr

/-- `observed_delivery_merges` の行のうち、証明範囲の訂正が読む列。 -/
structure ObservedDeliveryMerge where
  taskId : String
  targetBranch : String
  sourceCommitSha : String
  deriving DecidableEq, Repr

end Cassy
