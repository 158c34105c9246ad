import Cassy.Infra.Find
import Cassy.Cloud.SyncQueue

/-!
# 送信の結末と自動の再武装

`cloud/sync_queue/maintenance.rs` と `dependency_repair.rs`。push の結末は六つの列に残り、列を読む問い合わせは
それぞれ別の列を見る。

* 送る行の選択は `retry_count` だけを見る
* 失敗の数は `retry_count` と `last_outcome`、`last_reason` を見る
* 通信の失敗の再武装は `retry_count`、`last_error`、`last_outcome`、`auto_rearm_count` を見る

`auto_rearm_count` は、行の番号から数への関数として列の表の横に置く。
-/

namespace Cassy

open Infra

/-! ## 通信の失敗 -/

/-- 一時的な失敗を語る言葉。 -/
def networkTerms : List Text :=
  ["dns".toList, "resolve".toList, "lookup".toList, "connect".toList, "connection".toList,
    "timeout".toList, "timed out".toList]

/-- `is_transient_network_error`。URL の中の言葉は数えない。 -/
def isTransientNetworkError (error : String) : Bool :=
  match stripPrefix "Network error:".toList error.toList with
  | none => false
  | some rest =>
    let message := trimStart rest
    let cause :=
      match (stripPrefix "http://".toList message).or (stripPrefix "https://".toList message) with
      | some urlAndCause => (splitOnce ": ".toList urlAndCause).map Prod.snd
      | none => some message
    cause.any fun cause =>
      networkTerms.any fun term => containsText term (cause.map toAsciiLower)

/-! ## 行の見分け -/

namespace QueueRow

/-- 意図して止めた行の理由。 -/
def intentionalReasons : List String :=
  ["unattributed_origin", "dependency_endpoint_unavailable", "dependency_endpoint_deleted",
    "dependency_endpoint_moved", "dependency_endpoint_foreign"]

/-- `INTENTIONAL_PARK`。 -/
def intentionalPark (r : QueueRow) : Bool :=
  r.lastOutcome = some "parked" && r.lastReason.any (· ∈ intentionalReasons)

/-- `last_outcome IN ('rejected', 'parked')`。 -/
def terminal (r : QueueRow) : Bool :=
  r.lastOutcome = some "rejected" || r.lastOutcome = some "parked"

/-- やり直しの残っている行。 -/
def pending (maxRetries : Nat) (r : QueueRow) : Bool := r.retryCount < maxRetries

/-- 失敗と数える行。 -/
def failed (maxRetries : Nat) (r : QueueRow) : Bool :=
  maxRetries ≤ r.retryCount && !r.intentionalPark

end QueueRow

namespace SyncQueue

variable (q : SyncQueue)

/-! ## 結末を残す -/

/-- `record_diagnostic`。やり直しの数は進めない。 -/
def recordDiagnostic (id : Nat) (diagnostic : String) : SyncQueue :=
  q.updateRow id (fun r => { r with lastError := some diagnostic }) (fun _ => rfl) fun _ => rfl

/-- `park_intentionally_with_error`。 -/
def parkIntentionally (id : Nat) (reason error : String) (maxRetries : Nat) : SyncQueue :=
  q.updateRow id
    (fun r =>
      { r with
        lastOutcome := some "parked"
        lastReason := some reason
        lastError := some error
        retryCount := max r.retryCount maxRetries })
    (fun _ => rfl) fun _ => rfl

/-- `park_team_rows_for_registration_conflict`。まだ待っている行だけに、やり直しを使わずに書く。 -/
def parkTeamRowsForRegistrationConflict (teamId diagnostic : String) (maxRetries : Nat) :
    SyncQueue :=
  q.update (fun r => r.teamId = teamId && r.pending maxRetries)
    (fun r =>
      { r with
        lastOutcome := some "parked"
        lastReason := some "project_registration_conflict"
        lastError := some diagnostic })
    (fun _ => rfl) fun _ _ => rfl

end SyncQueue

/-- push の一つの結末。 -/
inductive PushOutcome where
  | recordRowOutcome (id : Nat) (outcome : String) (reason : Option String)
  | markFailed (id : Nat) (error : String)
  | parkFailed (id : Nat) (error : String)
  | recordDiagnostic (id : Nat) (diagnostic : String)
  | parkIntentionally (id : Nat) (reason error : String)
  | parkTeamRows (teamId diagnostic : String)
  deriving DecidableEq, Repr

/-- 結末を列に書く。 -/
def PushOutcome.record (maxRetries : Nat) (q : SyncQueue) : PushOutcome → SyncQueue
  | .recordRowOutcome id outcome reason => q.recordRowOutcome id outcome reason
  | .markFailed id error => q.markFailed id error
  | .parkFailed id error => q.parkFailed id error maxRetries
  | .recordDiagnostic id diagnostic => q.recordDiagnostic id diagnostic
  | .parkIntentionally id reason error => q.parkIntentionally id reason error maxRetries
  | .parkTeamRows teamId diagnostic =>
    q.parkTeamRowsForRegistrationConflict teamId diagnostic maxRetries

/-! ## 再武装 -/

/-- `auto_rearm_count` の列を加えた表。 -/
structure RearmQueue where
  queue : SyncQueue
  autoRearmCount : Nat → Nat := fun _ => 0

/-- `MAX_AUTOMATIC_NETWORK_REARMS`。 -/
def maxAutomaticNetworkRearms : Nat := 1

namespace RearmQueue

variable (q : RearmQueue)

/-- `upsert_queue_row`。積まれた行の `auto_rearm_count` は零に戻る。 -/
def enqueue (w : QueueWrite) : RearmQueue :=
  let queue := q.queue.upsertQueueRow w
  { queue
    autoRearmCount := fun id =>
      if queue.rows.any fun r => r.id = id && r.identity = w.identity then 0
      else q.autoRearmCount id }

/-- 結末を書く。 -/
def record (maxRetries : Nat) (outcome : PushOutcome) : RearmQueue :=
  { q with queue := outcome.record maxRetries q.queue }

/-- 結末を順に書く。 -/
def recordAll (maxRetries : Nat) (outcomes : List PushOutcome) : RearmQueue :=
  outcomes.foldl (fun q outcome => q.record maxRetries outcome) q

/-- 再武装の候補。 -/
def rearmCandidate (teamId : String) (maxRetries : Nat) (r : QueueRow) : Bool :=
  r.teamId = teamId && maxRetries ≤ r.retryCount
    && q.autoRearmCount r.id < maxAutomaticNetworkRearms && r.lastError.isSome && !r.terminal

/-- 候補の一行が、読んだときの `last_error` のままで候補であり続けていること。 -/
def rearmHit (teamId : String) (maxRetries : Nat) (candidate : Nat × String) (r : QueueRow) : Bool :=
  r.id = candidate.1 && q.rearmCandidate teamId maxRetries r && r.lastError = some candidate.2

/-- 候補の一行を待たせ直す。 -/
def rearmOne (teamId : String) (maxRetries : Nat) (candidate : Nat × String) : RearmQueue where
  queue := q.queue.update (q.rearmHit teamId maxRetries candidate)
    (fun r => { r with retryCount := 0, lastError := none }) (fun _ => rfl) fun _ _ => rfl
  autoRearmCount := fun id =>
    if q.queue.rows.any fun r => q.rearmHit teamId maxRetries candidate r && r.id = id then
      q.autoRearmCount id + 1
    else q.autoRearmCount id

/-- 候補の番号と `last_error`。候補の `last_error` は `NULL` でない。 -/
def rearmCandidates (teamId : String) (maxRetries : Nat) : List (Nat × String) :=
  (q.queue.rows.filter (q.rearmCandidate teamId maxRetries)).map fun r => (r.id, r.lastError.getD "")

/-- `rearm_transient_network_failures_for_scope`。 -/
def rearmTransientNetworkFailuresForScope (teamId : String) (maxRetries : Nat) :
    Nat × RearmQueue :=
  if maxRetries = 0 then (0, q)
  else
    ((q.rearmCandidates teamId maxRetries).filter fun c => isTransientNetworkError c.2).foldl
      (fun acc c =>
        (acc.1 + acc.2.queue.table.count (acc.2.rearmHit teamId maxRetries c),
          acc.2.rearmOne teamId maxRetries c)) (0, q)

/-- 成功した push の後で待たせ直される行。 -/
def rearms (maxRetries : Nat) (r : QueueRow) : Bool :=
  0 < maxRetries && q.rearmCandidate r.teamId maxRetries r
    && r.lastError.any isTransientNetworkError

end RearmQueue

/-! ## 行の扱われ方 -/

/-- 一つの行が、選択・失敗の数・再武装でどう扱われるか。 -/
structure Eligibility where
  pending : Bool
  failed : Bool
  rearms : Bool
  deriving DecidableEq, Repr

namespace RearmQueue

variable (q : RearmQueue) (maxRetries : Nat)

/-- 行の扱われ方。 -/
def eligibility (r : QueueRow) : Eligibility where
  pending := r.pending maxRetries
  failed := r.failed maxRetries
  rearms := q.rearms maxRetries r

/-- 素性の行の扱われ方。 -/
def eligibilityOf (identity : QueueIdentity) : Option Eligibility :=
  (q.queue.rows.find? fun r => r.identity = identity).map (q.eligibility maxRetries)

end RearmQueue

end Cassy
