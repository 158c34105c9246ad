import Mathlib.Logic.Function.Basic
import Cassy.Infra.Run
import Cassy.Cloud.TeamDelivery

/-!
# push と返事の始末

`cloud/syncer/push.rs` と `team_push.rs`。push は待っている行を選び、まとめて cloud に送り、返事を見て行を消すか残す。
選択・送信・始末は別々の transaction なので、その間に手元の変更や別の push が割り込む。

前半は返事の読み方である。cloud は行ごとの結果を返すことも、数だけを返すこともある。読めない返事では、送った行は
全部失敗として残る。後半は、選択から始末までを一手ずつ進める機械である。

## 機械の緩め方

どの行を一つの小分けにするか、送る前に値へ何を書き足すか（持ち主や版）は、操作の引数である。どの分け方でも、
どの値でも成り立つことだけを示す。
-/

namespace Cassy

open Infra

/-! ## 返事 -/

/-- `PushRowOutcome`。 -/
inductive PushRowOutcome where
  | inserted | updated | skippedLww | rejected
  deriving DecidableEq, Repr

/-- `PushRowResult`。 -/
structure PushRowResult where
  id : String
  outcome : PushRowOutcome
  reason : Option String := none
  existingCanonicalId : Option String := none
  deriving DecidableEq, Repr

namespace PushRowResult

/-- `acknowledges`。 -/
def acknowledges (row : PushRowResult) : Bool := row.outcome ≠ .rejected

/-- `rejection_context`。 -/
def rejectionContext (row : PushRowResult) : String :=
  let reason := row.reason.getD "unspecified"
  match row.existingCanonicalId with
  | some owner => if owner = "" then reason else s!"{reason}; existing_project={owner}"
  | none => reason

/-- `rejection_is_retryable`。 -/
def rejectionIsRetryable (row : PushRowResult) : Bool :=
  row.reason.any fun reason =>
    (["revision_conflict", "retryable", "temporary", "transient", "server_error",
      "internal_error", "service_unavailable", "rate_limited", "timeout"] : List String).any
      fun known => eqIgnoreAsciiCase reason.toList known.toList

end PushRowResult

/-- `PushRejectionReason`。どちらもやり直しでは解けない。 -/
inductive PushRejectionReason where
  | projectMismatch | scopeMismatch
  deriving DecidableEq, Repr

/-- `PushRejectionReason::as_str`。 -/
def PushRejectionReason.asStr : PushRejectionReason → String
  | .projectMismatch => "project_mismatch"
  | .scopeMismatch => "scope_mismatch"

/-- `PushItemizedFailure`。`invalid` の理由は `invalid_revision` の一つだけである。 -/
inductive PushItemizedFailure where
  | rejection (id : String) (reason : PushRejectionReason) (existingCanonicalId : String)
  | invalid (id detail : String)
  deriving DecidableEq, Repr

/-- 名指された行。 -/
def PushItemizedFailure.id : PushItemizedFailure → String
  | .rejection id _ _ => id
  | .invalid id _ => id

/-- 返事のうち、始末が読むところ。読めなかった項目は `error` である。 -/
structure BatchResponse where
  rawBody : String := ""
  /-- 行ごとの結果を読んだ項目の名前 -/
  rowsAt : String := "rows"
  rows : Except String (Option (List PushRowResult)) := .ok none
  skipped : Except String Nat := .ok 0
  rejected : Except String (Option (List PushItemizedFailure)) := .ok none
  invalid : Except String (Option (List PushItemizedFailure)) := .ok none
  canonicalId : Option String := none

/-- 名前の一覧に、送っていない名前も重複も無いことを確かめる。 -/
def checkNamed (location : String) (queuedIds : List String) : List String → Except String Unit
  | [] => .ok ()
  | id :: ids =>
    if id ∉ queuedIds then .error s!"{location} names row {id} that was not in this sub-batch"
    else if id ∈ ids then .error s!"{location} contains a duplicate id"
    else checkNamed location queuedIds ids

/-- `row_results_for`。送った行をちょうど覆う結果だけを受け取る。 -/
def rowResultsFor (location : String) (rows : List PushRowResult) (queuedIds : List String) :
    Except String (List PushRowResult) :=
  match checkNamed s!"{location}.rows" queuedIds (rows.map PushRowResult.id) with
  | .error e => .error e
  | .ok () =>
    match queuedIds.find? fun id => rows.all fun row => row.id ≠ id with
    | some id => .error s!"{location}.rows missing row {id}"
    | none => .ok rows

/-- `itemized_rejections_for` と `itemized_invalids_for`。 -/
def itemizedFor (location : String) (failures : Option (List PushItemizedFailure)) (skipped : Nat)
    (queuedIds : List String) : Except String (Option (List PushItemizedFailure)) :=
  match failures with
  | none => .ok none
  | some failures =>
    if skipped < failures.length then
      .error s!"{location} count {failures.length} exceeds skipped count {skipped}"
    else
      match checkNamed location queuedIds (failures.map PushItemizedFailure.id) with
      | .error e => .error e
      | .ok () => .ok (some failures)

/-- `itemized_failures_for`。 -/
def itemizedFailuresFor (location : String) (response : BatchResponse) (skipped : Nat)
    (queuedIds : List String) : Except String (Option (List PushItemizedFailure)) := do
  let rejections ← itemizedFor s!"{location}.rejected" (← response.rejected) skipped queuedIds
  let invalids ← itemizedFor s!"{location}.invalid" (← response.invalid) skipped queuedIds
  match rejections, invalids with
  | none, none => .ok none
  | _, _ =>
    let rejections := rejections.getD []
    let invalids := invalids.getD []
    let failures := rejections ++ invalids
    if invalids.any fun f => rejections.any fun f' => f'.id = f.id then
      .error s!"{location}.rejected and {location}.invalid contain a duplicate id"
    else if skipped < failures.length then
      .error
        s!"{location}.rejected plus {location}.invalid count {failures.length} exceeds skipped count {skipped}"
    else .ok (some failures)

/-! ## 始末 -/

/-- 個人の push か、team の push か。 -/
inductive PushKind where
  | personal | team (teamId : String)
  deriving DecidableEq, Repr

/-- push の設定。 -/
structure PushConfig where
  maxRetries : Nat
  /-- `push_reason_hint` の文面 -/
  reasonHint : String → String := fun _ => ""
  /-- `push_reason_from_error` -/
  reasonFromError : String → Option String := fun _ => none

/-- 列への一回の呼び出し。それぞれが一つの transaction である。 -/
inductive QueueCall where
  | markSynced (id : Nat)
  | markFailed (id : Nat) (error : String)
  | parkFailed (id : Nat) (error : String)
  | recordRowOutcome (id : Nat) (outcome : String) (reason : Option String)
  | acknowledgeTeamWrite (item : QueuedSync) (transmitted : Json) (teamId projectId : String)
      (personalSnapshots : List QueuedSync)
  deriving DecidableEq

/-- 一つの request で送った行と値。`snapshots` は team の push が送る前に取った個人の行の写し。 -/
structure SubBatch where
  items : List (QueuedSync × Json)
  entityKey : String
  project : String
  snapshots : List QueuedSync := []

/-- 送った行。 -/
def SubBatch.sent (batch : SubBatch) : List QueuedSync := batch.items.map Prod.fst

/-- 送った行の全部を失敗にする。 -/
def failAll (items : List QueuedSync) (diagnostic : String) : List QueueCall :=
  items.map fun item => .markFailed item.id diagnostic

/-- 送った行の全部を済みにする。 -/
def syncAll (items : List QueuedSync) : List QueueCall := items.map fun item => .markSynced item.id

/-- 名指しで断られた一行。個人の push だけが結末を残す。 -/
def settleItemized (kind : PushKind) (entityKey rawBody : String)
    (failures : List PushItemizedFailure) (item : QueuedSync) : List QueueCall :=
  let scope := match kind with
    | .personal => entityKey
    | .team _ => s!"team {entityKey}"
  let record (reason : String) : List QueueCall := match kind with
    | .personal => [.recordRowOutcome item.id "rejected" (some reason)]
    | .team _ => []
  match failures.find? fun f => f.id = item.entityId with
  | none => [.markSynced item.id]
  | some (.rejection id reason existing) =>
    .parkFailed item.id
        s!"permanent cloud rejection: reason={reason.asStr}; entity={entityKey}; id={id}; existing_project={existing}"
      :: record reason.asStr
  | some (.invalid id detail) =>
    .markFailed item.id
        s!"cloud invalid {scope} {id}: invalid_revision ({detail}); server response: {rawBody}"
      :: record "invalid_revision"

/-- 数だけの返事の始末。skip の数が合わなければ全部を失敗にし、名指しが無ければ LWW の負けとして済みにする。 -/
def settleCounts (kind : PushKind) (entityKey : String) (response : BatchResponse)
    (items : List QueuedSync) : List QueueCall :=
  let size := items.length
  let raw := response.rawBody
  match response.skipped with
  | .error e =>
    failAll items <| match kind with
      | .personal => s!"cloud returned an unrecognized skip signal for {entityKey}: {e}; marking {size} row(s) failed; server response: {raw}"
      | .team _ => s!"{entityKey} push returned an unrecognized count/skip signal: {e}; marking {size} team row(s) failed; server response: {raw}"
  | .ok 0 => syncAll items
  | .ok skipped =>
    if size < skipped then
      failAll items <| match kind with
        | .personal => s!"cloud reported {skipped} skipped {entityKey} row(s) for a {size}-row sub-batch; marking sub-batch failed; server response: {raw}"
        | .team _ => s!"cloud reported {skipped} skipped team {entityKey} row(s) for a {size}-row sub-batch; marking sub-batch failed; server response: {raw}"
    else
      let location := match kind with
        | .personal => entityKey
        | .team _ => s!"synced.{entityKey}"
      match itemizedFailuresFor location response skipped (items.map QueuedSync.entityId) with
      | .error e =>
        failAll items <| match kind with
          | .personal => s!"cloud returned invalid itemized failures for {entityKey}: {e}; marking {size} row(s) failed; server response: {raw}"
          | .team _ => s!"team {entityKey} push returned invalid itemized failures: {e}; marking {size} row(s) failed; server response: {raw}"
      | .ok none => syncAll items
      | .ok (some failures) => items.flatMap (settleItemized kind entityKey raw failures)

namespace PushConfig

variable (cfg : PushConfig)

/-- 断られた一行。 -/
def rejectRow (kind : PushKind) (entityKey rawBody : String) (item : QueuedSync)
    (row : PushRowResult) : List QueueCall :=
  let reason := row.reason.getD "unspecified"
  let scope := match kind with
    | .personal => entityKey
    | .team _ => s!"team {entityKey}"
  let diagnostic := s!"cloud rejected {scope} {item.entityId}: reason={row.rejectionContext} ({cfg.reasonHint reason}); server response: {rawBody}"
  [.recordRowOutcome item.id "rejected" (some reason),
    if row.rejectionIsRetryable then .markFailed item.id diagnostic
    else .parkFailed item.id diagnostic]

/-- `settle_personal_row_results` の一行。 -/
def settlePersonalRow (entityKey rawBody : String) (rows : List PushRowResult) (item : QueuedSync) :
    List QueueCall :=
  match rows.find? fun row => row.id = item.entityId with
  | none => []
  | some row =>
    if row.acknowledges then [.markSynced item.id]
    else cfg.rejectRow .personal entityKey rawBody item row

/--
`settle_team_row_results` の一行。

cloud が宛先を読み替えず、行を inserted か updated と答えたときだけ、受領証を残して写しのままの行を消す。
-/
def settleTeamRow (teamId rawBody : String) (rows : List PushRowResult)
    (canonicalUnchanged : Bool) (batch : SubBatch) (entry : QueuedSync × Json) : List QueueCall :=
  match rows.find? fun row => row.id = entry.1.entityId with
  | none => []
  | some row =>
    if row.acknowledges then
      if canonicalUnchanged && (row.outcome = .inserted || row.outcome = .updated) then
        [.acknowledgeTeamWrite entry.1 entry.2 teamId batch.project batch.snapshots]
      else [.markSynced entry.1.id]
    else cfg.rejectRow (.team teamId) batch.entityKey rawBody entry.1 row

/-- 返事の始末。行ごとの結果があればそれに従い、無ければ数を見る。 -/
def settleResponse (kind : PushKind) (batch : SubBatch) (response : BatchResponse) :
    List QueueCall :=
  let items := batch.sent
  let size := items.length
  let raw := response.rawBody
  let rows : Except String (Option (List PushRowResult)) := match response.rows with
    | .error e => .error e
    | .ok none => .ok none
    | .ok (some rows) =>
      (rowResultsFor response.rowsAt rows (items.map QueuedSync.entityId)).map some
  match rows with
  | .error e =>
    failAll items <| match kind with
      | .personal => s!"cloud returned invalid per-row results for {batch.entityKey}: {e}; marking {size} row(s) failed; server response: {raw}"
      | .team _ => s!"team {batch.entityKey} push returned invalid per-row results: {e}; marking {size} row(s) failed; server response: {raw}"
  | .ok (some rows) =>
    match kind with
    | .personal => items.flatMap (cfg.settlePersonalRow batch.entityKey raw rows)
    | .team teamId =>
      batch.items.flatMap (cfg.settleTeamRow teamId raw rows
        (response.canonicalId.all (· = batch.project)) batch)
  | .ok none => settleCounts kind batch.entityKey response items

/-- 送れなかった小分けの始末。 -/
def settleError (items : List QueuedSync) (error : String) : List QueueCall :=
  items.flatMap fun item => .markFailed item.id error ::
    match cfg.reasonFromError error with
    | some reason => [.recordRowOutcome item.id "rejected" (some reason)]
    | none => []

end PushConfig

/-- 同じ相手への書き込みの行。 -/
def movedUpserts (queued : List QueuedSync) (item : QueuedSync) : List QueuedSync :=
  queued.filter fun u => u.operation = .upsert && u.entityType = item.entityType
    && u.entityId = item.entityId

/--
削除の始末。成功と 404 は済みになる。

team の push で、元の project の鍵を消す行が失敗したときは、移した先への書き込みも同じ理由で失敗にして残す。
-/
def settleDelete (kind : PushKind) (queued : List QueuedSync) (item : QueuedSync) :
    Option String → List QueueCall
  | none => [.markSynced item.id]
  | some error =>
    .markFailed item.id error ::
      if kind ≠ .personal ∧ item.projectId.isSome then
        failAll (movedUpserts queued item) error
      else []

/-! ## 削除の request -/

/-- push を走らせる手元。 -/
structure PushSite where
  env : QueueEnv
  store : LocalStore
  /-- `unauthored_pulled_rows` -/
  ledger : List (EntityType × String) := []
  /-- `personal_push_project_id` -/
  project : String
  teamOnly : Bool := false
  scope : Option EntityType := none
  batchLimit : Nat
  maxRetries : Nat

/-- 一つの削除の request。個人の push は `teamId` を持たない。 -/
structure DeleteRequest where
  teamId : Option String
  entityType : EntityType
  entityId : String
  projectId : String
  deriving DecidableEq, Repr

/-- `push_pending_batch` が種類を送る順。 -/
def pushOrder : List EntityType :=
  [.entry, .task, .rule, .skill, .session, .verification, .event, .prompt, .fileChange,
    .commitLink, .agent, .worktree, .taskDependency]

namespace PushSite

variable (site : PushSite) (q : SyncQueue)

/-- 選択の前の掃除。 -/
def prepared : SyncQueue :=
  (q.dropQueuedUserPrompts site.env).dropUnauthoredQueuedPushes site.env site.store site.ledger
    site.project

/-- 個人の push の一巡が選ぶ行。`team_only` では一行も選ばない。 -/
def personalSelected : List QueuedSync :=
  if site.teamOnly then []
  else (site.prepared q).pushablePendingForEntityType site.env site.scope (max site.batchLimit 1)
    site.maxRetries

/-- team の push が選ぶ行。 -/
def teamSelected (teamId : String) : List QueuedSync :=
  (site.prepared q).pendingForTeam teamId (site.prepared q).rows.length site.maxRetries

/-- 手元に現物があるとして捨てる行。 -/
def neutralized (item : QueuedSync) : Bool :=
  (q.neutralizeDeleteIfLocalEntityExists site.store item).1

/-- 個人の push の削除の宛先。行の `project_id` は見ない。 -/
def personalRequest (item : QueuedSync) : DeleteRequest where
  teamId := none
  entityType := item.entityType
  entityId := item.entityId
  projectId := site.project

/-- team の push の削除の宛先。 -/
def teamRequest (teamId : String) (item : QueuedSync) : DeleteRequest where
  teamId := some teamId
  entityType := item.entityType
  entityId := item.entityId
  projectId := item.projectId.getD site.project

/-- 個人の push が送る削除。ある種類の書き込みが送れなければ、その種類の削除には進まない。 -/
def personalDeletes (upsertsFailed : EntityType → Bool) : List DeleteRequest :=
  pushOrder.flatMap fun entityType =>
    if upsertsFailed entityType then []
    else
      (((site.personalSelected q).filter fun item =>
        item.entityType = entityType && item.operation = .delete).filter fun item =>
        !site.neutralized q item).map site.personalRequest

/-- team の push で、検査の後に残る行。`project_id` を持つ行は検査しない。 -/
def teamSendable (teamId : String) : List QueuedSync :=
  (site.teamSelected q teamId).filter fun item =>
    !(item.operation = .delete && item.projectId.isNone && site.neutralized q item)

/-- team の push が送る削除。移した跡を消す行が先で、ほかの削除は途中に失敗が無いときだけ送る。 -/
def teamDeletes (teamId : String) (errors : Bool) : List DeleteRequest :=
  let deletes := (site.teamSendable q teamId).filter fun item => item.operation = .delete
  ((deletes.filter fun item => item.projectId.isSome)
    ++ if errors then [] else deletes.filter fun item => item.projectId.isNone).map
    (site.teamRequest teamId)

end PushSite

/-! ## 機械 -/

variable {δ : Type} [DecidableEq δ]

/-- 一回の呼び出しの効果。 -/
def QueueCall.run (env : DeliveryEnv δ) (cfg : PushConfig) (ob : Outbox δ) : QueueCall → Outbox δ
  | .markSynced id => { ob with queue := ob.queue.markSynced id }
  | .markFailed id error => { ob with queue := ob.queue.markFailed id error }
  | .parkFailed id error => { ob with queue := ob.queue.parkFailed id error cfg.maxRetries }
  | .recordRowOutcome id outcome reason =>
    { ob with queue := ob.queue.recordRowOutcome id outcome reason }
  | .acknowledgeTeamWrite item transmitted teamId projectId snapshots =>
    ob.acknowledgeTeamWrite env item transmitted teamId projectId snapshots

/-- push の一つがどこまで進んだか。`items` は選んでまだ始末していない行の写し。 -/
inductive PushPc where
  | idle
  | selected (kind : PushKind) (items : List QueuedSync)
  | sentUpserts (kind : PushKind) (items : List QueuedSync) (batch : SubBatch)
  | sentDeletes (kind : PushKind) (items deletes : List QueuedSync)
  | settling (kind : PushKind) (items sent : List QueuedSync) (calls : List QueueCall)

/-- team の返事が inserted か updated と名指した値。 -/
structure Delivery where
  teamId : String
  projectId : String
  entityType : EntityType
  entityId : String
  value : Json
  deriving DecidableEq

/-- 返事が名指した値。cloud が宛先を読み替えたときは、読み替えた先に届いている。 -/
def deliveries (kind : PushKind) (batch : SubBatch) (response : BatchResponse) : List Delivery :=
  match kind, response.rows with
  | .team teamId, .ok (some rows) => batch.items.filterMap fun (item, value) =>
    match rows.find? fun row => row.id = item.entityId with
    | some row =>
      if row.outcome = .inserted || row.outcome = .updated then
        some
          { teamId
            projectId := response.canonicalId.getD batch.project
            entityType := item.entityType
            entityId := item.entityId
            value }
      else none
    | none => none
  | _, _ => []

/--
機械の状態。

`replaced` と `delivered` は履歴である。前者は、push ごとに、選択より後に手元の変更が中身を置き換えた行の番号。
後者は、team の返事が名指した値の全部。
-/
structure PushState (δ : Type) where
  outbox : Outbox δ
  pc : Nat → PushPc := fun _ => .idle
  replaced : Nat → List Nat := fun _ => []
  delivered : List Delivery := []

/-- 機械の一手。 -/
inductive PushAct where
  | enqueue (store : LocalStore) (localProject : Option String) (w : QueueWrite)
  | enqueueTeamMove (entityType : EntityType)
      (entityId oldProjectId newProjectId payload teamId : String) (now : Time)
  | dropUserPrompts
  | dropUnauthored (store : LocalStore) (ledger : List (EntityType × String))
      (localProject : String)
  | select (pid : Nat) (kind : PushKind) (entityType : Option EntityType) (limit : Nat)
  | neutralizeDelete (pid : Nat) (store : LocalStore) (item : QueuedSync)
  | sendUpserts (pid : Nat) (items : List (QueuedSync × Json)) (entityKey project : String)
  | sendDeletes (pid : Nat) (deletes : List QueuedSync)
  | respond (pid : Nat) (response : Except String BatchResponse)
  | respondDeletes (pid : Nat) (errors : QueuedSync → Option String)
  | settle (pid : Nat)
  | finish (pid : Nat)
  | neutralizeTeamOnly (teamId projectId : String)
  | purgeTeamOwned (teamId projectId : String) (ids : List Nat) (dryRun : Bool)

/-- 中身の変わった行の番号。 -/
def replacedIds (before after : SyncQueue) : List Nat :=
  (before.rows.filter fun r => after.rows.any fun r' => r'.id = r.id && r'.content ≠ r.content).map
    QueueRow.id

namespace PushState

variable (s : PushState δ)

/-- push の位置を書き換える。 -/
def setPc (pid : Nat) (pc : PushPc) : PushState δ :=
  { s with pc := Function.update s.pc pid pc }

/-- 手元の変更。中身の変わった行を、どの push の履歴にも書き留める。 -/
def enqueued (queue : SyncQueue) : PushState δ :=
  { s with
    outbox := { s.outbox with queue }
    replaced := fun pid => replacedIds s.outbox.queue queue ++ s.replaced pid }

/-- 列だけが変わる操作。 -/
def withQueue (queue : SyncQueue) : PushState δ :=
  { s with outbox := { s.outbox with queue } }

/-- push がいま始末している、送った行の写し。 -/
def transmitted (pid : Nat) : List QueuedSync :=
  match s.pc pid with
  | .settling _ _ sent _ => sent
  | _ => []

end PushState

/-- 選んだ行。 -/
def selectRows (env : DeliveryEnv δ) (cfg : PushConfig) (q : SyncQueue) (kind : PushKind)
    (entityType : Option EntityType) (limit : Nat) : List QueuedSync :=
  match kind with
  | .personal => q.pushablePendingForEntityType env.toQueueEnv entityType limit cfg.maxRetries
  | .team teamId => q.pendingForTeam teamId limit cfg.maxRetries

/-- 送れる書き込みの行。payload が JSON として読めるものに限る。 -/
def sendable (env : DeliveryEnv δ) (items : List QueuedSync) (item : QueuedSync) : Bool :=
  item ∈ items && item.operation = .upsert && (env.payloadValue item.payload).isSome

/-- 機械の遷移。進める状況にない手は何もしない。 -/
def pushNext (env : DeliveryEnv δ) (cfg : PushConfig) (s : PushState δ) : PushAct → PushState δ
  | .enqueue store localProject w =>
    s.enqueued (env.enqueueWithTeamProject store localProject s.outbox.queue w)
  | .enqueueTeamMove entityType entityId oldProjectId newProjectId payload teamId now =>
    s.enqueued (s.outbox.queue.enqueueTeamMoveRows entityType entityId oldProjectId newProjectId
      payload teamId now)
  | .dropUserPrompts => s.withQueue (s.outbox.queue.dropQueuedUserPrompts env.toQueueEnv)
  | .dropUnauthored store ledger localProject =>
    s.withQueue (s.outbox.queue.dropUnauthoredQueuedPushes env.toQueueEnv store ledger localProject)
  | .select pid kind entityType limit =>
    match s.pc pid with
    | .idle =>
      { s.setPc pid (.selected kind (selectRows env cfg s.outbox.queue kind entityType limit)) with
        replaced := Function.update s.replaced pid [] }
    | _ => s
  | .neutralizeDelete pid store item =>
    match s.pc pid with
    | .selected kind items =>
      if item ∈ items ∧ item.operation = .delete then
        let (neutralized, queue) := s.outbox.queue.neutralizeDeleteIfLocalEntityExists store item
        if neutralized then
          (s.withQueue queue).setPc pid (.selected kind (items.filter (· ≠ item)))
        else s
      else s
    | _ => s
  | .sendUpserts pid items entityKey project =>
    match s.pc pid with
    | .selected kind queued =>
      if items.all fun entry => sendable env queued entry.1 then
        s.setPc pid (.sentUpserts kind queued
          { items, entityKey, project
            snapshots := match kind with
              | .personal => []
              | .team _ => s.outbox.personalRows })
      else s
    | _ => s
  | .sendDeletes pid deletes =>
    match s.pc pid with
    | .selected kind queued =>
      if deletes.all fun item => item ∈ queued && item.operation = .delete then
        s.setPc pid (.sentDeletes kind queued deletes)
      else s
    | _ => s
  | .respond pid response =>
    match s.pc pid with
    | .sentUpserts kind queued batch =>
      match response with
      | .error error =>
        s.setPc pid (.settling kind queued batch.sent (cfg.settleError batch.sent error))
      | .ok response =>
        { s.setPc pid (.settling kind queued batch.sent (cfg.settleResponse kind batch response)) with
          delivered := deliveries kind batch response ++ s.delivered }
    | _ => s
  | .respondDeletes pid errors =>
    match s.pc pid with
    | .sentDeletes kind queued deletes =>
      s.setPc pid (.settling kind queued deletes
        (deletes.flatMap fun item => settleDelete kind queued item (errors item)))
    | _ => s
  | .settle pid =>
    match s.pc pid with
    | .settling kind queued sent (call :: calls) =>
      { s.setPc pid (.settling kind queued sent calls) with outbox := call.run env cfg s.outbox }
    | .settling kind queued sent [] =>
      s.setPc pid (.selected kind (queued.filter (· ∉ sent)))
    | _ => s
  | .finish pid => s.setPc pid .idle
  | .neutralizeTeamOnly teamId projectId =>
    { s with outbox := s.outbox.neutralizeTeamOnlyPersonal env teamId projectId }
  | .purgeTeamOwned teamId projectId ids dryRun =>
    { s with
      outbox := (s.outbox.purgeTeamOwnedPersonalRejections env teamId projectId ids dryRun).2 }

/-- 履歴の枠に合わせた一手。 -/
def pushStep (env : DeliveryEnv δ) (cfg : PushConfig) (s : PushState δ) (act : PushAct) :
    Unit × PushState δ :=
  ((), pushNext env cfg s act)

end Cassy
