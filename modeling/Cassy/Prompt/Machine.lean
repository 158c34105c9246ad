import Cassy.Prompt.Drain

/-!
# 伝言の表を使う処理たち

何本の process が同じ表を開いていても、書き込みは文か transaction を単位に一つずつ起こる。一つの transaction か
一つの文からなる操作は `PromptOp`、間に他の処理が割り込める操作は、process ごとの途中の位置 `PromptPc` を持つ
一連の `next` として置く。

* `ack` と `ack_by_dedupe_key` — 押印の transaction と、`acked_at` の文
* `ack_delivered_for_recipient` — 候補を読む文と、候補の一つずつの文
* `poll_for_target` と `poll_all` — 読む文と、処理済みにする文
* `record_recipient_transport_delivered` — 受領の transaction と、渡した時刻の文
* 取り出し — lock の無い問い合わせと、transaction

`withdrawn` は、shutdown が取り下げてまだその段階にある伝言の番号で、実装には無い。
-/

namespace Cassy

open Infra PromptDb

/-- 一つの transaction か一つの文からなる操作。 -/
inductive PromptOp where
  -- 受付
  | enqueue (p : NewPrompt)
  | enqueueWorkerPeer (copy p : NewPrompt)
  | enqueueWorkerAction (now : Time) (p : NewPrompt) (session agentId : String) (folded : List Nat)
  | enqueueWorkerStallNudge (now : Time) (target prompt session taskId dedupeKey : String)
  | operatorTurn (p : NewPrompt) (ackId : Option Nat)
  | notify (notices : List AbandonNotice)
  -- 段階
  | stamp (now : Time) (op : StampOp) (notices : List AbandonNotice)
  | recordPendingReason (now : Time) (notices : List AbandonNotice) (id : Nat)
      (reason : PendingReason) (detail : Option String)
  | recordRetry (now : Time) (notices : List AbandonNotice) (id : Nat) (reason : PendingReason)
      (detail : Option String)
  | parkForBusyRecipient (now : Time) (id : Nat) (detail : Option String) (recheckAt : Time)
  | selectForTargets (now : Time) (targets : List String) (session : Option String)
      (picked : List Nat)
  | stampBroadcastPolicy (now : Time) (id : Nat) (supersedeKey : Option String) (sticky : Bool)
  | persistOperatorReceipt (now : Time) (id : Nat) (session deviceId : String) (notice : Bool)
  | cancelUnreadForShutdown (now : Time) (recipient : String) (session : Option String)
      (detail : String)
  | refreshQaRejectionTargets (now : Time) (w : Surroundings) (session : String)
      (promptId : Option Nat)
  | abandonPendingOlderThan (now : Time) (olderThanSecs : Int) (notices : List AbandonNotice)
  | expireStalePending (now : Time) (w : Surroundings) (olderThanSecs : Int)
      (notices : List AbandonNotice)
  | abandonIneligibleSessionTargets (now : Time) (w : Surroundings) (targets : List String)
      (session : String) (olderThanSecs : Int) (notices : List AbandonNotice)
  | demoteInferred
  | hydrateLegacyProcessed (snapshot : List (Nat × Time))
  | hydrateProcessed
  -- 確認
  | settleRecipientMessage (now : Time) (id : Nat) (recipients : List String) (reply : Option Nat)
  | reconcileRelays (now : Time) (w : Surroundings) (taskClosed sessionEnded : Bool)
  -- 列と行
  | markProcessed (now : Time) (id : Nat)
  | edit (e : RowEdit)
  | pruneTerminalBatch (cutoff : Time) (releasable : PromptRow → Bool) (picked : List Nat)
  | clear
  | cleanupOld (cutoff : Time) (retained : PromptRow → Bool)
  -- 受領
  | claimRecipientTransport (id : Nat) (recipient : String) (token : Time)
  | releaseRecipientTransport (id : Nat) (recipient : String)
  | releaseRecipientTransportClaim (id : Nat) (recipient : String) (token : Time)
  | releaseOrphanedTransportClaims (session : String)
  | recordRecipientSurfaced (now : Time) (id : Nat) (recipient : String) (source : SurfacingSource)
  | recordTranscriptConsumed (now : Time) (expected : PromptRow)
  | claimTeamsBodyFallback (now : Time) (id : Nat) (recipient : String)
  | releaseTeamsBodyFallback (id : Nat) (recipient : String)
  | settlePolled (id : Nat) (recipient reason : String)
  | retargetOperatorRows (w : Surroundings) (predecessor : String) (session : Option String)
      (successor : String) (successorSession : Option String)

/-- 操作の答え。 -/
inductive PromptOutcome where
  | done
  | claimed (token : Option Time)
  | drained (request : DrainRequest) (result : Drained)
  | failed (e : StoreError)

/-- 結果を捨てた本体。 -/
def quiet {α : Type} (body : Except StoreError (α × PromptDb)) :
    Except StoreError (PromptOutcome × PromptDb) :=
  mapResult (fun _ => .done) body

/-- 新しい表だけを返す本体。 -/
def onlyDb (body : Except StoreError PromptDb) : Except StoreError (PromptOutcome × PromptDb) :=
  body.map fun db => (.done, db)

/-- 操作の本体。 -/
def PromptOp.body (db : PromptDb) : PromptOp → Except StoreError (PromptOutcome × PromptDb)
  | enqueue p => .ok (.done, (db.enqueue p).2)
  | enqueueWorkerPeer copy p => .ok (.done, db.enqueueWorkerPeer copy p)
  | enqueueWorkerAction now p session agentId folded =>
    quiet (db.enqueueWorkerAction now p session agentId folded)
  | enqueueWorkerStallNudge now target prompt session taskId dedupeKey =>
    quiet (db.enqueueWorkerStallNudge now target prompt session taskId dedupeKey)
  | operatorTurn p ackId => quiet (db.insertCompleteOperatorTurn p ackId)
  | notify notices => .ok (.done, db.notifyAll notices)
  | stamp now op notices =>
    onlyDb (db.atomicStageStampInTx now notices op.call.id op.call.proposed op.call.opts)
  | recordPendingReason now notices id reason detail =>
    onlyDb (db.recordPendingReason now notices id reason detail)
  | recordRetry now notices id reason detail => quiet (db.recordRetry now notices id reason detail)
  | parkForBusyRecipient now id detail recheckAt =>
    onlyDb (db.parkForBusyRecipient now id detail recheckAt)
  | selectForTargets now targets session picked =>
    quiet (db.selectForTargets now targets session picked)
  | stampBroadcastPolicy now id supersedeKey sticky =>
    quiet (db.stampBroadcastPolicy now id supersedeKey sticky)
  | persistOperatorReceipt now id session deviceId notice =>
    quiet (db.persistOperatorReceipt now id session deviceId notice)
  | cancelUnreadForShutdown now recipient session detail =>
    quiet (db.cancelUnreadForShutdown now recipient session detail)
  | refreshQaRejectionTargets now w session promptId =>
    onlyDb (db.refreshQaRejectionTargets now w session promptId)
  | abandonPendingOlderThan now olderThanSecs notices =>
    .ok (.done, db.abandonPendingOlderThan now olderThanSecs notices)
  | expireStalePending now w olderThanSecs notices =>
    onlyDb (db.expireStalePending now w olderThanSecs notices)
  | abandonIneligibleSessionTargets now w targets session olderThanSecs notices =>
    onlyDb (db.abandonIneligibleSessionTargets now w targets session olderThanSecs notices)
  | demoteInferred => .ok (.done, db.demoteInferred)
  | hydrateLegacyProcessed snapshot => .ok (.done, db.hydrateLegacyProcessed snapshot)
  | hydrateProcessed => .ok (.done, db.hydrateProcessed fun _ => true)
  | settleRecipientMessage now id recipients reply =>
    onlyDb (db.settleRecipientMessage now id recipients reply)
  | reconcileRelays now w taskClosed sessionEnded =>
    .ok (.done, db.reconcileRelays now w taskClosed sessionEnded)
  | markProcessed now id => .ok (.done, db.markProcessed now id)
  | edit e => .ok (.done, db.edit e)
  | pruneTerminalBatch cutoff releasable picked =>
    .ok (.done, db.pruneTerminalBatch cutoff releasable picked)
  | clear => .ok (.done, db.clear)
  | cleanupOld cutoff retained => .ok (.done, db.cleanupOld cutoff retained)
  | claimRecipientTransport id recipient token =>
    mapResult .claimed (db.claimRecipientTransport id recipient token)
  | releaseRecipientTransport id recipient => .ok (.done, db.releaseRecipientTransport id recipient)
  | releaseRecipientTransportClaim id recipient token =>
    .ok (.done, db.releaseRecipientTransportClaim id recipient token)
  | releaseOrphanedTransportClaims session => .ok (.done, db.releaseOrphanedTransportClaims session)
  | recordRecipientSurfaced now id recipient source =>
    .ok (.done, db.recordRecipientSurfaced now id recipient source)
  | recordTranscriptConsumed now expected => .ok (.done, db.recordTranscriptConsumed now expected)
  | claimTeamsBodyFallback now id recipient =>
    .ok (.done, db.claimTeamsBodyFallback now id recipient)
  | releaseTeamsBodyFallback id recipient => .ok (.done, db.releaseTeamsBodyFallback id recipient)
  | settlePolled id recipient reason => .ok (.done, db.settlePolled id recipient reason)
  | retargetOperatorRows w predecessor session successor successorSession =>
    .ok (.done, db.retargetOperatorRows w predecessor session successor successorSession)

/-! ## 割り込める操作 -/

/-- 間に他の処理が割り込める操作。 -/
inductive PromptCall where
  | ack (id : Nat)
  | ackByDedupeKey (key : String)
  | ackDelivered (recipients senders : List String) (session : Option String) (replyAt : Time)
  | poll (target session : Option String) (limit : Nat)
  | recordTransportDelivered (id : Nat) (recipient : String)
  | drain (c : DrainCall)

/-- process の途中の位置。 -/
inductive PromptPc where
  | idle
  /-- 確認の押印の前。 -/
  | ackStamp (id : Nat)
  /-- 押印が済み、`acked_at` の文の前。 -/
  | ackSet (id : Nat)
  /-- 推定を書く候補。 -/
  | infer (ids : List Nat)
  /-- 処理済みにする番号。 -/
  | poll (ids : List Nat)
  /-- 渡した時刻の文の前。 -/
  | claimDelivered (id : Nat) (recipient : String)
  /-- 取り出しの transaction の前。 -/
  | drain (q : DrainQuery)

/-- 一歩。`ok` は、失敗を捨てる押印の transaction が通ったか。 -/
inductive PromptAct where
  | op (o : PromptOp)
  | begin (pid : Nat) (now : Time) (w : Surroundings) (call : PromptCall)
  | next (pid : Nat) (now : Time) (ok : Bool) (w : Surroundings) (notices : Nat → List AbandonNotice)
      (recoveryText : PromptRow → String)
  | crash (pid : Nat)

/-- 表と、process の位置と、取り下げた伝言の控え。 -/
structure PromptState where
  db : PromptDb
  pc : Nat → PromptPc
  withdrawn : List Nat

/-- 初めの状態。 -/
def PromptState.empty : PromptState := ⟨.empty, fun _ => .idle, []⟩

/-- 最初の文。表は書かない。`recordTransportDelivered` だけは受領を書く。 -/
def PromptCall.start (db : PromptDb) (now : Time) (w : Surroundings) :
    PromptCall → Except StoreError (PromptPc × PromptDb)
  | ack id => .ok (.ackStamp id, db)
  | ackByDedupeKey key =>
    .ok (match db.rows.find? fun r => r.dedupeKey = some key with
      | none => .idle
      | some r => .ackStamp r.id, db)
  | ackDelivered recipients senders session replyAt =>
    .ok (if recipients = [] ∨ senders = [] then .idle
      else .infer (db.confirmable recipients senders session replyAt), db)
  | poll target session limit => .ok (.poll (db.pollCandidates target session limit), db)
  | recordTransportDelivered id recipient =>
    if nonBlank recipient then
      .ok (.claimDelivered id recipient,
        db.recordRecipientSurfaced now id recipient .transportClaimed)
    else .ok (.idle, db)
  | drain c => do
    match ← db.drainProbe now w c.request with
    | none => return (.idle, db)
    | some q => return (.drain q, db)

/-- 次の文。 -/
def PromptPc.advance (db : PromptDb) (now : Time) (ok : Bool) (w : Surroundings)
    (notices : Nat → List AbandonNotice) (recoveryText : PromptRow → String) :
    PromptPc → PromptOutcome × PromptPc × PromptDb
  | idle => (.done, .idle, db)
  | ackStamp id =>
    (.done, .ackSet id, if ok then db.stampIgnoringError now id .confirmed .clearReason else db)
  | ackSet id => (.done, .idle, db.setAcked now id .explicitAck)
  | infer [] => (.done, .idle, db)
  | infer (id :: ids) => (.done, .infer ids, db.assumeSeen now id)
  | poll ids => (.done, .idle, db.markPolled now ids)
  | claimDelivered id recipient => (.done, .idle, db.markClaimDelivered now id recipient)
  | drain q =>
    match db.drainTx now notices w recoveryText q with
    | .ok (drained, db) => (.drained q.request drained, .idle, db)
    | .error e => (.failed e, .idle, db)

/-- 操作の取り下げる伝言の番号。 -/
def PromptOp.withdraws (db : PromptDb) : PromptOp → List Nat
  | cancelUnreadForShutdown now recipient session detail =>
    match db.cancelUnreadForShutdown now recipient session detail with
    | .ok (ids, _) => ids
    | .error _ => []
  | _ => []

/-- 取り下げの控えを進める。段階の変わった伝言は外れる。 -/
def keepWithdrawn (db : PromptDb) (ids : List Nat) : List Nat :=
  ids.filter fun id => (db.find? id).all fun r => stageIs r.highestStage .suppressed

/-- 一歩。 -/
def promptStep (s : PromptState) : PromptAct → PromptOutcome × PromptState
  | .op o =>
    match o.body s.db with
    | .ok (out, db) =>
      (out, { s with db, withdrawn := keepWithdrawn db (o.withdraws s.db ++ s.withdrawn) })
    | .error e => (.failed e, s)
  | .begin pid now w call =>
    match s.pc pid with
    | .idle =>
      match call.start s.db now w with
      | .ok (pc, db) =>
        (.done, ⟨db, Function.update s.pc pid pc, keepWithdrawn db s.withdrawn⟩)
      | .error e => (.failed e, s)
    | _ => (.done, s)
  | .next pid now ok w notices recoveryText =>
    let (out, pc, db) := (s.pc pid).advance s.db now ok w notices recoveryText
    (out, ⟨db, Function.update s.pc pid pc, keepWithdrawn db s.withdrawn⟩)
  | .crash pid => (.done, { s with pc := Function.update s.pc pid .idle })

/-- その伝言への確認である一歩。 -/
def Acknowledges (s : PromptState) (id : Nat) : PromptAct → Prop
  | .op (.settleRecipientMessage _ i _ _) => i = id
  | .op (.operatorTurn _ (some i)) => i = id
  | .next pid _ _ _ _ _ => s.pc pid = .ackStamp id
  | _ => False

/-! ## 割り込みの無い呼び出し -/

/-- 残りの文の数。 -/
def PromptPc.remaining : PromptPc → Nat
  | idle => 0
  | ackStamp _ => 2
  | infer ids => ids.length + 1
  | _ => 1

/-- 位置 `pc` から文を `n` 個、割り込まれずに続ける。`i` 番目の文は時刻 `clock i` を読む。 -/
def PromptPc.finish (clock : Nat → Time) (ok : Bool) (w : Surroundings)
    (notices : Nat → List AbandonNotice) (recoveryText : PromptRow → String) :
    Nat → PromptPc → PromptDb → PromptPc × PromptDb
  | 0, pc, db => (pc, db)
  | n + 1, pc, db =>
    let (_, pc', db') := pc.advance db (clock n) ok w notices recoveryText
    finish clock ok w notices recoveryText n pc' db'

/-- 一度に終わる操作。割り込める操作も、始めから終わりまでを続けて行う。 -/
inductive SerialOp where
  | op (o : PromptOp)
  | call (c : PromptCall) (now : Time) (clock : Nat → Time) (ok : Bool) (w : Surroundings)
      (notices : Nat → List AbandonNotice) (recoveryText : PromptRow → String)

/-- 操作を一つ行う。落ちた操作は表を変えない。 -/
def serialStep (db : PromptDb) : SerialOp → PromptDb
  | .op o =>
    match o.body db with
    | .ok (_, db') => db'
    | .error _ => db
  | .call c now clock ok w notices recoveryText =>
    match c.start db now w with
    | .ok (pc, db') => (pc.finish clock ok w notices recoveryText pc.remaining db').2
    | .error _ => db

/-- 一つの文で、残りは一つ減る。 -/
theorem PromptPc.advance_remaining (pc : PromptPc) (db : PromptDb) (now : Time) (ok : Bool)
    (w : Surroundings) (notices : Nat → List AbandonNotice) (recoveryText : PromptRow → String) :
    (pc.advance db now ok w notices recoveryText).2.1.remaining = pc.remaining - 1 := by
  cases pc with
  | infer ids =>
    cases ids with
    | nil => rfl
    | cons id ids => rfl
  | drain q =>
    simp only [PromptPc.advance]
    split <;> rfl
  | _ => rfl

/-- 続けた呼び出しは終わる。残りの文の数は、`finish` の燃料として足りる。 -/
theorem PromptPc.finish_remaining (clock : Nat → Time) (ok : Bool) (w : Surroundings)
    (notices : Nat → List AbandonNotice) (recoveryText : PromptRow → String) (pc : PromptPc)
    (db : PromptDb) :
    (pc.finish clock ok w notices recoveryText pc.remaining db).1.remaining = 0 := by
  have hgen : ∀ n (pc : PromptPc) db, pc.remaining = n →
      (pc.finish clock ok w notices recoveryText n db).1.remaining = 0 := by
    intro n
    induction n with
    | zero => exact fun pc db h => h
    | succ n ih =>
      intro pc db h
      have hrem := pc.advance_remaining db (clock n) ok w notices recoveryText
      rw [h] at hrem
      exact ih _ _ hrem
  exact hgen pc.remaining pc db rfl

end Cassy
