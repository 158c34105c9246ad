import Cassy.Agent.Registry
import Cassy.Verification.Dispatch

/-!
# 検証者の権限

`verification_store.rs` の、`verification_capabilities` と `verification_handoffs` を動かす
関数。渡し方は二通りある。

* token を検証者に直に渡す古い渡し方。`vcap-` で始まる
* server が仲介し、token を外に出さない渡し方。`vhnd-` で始まり、handoff の行を伴う

どちらも「発行 → 束縛 → 消費」と進み、消費は一度きりである。SHA-256 は引数 `Digests` に取る。
-/

namespace Cassy

open Infra

/-- `sha2` を使う関数。 -/
structure Digests where
  /-- `capability_token_hash`。 -/
  capabilityToken : String → String
  /-- `verifier_handoff_tool_hash`。 -/
  handoffTool : String → String
  /-- `verifier_handoff_secret_hash`。 -/
  handoffSecret : List UInt8 → String
  /-- `delivery_store::digest`。 -/
  delivery : List String → String

/-- `VERIFIER_CAPABILITY_TTL_MINUTES`。 -/
def verifierCapabilityTtl : Int := seconds (30 * 60)

/-- `is_server_handoff`。 -/
def isServerHandoff (c : VerifierCapability) : Bool := "vhnd-".toList.isPrefixOf c.id.toList

/-- `char::is_ascii_alphanumeric`。 -/
def isAsciiAlphanumeric (c : Char) : Bool :=
  ('0' ≤ c && c ≤ '9') || ('A' ≤ c && c ≤ 'Z') || ('a' ≤ c && c ≤ 'z')

/-- `capability_id_from_token`。 -/
def capabilityIdFromToken (token : String) : Except StoreError String :=
  let t := token.toList
  let id := t.takeWhile (· ≠ '.')
  match t.dropWhile (· ≠ '.') with
  | [] => .error (.parse "malformed verifier capability")
  | _ :: secret =>
    if "vcap-".toList.isPrefixOf id ∧ id.all (fun c => isAsciiAlphanumeric c || c = '-')
        ∧ 32 ≤ (String.ofList secret).utf8ByteSize then
      .ok (String.ofList id)
    else .error (.parse "malformed verifier capability")

/-- 発行した権限と、一度だけ返す token。 -/
structure IssuedVerifierCapability where
  capability : VerifierCapability
  token : String
  deriving DecidableEq, Repr

namespace ProofDb

variable (H : Digests) (db : ProofDb)

/-! ## 発行 -/

/-- 束縛前の権限。 -/
def unboundCapability (id taskId dispatchId issuer tokenHash : String) (issuedAt : Time) :
    VerifierCapability where
  id
  taskId
  dispatchId := some dispatchId
  issuerAgentId := issuer
  verifierAgentId := none
  tokenHash
  issuedAt
  expiresAt := issuedAt + verifierCapabilityTtl
  boundAt := none
  consumedAt := none

/-- 権限を挿す。 -/
def insertCapability (c : VerifierCapability) : Except StoreError ProofDb := do
  let capabilities ← okOr (db.capabilities.insert? c)
    (uniqueFailed "verification_capabilities.id")
  pure { db with capabilities }

/-- `issue_verifier_capability`。`rid` と `secret` は 16 進の乱数。 -/
def issueVerifierCapability (taskId issuer rid secret : String) (now issuedAt : Time) :
    Except StoreError (IssuedVerifierCapability × ProofDb) := do
  let dispatch ← okOr ((db.latestDispatch? taskId).filter fun d =>
      d.state = .pending ∧ d.ownerAgentId = issuer ∧ now < d.deadlineAt)
    (.parse "verifier capability requires an active owned unexpired dispatch")
  let id := "vcap-" ++ rid
  let token := id ++ "." ++ secret
  let capability := unboundCapability id taskId dispatch.id issuer (H.capabilityToken token)
    issuedAt
  let db ← db.insertCapability capability
  pure ({ capability, token }, db)

/-- まだ束縛も消費もされていない権限か。 -/
def isUnbound (c : VerifierCapability) : Bool :=
  c.verifierAgentId = none ∧ c.consumedAt = none

/-- 期限の切れた、束縛前の handoff。 -/
def expiredHandoffIds (now : Time) : List String :=
  (db.joinedHandoffs fun h c => h.state = .pending ∧ isUnbound c ∧ c.expiresAt ≤ now).map
    (·.capabilityId)

/-- `DELETE FROM verification_handoffs WHERE capability_id = ? AND state = 'pending'`。 -/
def deletePendingHandoff (id : String) : ProofDb :=
  { db with
    handoffs := db.handoffs.delete fun h => h.capabilityId = id ∧ h.state = .pending }

/-- 期限の切れた handoff を権限ごと消す。 -/
def sweepExpiredHandoffs (now : Time) : ProofDb :=
  (db.expiredHandoffIds now).foldl
    (fun db id => (db.deletePendingHandoff id).deleteUnboundCapability id) db

/-- 発行者の、束縛を待っている handoff。 -/
def awaitingHandoffs (issuer : String) (now : Time) : List VerifierHandoff :=
  db.joinedHandoffs fun h c =>
    h.issuerAgentId = issuer ∧ h.state = .pending ∧ isUnbound c ∧ now < c.expiresAt

/-- handoff を挿す。 -/
def insertHandoff (h : VerifierHandoff) : Except StoreError ProofDb := do
  ensure (¬ db.handoffs.rows.any fun h' =>
      h'.issuerAgentId = h.issuerAgentId ∧ h'.state = .pending)
    (uniqueFailed "verification_handoffs.issuer_agent_id")
  let handoffs ← okOr (db.handoffs.insert? h) (uniqueFailed "verification_handoffs.capability_id")
  pure { db with handoffs }

/-- `issue_server_verifier_handoff_with_secret`。 -/
def issueServerVerifierHandoff (taskId dispatchId issuer toolUseId : String) (secret : List UInt8)
    (rid : String) (now : Time) : Except StoreError (VerifierCapability × ProofDb) := do
  ensure (nonBlank toolUseId ∧ secret ≠ [])
    (.parse "verifier handoff requires hook-local correlation and entropy")
  -- 掃除は発行の検査より前に行い、検査に落ちれば transaction ごと巻き戻る。
  let db := db.sweepExpiredHandoffs now
  ensure (db.awaitingHandoffs issuer now = []) (.parse
    "another task-verifier spawn is already awaiting SubagentStart for this parent; wait for it to bind or for exact failure cleanup/expiry")
  let dispatch ← db.getDispatch dispatchId
  ensure (dispatch.taskId = taskId ∧ dispatch.ownerAgentId = issuer ∧ dispatch.state = .pending
    ∧ now < dispatch.deadlineAt)
    (.parse "verifier handoff requires the exact active owned dispatch")
  let capability := unboundCapability ("vhnd-" ++ rid) taskId dispatch.id issuer
    (H.handoffSecret secret) now
  let db ← db.insertCapability capability
  let db ← db.insertHandoff
    { capabilityId := capability.id, issuerAgentId := issuer, verifierAgentId := none
      toolUseIdHash := H.handoffTool toolUseId, state := .pending, createdAt := now
      boundAt := none, consumedAt := none }
  pure (capability, db)

/-! ## 束縛 -/

/-- `bind_verifier_capability`。割り当ての確保は別の関数である。 -/
def bindVerifierCapability (token verifier : String) (now now' boundAt : Time) :
    Except StoreError (VerifierCapability × ProofDb) := do
  let id ← capabilityIdFromToken token
  let capability ← db.loadCapability id
  let dispatchId ← okOr capability.dispatchId
    (.parse "legacy verifier capability has no proof boundary")
  let dispatch ← db.getDispatch dispatchId
  ensure (isUnbound capability ∧ now < capability.expiresAt ∧ dispatch.state = .pending
    ∧ dispatch.ownerAgentId = capability.issuerAgentId ∧ now' < dispatch.deadlineAt
    ∧ capability.tokenHash = H.capabilityToken token ∧ verifier ≠ capability.issuerAgentId)
    (.parse "verifier capability cannot be bound")
  -- 時計は検査と `UPDATE` で別々に読む。間に期限が切れれば一行も変わらず、競合として落ちる。
  let p := fun c : VerifierCapability => decide (c.id = id ∧ isUnbound c ∧ boundAt < c.expiresAt)
  ensure (db.capabilities.count p = 1) (.parse "verifier capability binding raced or expired")
  let db := db.updateCapabilities p fun c =>
    { c with verifierAgentId := some verifier, boundAt := some boundAt }
  let bound ← db.loadCapability id
  pure (bound, db)

/-- `validate_distinct_verifier_child`。 -/
def validateDistinctVerifierChild (issuer verifier : String) : Except StoreError Unit :=
  ensure (nonBlank issuer ∧ nonBlank verifier ∧ issuer ≠ verifier)
    (.parse "verifier handoff requires a distinct registered child")

/-- 束縛できる handoff が丁度一つなら、その権限の id。 -/
def soleAwaitingHandoff (issuer : String) (now : Time) : Except StoreError String :=
  match db.awaitingHandoffs issuer now with
  | [h] => .ok h.capabilityId
  | _ => .error (.parse "verifier handoff is missing or ambiguous for this registered parent")

/-- `bind_server_verifier_handoff_with_conn`。束縛と割り当ての確保を一度に行う。 -/
def bindServerHandoffWithConn (issuer verifier : String) (now : Time) :
    Except StoreError (VerifierCapability × ProofDb) := do
  let id ← db.soleAwaitingHandoff issuer now
  let capability ← db.loadCapability id
  ensure (isServerHandoff capability ∧ capability.issuerAgentId = issuer)
    (.parse "verifier handoff type or issuer binding is invalid")
  let dispatchId ← okOr capability.dispatchId
    (.parse "verifier handoff has no exact proof boundary")
  let dispatch ← db.getDispatch dispatchId
  ensure (dispatch.taskId = capability.taskId ∧ dispatch.ownerAgentId = issuer
    ∧ dispatch.state = .pending ∧ now < dispatch.deadlineAt)
    (.parse "verifier handoff exact dispatch is not active")
  let p := fun c : VerifierCapability =>
    decide (c.id = capability.id ∧ isUnbound c ∧ now < c.expiresAt)
  ensure (db.capabilities.count p = 1) (.parse "verifier handoff binding raced or expired")
  let db := db.updateCapabilities p fun c =>
    { c with verifierAgentId := some verifier, boundAt := some now }
  let q := fun h : VerifierHandoff => decide (h.capabilityId = capability.id
    ∧ h.issuerAgentId = issuer ∧ h.state = .pending ∧ h.verifierAgentId = none)
  ensure (db.handoffs.count q = 1) (.parse "verifier handoff state binding raced")
  let db := db.updateHandoffs q fun h =>
    { h with verifierAgentId := some verifier, state := .bound, boundAt := some now }
  -- 三つの行は一つの transaction で動く。どれかが一行に当たらなければ全部が巻き戻る。
  let due := fun d : VerificationDispatch =>
    decide (d.ownerAgentId = issuer ∧ d.state = .pending ∧ now < d.deadlineAt)
  ensure (db.countDispatch dispatch.id due = 1)
    (.parse "verifier handoff could not claim its exact dispatch")
  let db := db.updateDispatch dispatch.id due fun d =>
    { d with
      verifierAgentId := some verifier, capabilityId := some capability.id, state := .claimed }
  let bound ← db.loadCapability capability.id
  pure (bound, db)

/-- `bind_server_verifier_handoff`。 -/
def bindServerVerifierHandoff (issuer verifier : String) (now : Time) :
    Except StoreError (VerifierCapability × ProofDb) := do
  validateDistinctVerifierChild issuer verifier
  db.bindServerHandoffWithConn issuer verifier now

/-- 検証者として登録してよい子か。 -/
def isOfficialChild (issuer : String) (child : Agent) : Bool :=
  child.name = "task-verifier" ∧ child.agentType = .subAgent ∧ child.role = .standard
    ∧ child.parentId = some issuer ∧ child.status = .active

/-- `bind_server_verifier_handoff_and_register_child`。登録に落ちれば束縛も巻き戻る。 -/
def bindServerHandoffAndRegisterChild (issuer : String) (child : Agent) (env : Option String)
    (capture : Except StoreError Unit) (rehomedAt : String) (now : Time) :
    Except StoreError (VerifierCapability × ProofDb) := do
  validateDistinctVerifierChild issuer child.id
  ensure (isOfficialChild issuer child) (.parse
    "verifier handoff requires the exact official task-verifier child identity")
  ensure ((db.base.agents.find? issuer).any (·.status.isLive))
    (.parse "verifier handoff issuer is not an active registered parent")
  ensure ((db.base.agents.find? child.id).all fun a =>
      a.agentType = .subAgent ∧ a.role = .standard ∧ a.parentId = some issuer)
    (.parse "verifier child identity conflicts with an existing registered session")
  let (bound, db) ← db.bindServerHandoffWithConn issuer child.id now
  let (_, base) ← db.base.register child env capture rehomedAt
  pure (bound, { db with base })

/-! ## 取り消し -/

/-- `cancel_unbound_server_verifier_handoff`。束縛された行には触らない。 -/
def cancelUnboundServerHandoff (issuer toolUseId : String) :
    Except StoreError (Bool × ProofDb) :=
  if ¬ nonBlank issuer ∨ ¬ nonBlank toolUseId then .ok (false, db)
  else
    match db.joinedHandoffs fun h c => h.issuerAgentId = issuer ∧ h.state = .pending
        ∧ h.verifierAgentId = none ∧ isUnbound c ∧ h.toolUseIdHash = H.handoffTool toolUseId with
    | [] => .ok (false, db)
    | [h] =>
      let id := h.capabilityId
      let p := fun h : VerifierHandoff =>
        decide (h.capabilityId = id ∧ h.state = .pending ∧ h.verifierAgentId = none)
      -- handoff を先に消し、消せたときだけ権限を消す。
      let db₁ := { db with handoffs := db.handoffs.delete p }
      if db.handoffs.count p = 1 then
        .ok (db₁.capabilities.count (fun c => c.id = id && isUnbound c) = 1,
          db₁.deleteUnboundCapability id)
      else .ok (false, db₁)
    | _ => .error (.parse "verifier handoff cleanup is ambiguous")

/-! ## 消費 -/

/-- `consume_verifier_capability_with_conn`。 -/
def consumeVerifierCapability (token taskId verifier : String) (now now' consumedAt : Time) :
    Except StoreError (VerifierCapability × ProofDb) := do
  let id ← capabilityIdFromToken token
  let capability ← db.loadCapability id
  let dispatchId ← okOr capability.dispatchId
    (.parse "legacy verifier capability has no proof boundary")
  let dispatch ← db.getDispatch dispatchId
  ensure (capability.taskId = taskId ∧ capability.verifierAgentId = some verifier
    ∧ capability.consumedAt = none ∧ now < capability.expiresAt ∧ dispatch.taskId = taskId
    ∧ dispatch.state = .claimed ∧ dispatch.verifierAgentId = some verifier
    ∧ dispatch.capabilityId = some capability.id ∧ now' < dispatch.deadlineAt
    ∧ capability.tokenHash = H.capabilityToken token) (.parse
    "verifier capability is invalid, expired, consumed, or bound to another task/session")
  let p := fun c : VerifierCapability => decide (c.id = id ∧ c.consumedAt = none
    ∧ c.verifierAgentId = some verifier ∧ c.taskId = taskId ∧ consumedAt < c.expiresAt)
  ensure (db.capabilities.count p = 1) (.parse "verifier capability was already consumed")
  pure ({ capability with consumedAt := some consumedAt },
    db.updateCapabilities p fun c => { c with consumedAt := some consumedAt })

/-- 遅れた判定を受けてよい、merge 前の割り当てか。 -/
def isLateCurrent (capability : VerifierCapability) (dispatch expected : VerificationDispatch) :
    Bool :=
  expected = dispatch ∧ dispatch.repository.isSome
    ∧ (dispatch.state = .claimed ∨ dispatch.state = .timedOut)
    ∧ capability.boundAt.any fun bound => capability.issuedAt ≤ bound
      ∧ bound < capability.expiresAt ∧ bound < dispatch.deadlineAt

/-- 遅れた判定のために、期限切れの割り当てを `claimed` に戻す。 -/
def reviveTimedOut (late : Bool) (dispatch : VerificationDispatch) : Except StoreError ProofDb :=
  if late ∧ dispatch.state = .timedOut then do
    ensure (¬ db.hasOtherActive dispatch.taskId dispatch.id)
      (uniqueFailed "verification_dispatches.task_id")
    pure (db.updateDispatch dispatch.id (fun d => d.state = .timedOut) fun d =>
      { d with state := .claimed })
  else .ok db

/-- `consume_server_handoff_with_conn`。`expected` は遅れた判定が見ていた割り当て。 -/
def consumeServerHandoff (capabilityId taskId verifier : String)
    (expected : Option VerificationDispatch) (now : Time) :
    Except StoreError (VerifierCapability × ProofDb) := do
  let capability ← db.loadCapability capabilityId
  ensure (isServerHandoff capability) (.parse "verifier handoff type is invalid")
  let dispatchId ← okOr capability.dispatchId
    (.parse "verifier handoff has no exact proof boundary")
  let dispatch ← db.getDispatch dispatchId
  let late := expected.any (isLateCurrent capability dispatch)
  ensure (expected.isSome → late ∧
      (db.latestDispatch? taskId).any fun current => current.id = dispatch.id)
    (.parse "late verifier dispatch was changed or superseded")
  let q := fun h : VerifierHandoff => decide (h.capabilityId = capability.id
    ∧ h.verifierAgentId = some verifier ∧ h.state = .bound ∧ h.consumedAt = none)
  ensure (capability.taskId = taskId ∧ capability.verifierAgentId = some verifier
    ∧ capability.consumedAt = none ∧ now < capability.expiresAt ∧ dispatch.taskId = taskId
    ∧ (late ∨ dispatch.state = .claimed) ∧ dispatch.verifierAgentId = some verifier
    ∧ dispatch.capabilityId = some capability.id ∧ (late ∨ now < dispatch.deadlineAt)
    ∧ db.handoffs.count (fun h => q h && h.issuerAgentId = capability.issuerAgentId) = 1)
    (.parse "verifier handoff is invalid, expired, consumed, or bound to another task/session")
  -- 遅れた判定は、期限切れにした割り当てを `claimed` に戻してから受ける。
  let db ← db.reviveTimedOut late dispatch
  let p := fun c : VerifierCapability => decide (c.id = capability.id ∧ c.consumedAt = none
    ∧ c.verifierAgentId = some verifier ∧ c.taskId = taskId ∧ now < c.expiresAt)
  ensure (db.capabilities.count p = 1) (.parse "verifier handoff was already consumed")
  let db := db.updateCapabilities p fun c => { c with consumedAt := some now }
  ensure (db.handoffs.count q = 1) (.parse "verifier handoff audit consumption raced")
  pure ({ capability with consumedAt := some now },
    db.updateHandoffs q fun h => { h with state := .consumed, consumedAt := some now })

end ProofDb

end Cassy
