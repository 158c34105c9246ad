import Mathlib.Algebra.Ring.Nat
import Mathlib.Data.List.Sort
import Cassy.Verification.Db

/-!
# supervisor の引き継ぎ

`agent_store/continuity.rs` の操作。agent の一つの世代（id と登録時刻の組）が終わると、
`capture` がその時の作業の写しを `agent_session_ends` に残す。後から起きた supervisor は
`claim_supervisor_handoffs` で写しを引き取り、受信箱に積んでから
`mark_supervisor_handoff_queued` で済んだ印をつける。

三つはそれぞれ一つの transaction である。間に他の transaction が `agents` をどう書き換えるかは
分からないので、任意の書き換えを操作の一つに入れる。

写しの中身のうち、他の表から読む task・worker・未読の一覧は、読んだ結果を引数 `lane` に取る。
どう読んでも以下の性質には響かない。
-/

namespace Cassy

open Infra

/-- 引き継ぎの写しのうち、supervisor だけが持つ一覧。 -/
structure Lane where
  tasks : List Json := []
  workers : List Json := []
  pending : List Json := []

/-- 引き継ぎの写し。 -/
structure SessionEnd where
  id : String
  agentId : String
  name : String
  reason : String
  registeredAt : Time
  factorySession : Option String
  pid : Option Nat
  ppid : Option Nat
  pidStarttime : Option Nat
  parentStarttime : Option Nat
  tasks : List Json
  workers : List Json
  pending : List Json

/-- `agent_session_ends` の行。 -/
structure SessionEndRow where
  id : String
  agentId : String
  registeredAt : Time
  machineId : Option String
  role : AgentRole
  reason : String
  payload : String
  endedAt : Time
  claimedBy : Option String := none
  claimedEpoch : Option Time := none
  queuedAt : Option Time := none
  deriving DecidableEq, Repr

/-- 終わった世代。`UNIQUE(agent_id, registered_at)` の索引である。 -/
def SessionEndRow.incarnation (e : SessionEndRow) : String × Time := (e.agentId, e.registeredAt)

/-- `agent_session_ends`。主キーの外に、世代ごとに一行という索引を持つ。 -/
structure SessionEnds where
  table : Table SessionEndRow.id := .empty
  incarnations : (table.rows.map SessionEndRow.incarnation).Nodup := by exact List.nodup_nil

namespace SessionEnds

variable (t : SessionEnds)

/-- `UPDATE agent_session_ends SET … WHERE …`。世代の列は書き換えない。 -/
def update (p : SessionEndRow → Bool) (f : SessionEndRow → SessionEndRow)
    (hf : ∀ e, (f e).id = e.id := by exact fun _ => rfl)
    (hi : ∀ e, (f e).incarnation = e.incarnation := by exact fun _ => rfl) : SessionEnds where
  table := t.table.update p f hf
  incarnations := by
    rw [Table.map_update hf hi]
    exact t.incarnations

/-- `INSERT INTO agent_session_ends`。どちらの索引に当たっても落ちる。 -/
def insert? (e : SessionEndRow) : Except StoreError SessionEnds :=
  if h : e.incarnation ∈ t.table.rows.map SessionEndRow.incarnation then
    .error (uniqueFailed "agent_session_ends.agent_id, agent_session_ends.registered_at")
  else match hins : t.table.insert? e with
    | none => .error (uniqueFailed "agent_session_ends.id")
    | some table => .ok
      { table
        incarnations := by
          rw [(Table.insert?_eq_some hins).2, List.map_append, List.map_singleton]
          refine List.nodup_append.mpr ⟨t.incarnations, List.nodup_singleton _, ?_⟩
          intro a ha b hb
          rw [List.mem_singleton.mp hb]
          rintro rfl
          exact h ha }

end SessionEnds

/-- 引き継ぎに関わる表。 -/
structure ContinuityDb where
  agents : Table Agent.id := .empty
  ends : SessionEnds := {}

/-- 写しの符号化。id は `sha256("{id}\0{epoch}")` の十六進表記である。 -/
structure HandoffCodec where
  handoffId : String → Time → String
  encode : SessionEnd → Except String String
  parse : String → Except String SessionEnd

namespace ContinuityDb

variable (codec : HandoffCodec) (db : ContinuityDb)

/-- その世代の agent が生きているか。 -/
def incarnationLive (id : String) (epoch : Time) : Bool :=
  (db.agents.find? id).any fun a => a.registeredAt = epoch ∧ a.status.isLive

/-! ## 写しを残す -/

/-- 終わりの理由。空白しか無ければ分からないものとする。 -/
def endReason (reason : Option String) : String :=
  ((reason.map fun r => String.ofList (trim r.toList)).filter (· ≠ "")).getD "unknown"

/-- `capture` が作る写し。 -/
def snapshot (a : Agent) (reason : String) (lane : Lane) : SessionEnd where
  id := codec.handoffId a.id a.registeredAt
  agentId := a.id
  name := a.name
  reason
  registeredAt := a.registeredAt
  factorySession := a.factorySession
  pid := a.pid
  ppid := a.ppid
  pidStarttime := a.pidStarttime.filter (· < 2 ^ 63)
  parentStarttime := (a.metadata.lookup "ppid_starttime").bind fun s =>
    parseUnsigned (2 ^ 64 - 1) s.toList
  tasks := lane.tasks
  workers := lane.workers
  pending := lane.pending

/-- 一覧を集めるのは supervisor の写しだけである。 -/
def laneOf (role : AgentRole) (lane : Except StoreError Lane) : Except StoreError Lane :=
  if role = .supervisor then lane else .ok {}

/-- `capture`。一度残した写しは書き直さず、分からなかった理由だけを埋める。 -/
def capture (id : String) (reason : Option String) (lane : Except StoreError Lane) (now : Time) :
    Except StoreError ContinuityDb :=
  match db.agents.find? id with
  | none => .ok db
  | some a =>
    let reason := endReason reason
    if db.ends.table.rows.any fun e => e.incarnation = (id, a.registeredAt) then
      if reason ≠ "unknown" then
        .ok { db with
          ends := db.ends.update
            (fun e => e.agentId = id ∧ e.registeredAt = a.registeredAt ∧ e.reason = "unknown")
            fun e => { e with reason } }
      else .ok db
    else do
      let lane ← laneOf a.role lane
      let handoff := snapshot codec a reason lane
      let payload ← (codec.encode handoff).mapError StoreError.other
      let ends ← db.ends.insert?
        { id := handoff.id, agentId := id, registeredAt := a.registeredAt
          machineId := a.machineId, role := a.role, reason, payload, endedAt := now }
      pure { db with ends }

/-! ## 引き取る -/

/-- `decode`。理由は写しの中のものではなく、行のものを使う。 -/
def decode (payload reason : String) : Except StoreError SessionEnd := do
  let handoff ← (codec.parse payload).mapError StoreError.other
  pure { handoff with reason }

/-- 引き取った世代がまだ生きているか。 -/
def claimantLive (e : SessionEndRow) : Bool :=
  match e.claimedBy, e.claimedEpoch with
  | some id, some epoch => db.incarnationLive id epoch
  | _, _ => false

/-- `claim_supervisor_handoffs` の `SELECT` が選ぶ行。 -/
def claimable (successor : Agent) (e : SessionEndRow) : Bool :=
  e.role = .supervisor ∧ e.machineId = successor.machineId
    ∧ e.registeredAt < successor.registeredAt ∧ e.queuedAt = none
    ∧ ((db.agents.find? successor.id).any fun s =>
      s.registeredAt = successor.registeredAt ∧ s.machineId = successor.machineId
        ∧ s.role = .supervisor ∧ s.status.isLive)
    ∧ (e.claimedBy = none
      ∨ (e.claimedBy = some successor.id ∧ e.claimedEpoch = some successor.registeredAt)
      ∨ ¬ db.claimantLive e)
    ∧ ¬ db.incarnationLive e.agentId e.registeredAt

/-- 選ばれた行を、終わった順に並べたもの。 -/
def candidates (successor : Agent) : List SessionEndRow :=
  (db.ends.table.rows.filter (db.claimable successor)).insertionSort
    fun e e' => e.endedAt ≤ e'.endedAt

/-- 一行を引き取る `UPDATE`。 -/
def claimRow (successor : Agent) (id : String) : ContinuityDb :=
  { db with
    ends := db.ends.update (fun e => e.id = id) fun e =>
      { e with claimedBy := some successor.id, claimedEpoch := some successor.registeredAt } }

/-- 選ばれた行を順に引き取る。写しが読めなければ全体が落ちる。 -/
def claimRows (successor : Agent) (db : ContinuityDb) :
    List SessionEndRow → Except StoreError (List SessionEnd × ContinuityDb)
  | [] => .ok ([], db)
  | e :: es => do
    let db := db.claimRow successor e.id
    let handoff ← decode codec e.payload e.reason
    let (handoffs, db) ← claimRows successor db es
    pure (handoff :: handoffs, db)

/-- `claim_supervisor_handoffs`。 -/
def claimSupervisorHandoffs (successor : Agent) :
    Except StoreError (List SessionEnd × ContinuityDb) :=
  if successor.role ≠ .supervisor ∨ ¬ successor.status.isLive ∨ successor.machineId = none then
    .ok ([], db)
  else claimRows codec successor db (db.candidates successor)

/-- `mark_supervisor_handoff_queued`。 -/
def markSupervisorHandoffQueued (id : String) (successor : Agent) (now : Time) : ContinuityDb :=
  { db with
    ends := db.ends.update
      (fun e => e.id = id ∧ e.claimedBy = some successor.id
        ∧ e.claimedEpoch = some successor.registeredAt)
      fun e => { e with queuedAt := some now } }

end ContinuityDb

/-! ## 操作の一覧 -/

/-- 引き継ぎの操作。 -/
inductive ContinuityOp where
  /-- 他の transaction が `agents` を書き換える。 -/
  | agents (table : Table Agent.id)
  | capture (id : String) (reason : Option String) (lane : Except StoreError Lane) (now : Time)
  | claim (successor : Agent)
  | markQueued (id : String) (successor : Agent) (now : Time)

/-- 操作の本体。 -/
def ContinuityOp.body (codec : HandoffCodec) (db : ContinuityDb) :
    ContinuityOp → Except StoreError (List SessionEnd × ContinuityDb)
  | agents table => .ok ([], { db with agents := table })
  | capture id reason lane now => do
    let db ← db.capture codec id reason lane now
    pure ([], db)
  | claim successor => db.claimSupervisorHandoffs codec successor
  | markQueued id successor now => .ok ([], db.markSupervisorHandoffQueued id successor now)

/-- 一つの操作を実行する。 -/
def continuityStep (codec : HandoffCodec) (db : ContinuityDb) (op : ContinuityOp) :
    Except StoreError (List SessionEnd) × ContinuityDb := commit db (op.body codec db)

end Cassy
