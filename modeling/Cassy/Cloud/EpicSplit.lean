import Mathlib.Data.List.Sort
import Cassy.Infra.Table
import Cassy.Store.Types

/-!
# epic の分割

`epic_split_store.rs` と `cloud/epic_split.rs`。二人の supervisor が、一つの epic の子を分け合う。どちらも自分の
database に、自分の側から見た分割を書く。`mine` は自分の取り分、`theirs` は相手の取り分である。

状態の書き換えは、今の状態を条件とする一つの `UPDATE` である（`decideEpicSplitBy`）。分割は消えない。

ほかの操作が見るのは、保存された分割そのものではなく射影である（`currentEpicSplits`）。射影は、手放した子、別の epic に
移った子、終わった epic の分割を隠す。
-/

namespace Cassy

open Infra

inductive SplitDirection where
  /-- 自分が申し出た。 -/
  | outgoing
  /-- 相手が申し出た。 -/
  | incoming
  deriving DecidableEq, Repr

inductive SplitState where
  | pending | accepted | rejected | cancelled | expired
  deriving DecidableEq, Repr

/-- 一つの分割を、この database の側から見たもの。 -/
structure EpicSplit where
  id : String
  epicId : String
  localAgentId : String
  peerAgentId : String
  peerName : String
  peerMachine : String
  direction : SplitDirection
  mine : List String
  theirs : List String
  state : SplitState
  reason : Option String
  messageId : Option String
  expiresAt : Time
  createdAt : Time
  decidedAt : Option Time
  decidedBy : Option String
  cleanupPending : Bool
  expiryNoticePending : Bool
  deriving DecidableEq, Repr

namespace EpicSplit

/-- 期限を過ぎた、答の無い申し出。 -/
def isExpired (s : EpicSplit) (now : Time) : Bool := s.state = .pending && s.expiresAt ≤ now

/-- この側を縛る。相手の申し出は、受けるまで何も縛らない。 -/
def isBinding (s : EpicSplit) (now : Time) : Bool :=
  match s.state with
  | .accepted => true
  | .pending => s.direction = .outgoing && !s.isExpired now
  | .rejected | .cancelled | .expired => false

/-- `split.mine.iter().chain(&split.theirs)` -/
def shares (s : EpicSplit) : List String := s.mine ++ s.theirs

/-- どちらかの取り分が残っている。 -/
def hasShare (s : EpicSplit) : Bool := !s.mine.isEmpty || !s.theirs.isEmpty

/-- 二つの取り分の `retain`。 -/
def keep (s : EpicSplit) (p : String → Bool) : EpicSplit :=
  { s with mine := s.mine.filter p, theirs := s.theirs.filter p }

end EpicSplit

/-- 分割の表。 -/
abbrev SplitTable := Table EpicSplit.id

/-- 時刻の列を SQL がどう見るか。列の値は `to_rfc3339` の書いた文字列である。 -/
structure SplitSql where
  /-- `ORDER BY` の比べる文字列 -/
  rfc3339 : Time → String
  /-- `julianday`。読めない文字列では `NULL` になる。 -/
  julianday : Time → Option Int

/-- SQL の比較。`NULL` との比較は偽である。 -/
def SplitSql.lt (sql : SplitSql) (a b : Time) : Bool :=
  match sql.julianday a, sql.julianday b with
  | some x, some y => x < y
  | _, _ => false

/-- 決定の引数。 -/
structure SplitDecision where
  id : String
  fromStates : List SplitState
  toState : SplitState
  reason : Option String
  time : Time
  actor : Option String
  deriving DecidableEq, Repr

namespace SplitDecision

/-- `decide_epic_split_by` の `WHERE`。 -/
def applies (sql : SplitSql) (d : SplitDecision) (s : EpicSplit) : Bool :=
  s.id = d.id && s.state ∈ d.fromStates
    && (d.toState ≠ .accepted || sql.lt d.time s.expiresAt)
    && (d.toState ≠ .expired ||
      match sql.julianday d.time, sql.julianday s.expiresAt with
      | some x, some y => y ≤ x
      | _, _ => false)

/-- `decide_epic_split_by` の `SET`。 -/
def apply (d : SplitDecision) (s : EpicSplit) : EpicSplit :=
  { s with
    state := d.toState
    reason := d.reason.or s.reason
    decidedAt := some d.time
    decidedBy := d.actor
    cleanupPending :=
      (d.toState = .rejected && s.direction = .outgoing)
        || (d.toState = .expired && (s.direction = .outgoing || s.state = .accepted))
    expiryNoticePending := d.toState = .expired && d.actor = some s.localAgentId }

end SplitDecision

/-- `insert_epic_split`。同じ id があれば何もしない。 -/
def insertEpicSplit (t : SplitTable) (s : EpicSplit) : SplitTable := t.insertOrIgnore s

/-- `decide_epic_split_by`。書き換えたかどうかを返す。 -/
def decideEpicSplitBy (sql : SplitSql) (t : SplitTable) (d : SplitDecision) : Bool × SplitTable :=
  (t.count (d.applies sql) = 1, t.update (d.applies sql) d.apply)

/-- `finish_epic_split_work` の `SET`。 -/
def EpicSplit.settle (cleanup : Bool) (s : EpicSplit) : EpicSplit :=
  { s with
    cleanupPending := s.cleanupPending && !cleanup
    expiryNoticePending := s.expiryNoticePending && cleanup }

/-- `finish_epic_split_work`。その決定の仕事だけを片付ける。 -/
def finishEpicSplitWork (t : SplitTable) (s : EpicSplit) (cleanup : Bool) : SplitTable :=
  t.update
    (fun r => r.id = s.id && r.state = s.state && r.decidedAt.isSome && r.decidedAt = s.decidedAt)
    (EpicSplit.settle cleanup)

/-- `ORDER BY created_at DESC, id` -/
def SplitSql.newer (sql : SplitSql) (a b : EpicSplit) : Bool :=
  sql.rfc3339 b.createdAt < sql.rfc3339 a.createdAt
    || (sql.rfc3339 a.createdAt = sql.rfc3339 b.createdAt && decide (a.id ≤ b.id))

/-- `ORDER BY expires_at, id` -/
def SplitSql.sooner (sql : SplitSql) (a b : EpicSplit) : Bool :=
  sql.rfc3339 a.expiresAt < sql.rfc3339 b.expiresAt
    || (sql.rfc3339 a.expiresAt = sql.rfc3339 b.expiresAt && decide (a.id ≤ b.id))

/-- `list_epic_splits` -/
def listEpicSplits (sql : SplitSql) (t : SplitTable) : List EpicSplit :=
  t.rows.insertionSort fun a b => sql.newer a b = true

/-- `pending_epic_split_work` の `WHERE`。 -/
def SplitSql.hasWork (sql : SplitSql) (now : Time) (owners : List String) (s : EpicSplit) : Bool :=
  s.localAgentId ∈ owners
    && (s.cleanupPending || s.expiryNoticePending
      || (s.state = .pending &&
        match sql.julianday s.expiresAt, sql.julianday now with
        | some x, some y => x ≤ y
        | _, _ => false))

/-- `pending_epic_split_work` -/
def pendingEpicSplitWork (sql : SplitSql) (t : SplitTable) (now : Time) (owners : List String) :
    List EpicSplit :=
  ((t.rows.filter (sql.hasWork now owners)).insertionSort fun a b => sql.sooner a b = true).take 64

/-! ## task -/

/-- 分割の読む task の列。 -/
structure SplitTask where
  id : String
  isEpic : Bool
  status : TaskStatus
  deriving DecidableEq, Repr

/-- 閉じたか取り消された task。 -/
def SplitTask.isTerminal (t : SplitTask) : Bool := t.status = .closed || t.status = .cancelled

/-- `dependencies` の `parent-child` の行。 -/
structure ParentRow where
  fromId : String
  toId : String
  createdAt : String
  deriving DecidableEq, Repr

/-- task と親子の行。 -/
structure SplitTasks where
  tasks : Table SplitTask.id
  parents : List ParentRow

namespace SplitTasks

/-- `get_parent_epic` の `ORDER BY`。 -/
def parentBefore (a b : SplitTask × ParentRow) : Bool :=
  if a.1.isTerminal ≠ b.1.isTerminal then !a.1.isTerminal
  else if a.2.createdAt ≠ b.2.createdAt then decide (b.2.createdAt < a.2.createdAt)
  else decide (a.1.id ≤ b.1.id)

/-- `get_parent_epic` -/
def getParentEpic (t : SplitTasks) (taskId : String) : Option SplitTask :=
  let rows := (t.parents.filter (·.fromId = taskId)).filterMap fun d =>
    ((t.tasks.find? d.toId).filter (·.isEpic)).map (·, d)
  (rows.insertionSort fun a b => parentBefore a b = true).head?.map (·.1)

/-- 分割の epic が終わっている。見つからない epic は、終わった証拠にならない。 -/
def isTerminal (t : SplitTasks) (epicId : String) : Bool := (t.tasks.find? epicId).any (·.isTerminal)

/-- 子が、まだその epic の子である。親の分からない子も数える。 -/
def stillChild (t : SplitTasks) (epicId child : String) : Bool :=
  (t.getParentEpic child).all (·.id = epicId)

/-- 射影が、その epic のその子を隠さない。 -/
def shows (t : SplitTasks) (epicId child : String) : Bool := !t.isTerminal epicId && t.stillChild epicId child

end SplitTasks

/-! ## 射影 -/

instance lawfulBEq_release : LawfulBEq (String × String) := Prod.instLawfulBEq

/-- 分割と、手放した子と、task。 -/
structure SplitDb where
  splits : SplitTable := .empty
  releases : List (String × String) := []
  tasks : SplitTasks

/-- `without_released_children` -/
def withoutReleasedChildren (releases : List (String × String)) (splits : List EpicSplit) :
    List EpicSplit :=
  (splits.map fun s => s.keep fun c => decide ((s.id, c) ∉ releases)).filter (·.hasShare)

/-- `projected_epic_splits` の、一つの分割の射影。 -/
def SplitTasks.project (t : SplitTasks) (includeCleanup : Bool) (s : EpicSplit) : Option EpicSplit :=
  if includeCleanup && s.cleanupPending then some s
  else if t.isTerminal s.epicId then none
  else Option.guard (·.hasShare) (s.keep (t.stillChild s.epicId))

/-- `projected_epic_splits` -/
def projectedEpicSplits (sql : SplitSql) (db : SplitDb) (includeCleanup : Bool) : List EpicSplit :=
  (withoutReleasedChildren db.releases (listEpicSplits sql db.splits)).filterMap
    (db.tasks.project includeCleanup)

/-- `current_epic_splits` -/
def currentEpicSplits (sql : SplitSql) (db : SplitDb) : List EpicSplit := projectedEpicSplits sql db false

/-- `overlapping` が重なりを探す分割。期限の切れた自分の申し出も数える。 -/
def EpicSplit.blocks (s : EpicSplit) (now : Time) : Bool :=
  s.cleanupPending || s.state = .accepted
    || (s.state = .pending && (s.direction = .outgoing || !s.isExpired now))

/-- `overlapping` の、射影を読んだ後の計算。 -/
def overlapOf (now : Time) (ids : List String) (except : Option String) (splits : List EpicSplit) :
    Option (EpicSplit × String) :=
  ((splits.filter fun s => decide (some s.id ≠ except)).filter (·.blocks now)).findSome? fun s =>
    (ids.find? fun c => decide (c ∈ s.mine ∨ c ∈ s.theirs)).map (s, ·)

/-! ## 分割の知らせ -/

inductive SplitKind where
  | proposal | accept | reject | cancel | expired
  deriving DecidableEq, Repr

/-- 知らせの、機械の読む行。取り分は申し出た側から名付ける。 -/
structure SplitMessage where
  kind : SplitKind
  id : String
  epic : String
  proposerTakes : List String
  peerTakes : List String
  expiresAt : Option Time
  time : Time
  reason : Option String
  deriving DecidableEq, Repr

/-- cloud が届けた知らせ。差し出し人は cloud が書く。 -/
structure ClaimedPeerMessage where
  id : String
  senderAgentId : String
  senderName : String
  senderMachine : String
  line : SplitMessage
  deriving DecidableEq, Repr

/-- `ingest` の `(from, to)`。 -/
def SplitKind.moves : SplitKind → List SplitState × SplitState
  | .proposal => ([], .pending)
  | .accept => ([.pending], .accepted)
  | .reject => ([.pending], .rejected)
  | .cancel => ([.pending, .accepted], .cancelled)
  | .expired => ([.pending, .accepted], .expired)

/-- `ingest` が、分割の当事者と日付を確かめる。 -/
def SplitMessage.admits (line : SplitMessage) (sender recipient : String) (split : EpicSplit) : Bool :=
  split.peerAgentId = sender && split.localAgentId = recipient &&
    match line.kind with
    | .proposal => false
    | .accept => split.direction = .outgoing && line.time ≤ split.expiresAt
    | .reject => split.direction = .outgoing
    | .cancel => true
    | .expired => split.expiresAt ≤ line.time

/-- `ingest` が、申し出の行を確かめる。期限の無い申し出と、取り分の無い申し出は捨てる。 -/
def SplitMessage.offer (line : SplitMessage) : Option Time :=
  if line.epic = "" || (line.proposerTakes.isEmpty && line.peerTakes.isEmpty) then none
  else line.expiresAt

/-- `ingest` の書く、相手の申し出。 -/
def ClaimedPeerMessage.record (m : ClaimedPeerMessage) (recipient : String) (expiresAt now : Time) :
    EpicSplit where
  id := m.line.id
  epicId := m.line.epic
  localAgentId := recipient
  peerAgentId := m.senderAgentId
  peerName := m.senderName
  peerMachine := m.senderMachine
  direction := .incoming
  mine := m.line.peerTakes
  theirs := m.line.proposerTakes
  state := .pending
  reason := none
  messageId := some m.id
  expiresAt := expiresAt
  createdAt := now
  decidedAt := none
  decidedBy := none
  cleanupPending := false
  expiryNoticePending := false

/-- 相手の supervisor。 -/
structure SplitPeer where
  agentId : String := ""
  name : String := ""
  machine : String := ""
  deriving DecidableEq, Repr

/-- `propose` の引数。`peer` は、相手を探した後に定まる。 -/
structure SplitProposal where
  caller : String
  epicId : String
  mine : List String
  theirs : List String
  ttlSecs : Int
  peer : SplitPeer := {}
  deriving DecidableEq, Repr

/-- `MAX_TTL_SECS` -/
def maxTtlSecs : Int := 24 * 60 * 60

namespace SplitProposal

/-- 何も読まずに断らない。 -/
def valid (p : SplitProposal) : Bool :=
  !(p.mine.isEmpty && p.theirs.isEmpty) && p.mine.all (fun c => decide (c ∉ p.theirs))
    && decide (1 ≤ p.ttlSecs ∧ p.ttlSecs ≤ maxTtlSecs)

/-- `propose` の書く、自分の申し出。 -/
def record (p : SplitProposal) (id : String) (now : Time) : EpicSplit where
  id := id
  epicId := p.epicId
  localAgentId := p.caller
  peerAgentId := p.peer.agentId
  peerName := p.peer.name
  peerMachine := p.peer.machine
  direction := .outgoing
  mine := p.mine
  theirs := p.theirs
  state := .pending
  reason := none
  messageId := none
  expiresAt := now + seconds p.ttlSecs
  createdAt := now
  decidedAt := none
  decidedBy := none
  cleanupPending := false
  expiryNoticePending := false

end SplitProposal

end Cassy
