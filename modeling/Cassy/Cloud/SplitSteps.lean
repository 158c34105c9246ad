import Mathlib.Data.Fintype.Basic
import Mathlib.Logic.Function.Basic
import Cassy.Infra.Run
import Cassy.Cloud.EpicSplit

/-!
# 分割の操作の一歩一歩

`propose`、`answer`、`cancel`、`ingest`、`reconcile` を、一つの database の supervisor たちと daemon が並んで走らせる。
database か cloud への一度の呼び出しが一歩であり、その間にほかの呼び出しと task の書き換えが入る。

重なりの検査（`overlapping`）も一歩ではない。分割の列、手放した子、epic と子の親を一つずつ読み、読んだものを覚えて使い
回す（`SplitScan`）。

cloud の答は一歩の入力である。`ok` が偽の一歩は、呼び出しが失敗したか、そこで打ち切られたことを表す。
-/

namespace Cassy

open Infra

/-! ## 重なりの検査 -/

/-- `projected_epic_splits` の途中。 -/
structure SplitScan where
  now : Time
  todo : List EpicSplit
  /-- `terminal_epics` -/
  epics : List (String × Bool) := []
  /-- `parents` -/
  parents : List (String × Option String) := []
  current : List EpicSplit := []
  deriving DecidableEq, Repr

/-- 一歩。まだ覚えていないものを一つ読むか、先頭の分割の始末を付ける。 -/
def SplitScan.next (t : SplitTasks) (includeCleanup : Bool) (c : SplitScan) : SplitScan :=
  match c.todo with
  | [] => c
  | s :: rest =>
    if includeCleanup && s.cleanupPending then { c with todo := rest, current := c.current ++ [s] }
    else
      match c.epics.lookup s.epicId with
      | none => { c with epics := (s.epicId, t.isTerminal s.epicId) :: c.epics }
      | some true => { c with todo := rest }
      | some false =>
        match s.shares.find? fun id => (c.parents.lookup id).isNone with
        | some id => { c with parents := (id, (t.getParentEpic id).map (·.id)) :: c.parents }
        | none =>
          let s' := s.keep fun id => ((c.parents.lookup id).join).all (· = s.epicId)
          { c with todo := rest, current := if s'.hasShare then c.current ++ [s'] else c.current }

/-- 子を取ろうとする呼び出し。 -/
inductive SplitTaker where
  | propose (p : SplitProposal)
  | accept (split : EpicSplit) (caller : String)
  deriving DecidableEq, Repr

namespace SplitTaker

/-- 取ろうとする子と、渡そうとする子。 -/
def ids : SplitTaker → List String
  | propose p => p.mine ++ p.theirs
  | accept s _ => s.mine ++ s.theirs

/-- `overlapping` の `except`。 -/
def except : SplitTaker → Option String
  | propose _ => none
  | accept s _ => some s.id

/-- `claim_share` の求める子。 -/
def claims : SplitTaker → List String
  | propose p => p.mine
  | accept s _ => s.mine

end SplitTaker

/-! ## 位置 -/

/-- `reconcile` の残りの仕事。 -/
structure SplitSweep where
  now : Time
  rest : List EpicSplit
  deriving DecidableEq, Repr

/-- 何のための決定か。 -/
inductive SplitPurpose where
  | reject (split : EpicSplit) (caller : String) (reason : Option String) (time : Time)
  | accept (split : EpicSplit) (caller : String)
  /-- 受けたことを相手に伝えられなかった。 -/
  | undoAccept (split : EpicSplit) (caller : String)
  /-- 申し出を相手に伝えられなかった。 -/
  | rollback (id : String) (p : SplitProposal)
  | cancel (split : EpicSplit) (caller : String) (reason : Option String) (time : Time)
  | ingest (split : EpicSplit) (line : SplitMessage) (sender : String)
  | expire (split : EpicSplit) (sweep : SplitSweep)
  deriving DecidableEq, Repr

/-- `decide_epic_split_by` の引数。`now` は、決定のときに時計を読む呼び出しの時刻である。 -/
def SplitPurpose.decision (now : Time) : SplitPurpose → SplitDecision
  | reject s caller reason time => ⟨s.id, [.pending], .rejected, reason, time, some caller⟩
  | accept s caller => ⟨s.id, [.pending], .accepted, none, now, some caller⟩
  | undoAccept s _ => ⟨s.id, [.accepted], .pending, none, now, none⟩
  | rollback id _ => ⟨id, [.pending], .cancelled, some "the proposal could not be sent", now, none⟩
  | cancel s caller reason time => ⟨s.id, [.pending, .accepted], .cancelled, reason, time, some caller⟩
  | ingest _ line sender => ⟨line.id, line.kind.moves.1, line.kind.moves.2, line.reason, line.time, some sender⟩
  | expire s sweep =>
    ⟨s.id, [.pending], .expired, some "unanswered proposal expired", sweep.now, some s.localAgentId⟩

/-- 相手への知らせ。送れなかったときの始末が違う。 -/
inductive SplitTelling where
  | proposal (id : String) (p : SplitProposal)
  | acceptance (split : EpicSplit) (caller : String)
  | decision
  | expiry (split : EpicSplit) (sweep : Option SplitSweep)
  deriving DecidableEq, Repr

/-- 呼び出しの位置。 -/
inductive SplitPc where
  | idle
  /-- `propose` の検査。epic を引き、子ごとに task と親子の行を引く。 -/
  | checkingEpic (p : SplitProposal)
  | checkingTask (p : SplitProposal) (todo : List String)
  | checkingParent (p : SplitProposal) (task : SplitTask) (todo : List String)
  /-- `overlapping`。分割の列、手放した子、射影の順に読む。 -/
  | listing (k : SplitTaker)
  | unreleasing (k : SplitTaker) (now : Time) (splits : List EpicSplit)
  | scanning (k : SplitTaker) (scan : SplitScan)
  /-- `discover_peers` -/
  | finding (p : SplitProposal)
  /-- `peer_claims` と `local_check` -/
  | opening (k : SplitTaker)
  /-- `claim_share`。子ごとに、借り手を尋ね、借りる。 -/
  | asking (k : SplitTaker) (todo taken : List String)
  | acquiring (k : SplitTaker) (id : String) (todo taken : List String)
  | inserting (p : SplitProposal)
  /-- `answer` と `cancel` と `ingest` の始め。 -/
  | answering (caller id : String) (accept : Bool) (reason : Option String)
  | cancelling (caller id : String) (reason : Option String)
  | superseding (caller : String) (split : EpicSplit) (reason : Option String)
  | ingesting (recipient : String) (m : ClaimedPeerMessage)
  | recording (recipient : String) (m : ClaimedPeerMessage) (expiresAt : Time)
  | deciding (w : SplitPurpose)
  /-- `release_own` を一つずつ。`tell` なら、その後で相手に伝える。 -/
  | releasing (todo : List String) (tell : Bool)
  | telling (w : SplitTelling)
  /-- 決定の後で読み直し、`cleanup_decision` を走らせる。 -/
  | rereading (id : String) (sweep : Option SplitSweep)
  | cleaning (split : EpicSplit) (todo : List String) (sweep : Option SplitSweep)
  | finishing (split : EpicSplit) (cleanup : Bool) (sweep : Option SplitSweep)
  | noticing (split : EpicSplit) (sweep : Option SplitSweep)
  /-- `pending_epic_split_work` -/
  | sweeping (owners : List String) (now : Time)
  deriving DecidableEq, Repr

/-- `claims.holder` の答。 -/
inductive HolderAnswer where
  /-- 自分か、この database の agent が借りている。 -/
  | ours
  | other
  | failed
  deriving DecidableEq, Repr

/-- `claims.acquire` の答。 -/
inductive ShareAcquire where
  | claimed | localHolder | stalePeer | peerHolds | unavailable
  deriving DecidableEq, Repr

/-- 一歩の入力。 -/
structure SplitInput where
  now : Time := 0
  ok : Bool := true
  /-- 新しい分割の id -/
  newId : String := ""
  /-- 見つかった相手 -/
  peer : SplitPeer := {}
  holder : HolderAnswer := .other
  acquire : ShareAcquire := .claimed
  /-- 持ち主に代わって取り消してよいこと。生きた持ち主の分割は取り消せない。 -/
  supersedes : Bool := false
  deriving DecidableEq, Repr

/-! ## 一歩 -/

namespace SplitPc

/-- 射影を読み終えた後。 -/
def afterScan (k : SplitTaker) (now : Time) (current : List EpicSplit) : SplitPc :=
  if (overlapOf now k.ids k.except current).isSome then idle
  else match k with
    | .propose p => finding p
    | .accept _ _ => opening k

/-- 分割の列を読んだ後。分割が無ければ、ほかを読まない。 -/
def afterList (k : SplitTaker) (now : Time) (splits : List EpicSplit) : SplitPc :=
  if splits.isEmpty then afterScan k now [] else unreleasing k now splits

/-- 手放した子を読んだ後。 -/
def afterReleases (k : SplitTaker) (now : Time) (splits : List EpicSplit) : SplitPc :=
  if splits.isEmpty then afterScan k now [] else scanning k { now, todo := splits }

/-- 取り分を借り終えた後。 -/
def afterClaims : SplitTaker → SplitPc
  | .propose p => inserting p
  | .accept s caller => deciding (.accept s caller)

/-- `answer` が分割を読んだ後。 -/
def afterAnswered (caller : String) (accept : Bool) (reason : Option String) (now : Time)
    (s : EpicSplit) : SplitPc :=
  if s.direction ≠ .incoming ∨ s.localAgentId ≠ caller ∨ s.state ≠ .pending ∨ s.isExpired now = true
  then idle
  else if accept then listing (.accept s caller)
  else deciding (.reject s caller reason now)

/-- `cancel` が当事者を確かめた後。 -/
def afterOwner (caller : String) (reason : Option String) (now : Time) (s : EpicSplit) : SplitPc :=
  match s.state, s.direction with
  | .pending, .outgoing | .accepted, _ => deciding (.cancel s caller reason now)
  | _, _ => idle

/-- `cancel` が分割を読んだ後。 -/
def afterCancelled (caller : String) (reason : Option String) (now : Time) (s : EpicSplit) : SplitPc :=
  if s.localAgentId = caller then afterOwner caller reason now s
  else if s.state ≠ .accepted ∧ ¬ (s.direction = .outgoing ∧ s.isExpired now = true) then idle
  else superseding caller s reason

/-- `ingest` が分割を読んだ後。 -/
def afterIngested (recipient : String) (m : ClaimedPeerMessage) (s : Option EpicSplit) : SplitPc :=
  match m.line.kind, s with
  | .proposal, s =>
    match m.line.offer with
    | none => idle
    | some expiresAt =>
      if s.all (·.peerAgentId = m.senderAgentId) then recording recipient m expiresAt else idle
  | _, none => idle
  | _, some s =>
    if m.line.admits m.senderAgentId recipient s then deciding (.ingest s m.line m.senderAgentId)
    else idle

/-- `reconcile` の次の仕事。 -/
def nextWork : Option SplitSweep → SplitPc
  | none | some ⟨_, []⟩ => idle
  | some ⟨now, s :: rest⟩ =>
    if s.state = .pending then deciding (.expire s ⟨now, rest⟩)
    else cleaning s s.mine (some ⟨now, rest⟩)

/-- `cleanup_decision` の後。期限切れを知らせるのは `reconcile` だけである。 -/
def afterCleanup (s : EpicSplit) (sweep : Option SplitSweep) : SplitPc :=
  if sweep.isSome && s.expiryNoticePending then noticing s sweep else nextWork sweep

/-- 決定の後。 -/
def afterDecided (changed : Bool) : SplitPurpose → SplitPc
  | .reject _ _ _ _ => if changed then telling .decision else idle
  | .accept s caller => if changed then telling (.acceptance s caller) else releasing s.mine false
  | .undoAccept s _ => releasing s.mine false
  | .rollback _ p => releasing p.mine false
  | .cancel s _ _ _ => if changed then releasing s.mine true else idle
  | .ingest _ line _ => rereading line.id none
  | .expire s sweep => rereading s.id (some sweep)

/-- 決定の書き込みが失敗した後。 -/
def afterDecideFailed : SplitPurpose → SplitPc
  | .reject _ _ _ _ | .cancel _ _ _ _ | .ingest _ _ _ => idle
  | .accept s _ | .undoAccept s _ => releasing s.mine false
  | .rollback _ p => releasing p.mine false
  | .expire _ sweep => nextWork (some sweep)

/-- 知らせた後。 -/
def afterTold (sent : Bool) : SplitTelling → SplitPc
  | .proposal id p => if sent then idle else deciding (.rollback id p)
  | .acceptance s caller => if sent then idle else deciding (.undoAccept s caller)
  | .decision => idle
  | .expiry s sweep => if sent then finishing s false sweep else nextWork sweep

/-- database への書き込み。 -/
def write (sql : SplitSql) (inp : SplitInput) (db : SplitDb) : SplitPc → SplitDb
  | inserting p =>
    if inp.ok then { db with splits := insertEpicSplit db.splits (p.record inp.newId inp.now) } else db
  | recording recipient m expiresAt =>
    if inp.ok then { db with splits := insertEpicSplit db.splits (m.record recipient expiresAt inp.now) }
    else db
  | deciding w =>
    if inp.ok then { db with splits := (decideEpicSplitBy sql db.splits (w.decision inp.now)).2 } else db
  | finishing s cleanup _ =>
    if inp.ok then { db with splits := finishEpicSplitWork db.splits s cleanup } else db
  | _ => db

/-- 次の位置。 -/
def next (sql : SplitSql) (inp : SplitInput) (db : SplitDb) : SplitPc → SplitPc
  | idle => idle
  | checkingEpic p =>
    if inp.ok && (db.tasks.tasks.find? p.epicId).any (·.isEpic) then checkingTask p (p.mine ++ p.theirs)
    else idle
  | checkingTask p [] => listing (.propose p)
  | checkingTask p (id :: todo) =>
    match (db.tasks.tasks.find? id).filter fun _ => inp.ok with
    | some task => checkingParent p task todo
    | none => idle
  | checkingParent p task todo =>
    if inp.ok && db.tasks.parents.any (fun d => d.fromId = task.id && d.toId = p.epicId)
        && task.status ≠ .closed
    then checkingTask p todo else idle
  | listing k => if inp.ok then afterList k inp.now (listEpicSplits sql db.splits) else idle
  | unreleasing k now splits =>
    if inp.ok then afterReleases k now (withoutReleasedChildren db.releases splits) else idle
  | scanning k scan =>
    if !inp.ok then idle
    else if scan.todo.isEmpty then afterScan k scan.now scan.current
    else scanning k (scan.next db.tasks true)
  | finding p => if inp.ok then opening (.propose { p with peer := inp.peer }) else idle
  | opening k => if inp.ok then asking k k.claims [] else idle
  | asking k [] _ => afterClaims k
  | asking k (id :: todo) taken =>
    match inp.holder with
    | .ours => asking k todo taken
    | .other => acquiring k id todo taken
    | .failed => releasing taken false
  | acquiring k id todo taken =>
    match inp.acquire with
    | .claimed => asking k todo (taken ++ [id])
    | .localHolder | .stalePeer => asking k todo taken
    | .peerHolds | .unavailable => releasing taken false
  | inserting p =>
    if inp.ok then telling (.proposal inp.newId p) else releasing p.mine false
  | answering caller id accept reason =>
    match (db.splits.find? id).filter fun _ => inp.ok with
    | some s => afterAnswered caller accept reason inp.now s
    | none => idle
  | cancelling caller id reason =>
    match (db.splits.find? id).filter fun _ => inp.ok with
    | some s => afterCancelled caller reason inp.now s
    | none => idle
  | superseding caller s reason =>
    if inp.ok && inp.supersedes then afterOwner caller reason inp.now s else idle
  | ingesting recipient m => if inp.ok then afterIngested recipient m (db.splits.find? m.line.id) else idle
  | recording _ _ _ => idle
  | deciding w =>
    if inp.ok then afterDecided (decideEpicSplitBy sql db.splits (w.decision inp.now)).1 w
    else afterDecideFailed w
  | releasing [] tell => if tell then telling .decision else idle
  | releasing (_ :: todo) tell => releasing todo tell
  | telling w => afterTold inp.ok w
  | rereading id sweep =>
    match (db.splits.find? id).filter fun _ => inp.ok with
    | some s => cleaning s s.mine sweep
    | none => nextWork sweep
  | cleaning s todo sweep =>
    if !s.cleanupPending || !inp.ok then afterCleanup s sweep
    else match todo with
      | [] => finishing s true sweep
      | _ :: todo => cleaning s todo sweep
  | finishing s cleanup sweep => if cleanup then afterCleanup s sweep else nextWork sweep
  | noticing s sweep => if inp.ok then telling (.expiry s sweep) else nextWork sweep
  | sweeping owners now =>
    if inp.ok then nextWork (some ⟨now, pendingEpicSplitWork sql db.splits now owners⟩) else idle

end SplitPc

/-! ## 並行する呼び出し -/

/-- database と、`n` 個の呼び出し。 -/
structure SplitWorld (n : Nat) where
  db : SplitDb
  procs : Fin n → SplitPc := fun _ => .idle

/-- 呼び出し。 -/
inductive SplitCall where
  | propose (p : SplitProposal)
  | answer (caller id : String) (accept : Bool) (reason : Option String)
  | cancel (caller id : String) (reason : Option String)
  | ingest (recipient : String) (m : ClaimedPeerMessage)
  | reconcile (owners : List String) (now : Time)
  deriving DecidableEq, Repr

/-- 呼び出しの始めの位置。 -/
def SplitCall.start : SplitCall → SplitPc
  | propose p => if p.valid then .checkingEpic p else .idle
  | answer caller id accept reason => .answering caller id accept reason
  | cancel caller id reason => .cancelling caller id reason
  | ingest recipient m => .ingesting recipient m
  | reconcile owners now => .sweeping owners now

/-- 一歩。 -/
inductive SplitAct (n : Nat) where
  | call (pid : Fin n) (c : SplitCall)
  | advance (pid : Fin n) (inp : SplitInput)
  /-- task の書き換え。epic が閉じ、また開き、子が親を替える。 -/
  | updateTasks (tasks : SplitTasks)
  /-- `mark_epic_split_child_released` -/
  | release (splitId taskId : String)

namespace SplitWorld

variable {n : Nat}

/-- 呼び出しの位置を進める。 -/
def goto (s : SplitWorld n) (pid : Fin n) (pc : SplitPc) : SplitWorld n :=
  { s with procs := Function.update s.procs pid pc }

/-- 空いた所で、呼び出しを始める。 -/
def call (s : SplitWorld n) (pid : Fin n) (c : SplitCall) : SplitWorld n :=
  match s.procs pid with
  | .idle => s.goto pid c.start
  | _ => s

/-- 呼び出しを一歩進める。 -/
def advance (sql : SplitSql) (s : SplitWorld n) (pid : Fin n) (inp : SplitInput) : SplitWorld n :=
  { s with db := (s.procs pid).write sql inp s.db }.goto pid ((s.procs pid).next sql inp s.db)

end SplitWorld

/-- 一歩。 -/
def splitStep {n : Nat} (sql : SplitSql) (s : SplitWorld n) : SplitAct n → Unit × SplitWorld n
  | .call pid c => ((), s.call pid c)
  | .advance pid inp => ((), s.advance sql pid inp)
  | .updateTasks tasks => ((), { s with db := { s.db with tasks := tasks } })
  | .release splitId taskId =>
    ((), { s with db := { s.db with releases := s.db.releases ++ [(splitId, taskId)] } })

end Cassy
