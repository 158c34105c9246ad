import Cassy.Cloud.SplitSteps

/-!
# 一人で動く分割の呼び出し

`propose` と `answer` の全体を、始めから返るまで続けて走らせる。取り分を cloud で借り、分割を書き、相手に知らせる。
途中で失敗した呼び出しは、借りたものを返し、書いた分割を取り消す。

`ingest` は、相手からの一通を受け取る。誤りを返したものは、同じ知らせがもう一度届く。

cloud は、子ごとに借り手を一人だけ覚える（`PeerClaims`）。成功と答えた呼び出しだけが借り手を変え、返す呼び出しは
失敗しない。古くなった相手の借りを奪うことは無い。
-/

namespace Cassy

open Infra

/-! ## cloud -/

/-- cloud の覚える借り手。 -/
@[ext] structure PeerClaims where
  holder : String → Option String

/-- 一度の `acquire` に cloud がどう答えるか。 -/
inductive CloudReply where
  | answers
  /-- 借り手の相手が古く、取り戻せたと言えない。 -/
  | stale
  /-- 借り手は、この database の終わった agent である。 -/
  | retired
  | down
  deriving DecidableEq, Repr

namespace PeerClaims

/-- `acquire`。空いた子か、自分の借りている子だけを借りられる。 -/
def acquire (c : PeerClaims) (id agent : String) (reply : CloudReply) : ShareAcquire × PeerClaims :=
  match reply, c.holder id with
  | .down, _ => (.unavailable, c)
  | _, none => (.claimed, ⟨Function.update c.holder id (some agent)⟩)
  | reply, some holder =>
    if holder = agent then (.claimed, c)
    else match reply with
      | .stale => (.stalePeer, c)
      | .retired => (.localHolder, c)
      | _ => (.peerHolds, c)

/-- `release_own` -/
def releaseOwn (c : PeerClaims) (id agent : String) : PeerClaims :=
  if c.holder id = some agent then ⟨Function.update c.holder id none⟩ else c

/-- `release_share` -/
def releaseShare (c : PeerClaims) (ids : List String) (agent : String) : PeerClaims :=
  ids.foldl (fun c id => c.releaseOwn id agent) c

end PeerClaims

/-! ## 呼び出し -/

/-- 呼び出しの外で決まること。 -/
structure SplitOutside where
  /-- 保存された task と分割を読め、相手が見つかり、cloud に入れる。 -/
  reads : Bool := true
  peer : SplitPeer := {}
  /-- 取り分の何番目の子の借り手を尋ねられるか。 -/
  asked : Nat → Bool := fun _ => true
  acquired : Nat → CloudReply := fun _ => .answers
  /-- 分割の書き込みが通る。 -/
  written : Bool := true
  /-- 知らせが相手に届く。 -/
  sent : Bool := true
  /-- 取り消しの書き込みが通る。 -/
  undone : Bool := true
  newId : String := ""
  readAt : Time := 0
  checkedAt : Time := 0
  writtenAt : Time := 0
  undoneAt : Time := 0

/-- database と cloud。 -/
structure SplitSide where
  db : SplitDb
  claims : PeerClaims

/-- `claim_share`。`i` は次の子の番号、`taken` は既に借りた子である。 -/
def claimShare (caller : String) (isLocal : String → Bool) (o : SplitOutside) :
    List String → Nat → PeerClaims → List String → Bool × PeerClaims
  | [], _, c, _ => (true, c)
  | id :: rest, i, c, taken =>
    if o.asked i = false then (false, c.releaseShare taken caller)
    else if (c.holder id).any fun holder => holder = caller || isLocal holder then
      claimShare caller isLocal o rest (i + 1) c taken
    else match c.acquire id caller (o.acquired i) with
      | (.claimed, c) => claimShare caller isLocal o rest (i + 1) c (taken ++ [id])
      | (.localHolder, c) | (.stalePeer, c) => claimShare caller isLocal o rest (i + 1) c taken
      | (.peerHolds, c) | (.unavailable, c) => (false, c.releaseShare taken caller)

/-- `propose` が、epic と子を確かめる。 -/
def SplitTasks.admits (t : SplitTasks) (p : SplitProposal) : Bool :=
  (t.tasks.find? p.epicId).any (·.isEpic)
    && (p.mine ++ p.theirs).all fun id => (t.tasks.find? id).any fun task =>
      t.parents.any (fun d => d.fromId = task.id && d.toId = p.epicId) && task.status ≠ .closed

/-- `propose` の、借りる前の検査。 -/
def SplitProposal.opens (sql : SplitSql) (o : SplitOutside) (p : SplitProposal) (db : SplitDb) : Bool :=
  p.valid && o.reads && db.tasks.admits p
    && (overlapOf o.checkedAt (p.mine ++ p.theirs) none (projectedEpicSplits sql db true)).isNone

/-- `answer` の、借りる前の検査。 -/
def EpicSplit.opens (sql : SplitSql) (o : SplitOutside) (split : EpicSplit) (caller : String)
    (db : SplitDb) : Bool :=
  split.direction = .incoming && split.localAgentId = caller && split.state = .pending
    && !split.isExpired o.readAt && o.reads
    && (overlapOf o.checkedAt (split.mine ++ split.theirs) (some split.id)
      (projectedEpicSplits sql db true)).isNone

/-- 決定を書く。書き込みが通らなければ何も変わらない。 -/
def SplitTable.decide? (sql : SplitSql) (t : SplitTable) (ok : Bool) (d : SplitDecision) :
    Option Bool × SplitTable :=
  if ok then (some (decideEpicSplitBy sql t d).1, (decideEpicSplitBy sql t d).2) else (none, t)

/-- `propose` -/
def proposeSplit (sql : SplitSql) (isLocal : String → Bool) (o : SplitOutside) (p : SplitProposal)
    (s : SplitSide) : Bool × SplitSide :=
  if !p.opens sql o s.db then (false, s)
  else match claimShare p.caller isLocal o p.mine 0 s.claims [] with
    | (false, claims) => (false, { s with claims })
    | (true, claims) =>
      if !o.written then (false, { s with claims := claims.releaseShare p.mine p.caller })
      else
        let p := { p with peer := o.peer }
        let splits := insertEpicSplit s.db.splits (p.record o.newId o.writtenAt)
        if o.sent then (true, { db := { s.db with splits }, claims })
        else
          let undone := splits.decide? sql o.undone ((SplitPurpose.rollback o.newId p).decision o.undoneAt)
          (false, { db := { s.db with splits := undone.2 }, claims := claims.releaseShare p.mine p.caller })

/-- `answer` の、受けるとき。 -/
def acceptSplit (sql : SplitSql) (isLocal : String → Bool) (o : SplitOutside) (caller id : String)
    (s : SplitSide) : Bool × SplitSide :=
  match s.db.splits.find? id with
  | none => (false, s)
  | some split =>
    if !split.opens sql o caller s.db then (false, s)
    else match claimShare caller isLocal o split.mine 0 s.claims [] with
      | (false, claims) => (false, { s with claims })
      | (true, claims) =>
        match s.db.splits.decide? sql o.written ((SplitPurpose.accept split caller).decision o.writtenAt) with
        | (none, splits) | (some false, splits) =>
          (false, { db := { s.db with splits }, claims := claims.releaseShare split.mine caller })
        | (some true, splits) =>
          if o.sent then (true, { db := { s.db with splits }, claims })
          else
            -- 相手が知らないので、元に戻す。
            let undone :=
              splits.decide? sql o.undone ((SplitPurpose.undoAccept split caller).decision o.undoneAt)
            (false, { db := { s.db with splits := undone.2 },
                      claims := claims.releaseShare split.mine caller })

/-- 子を借りる二つの呼び出し。 -/
inductive ShareCall where
  | propose (p : SplitProposal)
  | accept (caller id : String)
  deriving DecidableEq, Repr

/-- 呼び出しを走らせる。返ったものが誤りなら偽である。 -/
def ShareCall.run (sql : SplitSql) (isLocal : String → Bool) (o : SplitOutside) (s : SplitSide) :
    ShareCall → Bool × SplitSide
  | propose p => proposeSplit sql isLocal o p s
  | accept caller id => acceptSplit sql isLocal o caller id s

/-! ## 相手からの知らせ -/

/-- `ingest` の外で決まること。 -/
structure IngestOutside where
  /-- 分割を読める。 -/
  read : Bool := true
  /-- 分割の書き込みが通る。 -/
  written : Bool := true
  /-- 決定の後で読み直せる。 -/
  reread : Bool := true
  /-- cloud に入れる。 -/
  opened : Bool := true
  /-- 取り分の何番目の子を手放せるか。 -/
  released : Nat → Bool := fun _ => true
  finished : Bool := true
  now : Time := 0

/-- `Ingested` -/
inductive Ingested where
  | proposal (id : String)
  | decided (id : String) (state : SplitState)
  | ignored
  deriving DecidableEq, Repr

/-- `cleanup_decision` が取り分を一つずつ手放す。`i` は次の子の番号である。 -/
def releaseEach (agent : String) (released : Nat → Bool) :
    List String → Nat → PeerClaims → Bool × PeerClaims
  | [], _, c => (true, c)
  | id :: rest, i, c =>
    if released i then releaseEach agent released rest (i + 1) (c.releaseOwn id agent) else (false, c)

/-- `cleanup_decision` -/
def cleanupDecision (o : IngestOutside) (split : EpicSplit) (s : SplitSide) : Bool × SplitSide :=
  if !split.cleanupPending then (true, s)
  else if !split.mine.isEmpty && !o.opened then (false, s)
  else match releaseEach split.localAgentId o.released split.mine 0 s.claims with
    | (false, claims) => (false, { s with claims })
    | (true, claims) =>
      if o.finished then
        (true, { db := { s.db with splits := finishEpicSplitWork s.db.splits split true }, claims })
      else (false, { s with claims })

/-- `ingest` の、申し出を受け取るとき。 -/
def ingestProposal (o : IngestOutside) (recipient : String) (m : ClaimedPeerMessage) (s : SplitSide) :
    Option Ingested × SplitSide :=
  match m.line.offer with
  | none => (some .ignored, s)
  | some expiresAt =>
    if !o.read then (none, s)
    else if (s.db.splits.find? m.line.id).all (·.peerAgentId = m.senderAgentId) then
      if o.written then
        (some (.proposal m.line.id),
          { s with db := { s.db with
              splits := insertEpicSplit s.db.splits (m.record recipient expiresAt o.now) } })
      else (none, s)
    else (some .ignored, s)

/-- `ingest` の、決定を受け取るとき。 -/
def ingestDecision (sql : SplitSql) (o : IngestOutside) (recipient : String) (m : ClaimedPeerMessage)
    (s : SplitSide) : Option Ingested × SplitSide :=
  if !o.read then (none, s)
  else match s.db.splits.find? m.line.id with
    | none => (some .ignored, s)
    | some split =>
      if !m.line.admits m.senderAgentId recipient split then (some .ignored, s)
      else match s.db.splits.decide? sql o.written
          ((SplitPurpose.ingest split m.line m.senderAgentId).decision o.now) with
        | (none, _) => (none, s)
        | (some changed, splits) =>
          let told : Ingested := if changed then .decided m.line.id m.line.kind.moves.2 else .ignored
          let s : SplitSide := { s with db := { s.db with splits } }
          if !o.reread then (none, s)
          else match splits.find? m.line.id with
            | none => (some told, s)
            | some current =>
              match cleanupDecision o current s with
              | (false, s) => (none, s)
              | (true, s) => (some told, s)

/-- `ingest`。誤りを返したときは `none` である。 -/
def ingestSplit (sql : SplitSql) (o : IngestOutside) (recipient : String) (m : ClaimedPeerMessage)
    (s : SplitSide) : Option Ingested × SplitSide :=
  if m.line.kind = .proposal then ingestProposal o recipient m s else ingestDecision sql o recipient m s

/-- 同じ知らせを、届くたびに受け取る。 -/
def redeliver (sql : SplitSql) (recipient : String) (m : ClaimedPeerMessage) (s : SplitSide)
    (os : List IngestOutside) : SplitSide :=
  os.foldl (fun s o => (ingestSplit sql o recipient m s).2) s

end Cassy
