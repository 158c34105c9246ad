import Mathlib.Data.Fintype.Basic
import Mathlib.Logic.Function.Basic
import Cassy.Infra.SortedMap

/-!
# file の借り

`cloud/file_leases.rs`。worker は file を書く前に cloud の借りを取り、task が終わると返す。借りたものと返す途中のものを、
agent ごとの帳簿に書く。

帳簿の書き換えは鍵の中で読んで書く一歩であり、cloud への問いは鍵の外で、前に読んだ帳簿の写しから行われる。

* `claim_with` — 帳簿を読む、cloud に問う、答を帳簿に書く
* `release_for_task_with` — 終わった task の借りを、返す途中のものに移す。続けて `release_pending` を走らせる
* `release_pending` — 帳簿を読む、返す途中のものを一つずつ cloud に返す、返したものを帳簿から消す

cloud は借りごとに借り手を一人だけ覚えている。借り手が自分の借りを取り直すのは必ず通り、返すのは借り手であるときにだけ
効く。`ranOut` は、借りたまま期限の切れた借りの控えである。
-/

namespace Cassy

open Infra

/-- `Entry`。 -/
structure FileEntry where
  path : String
  mine : Bool
  atUnixSecs : Int
  taskId : Option String
  deriving DecidableEq, Repr

/-- `Ledger`。 -/
structure FileLedger where
  agentId : String := ""
  leases : List (String × FileEntry) := []
  notified : List (String × Int) := []
  releasing : List (String × Int) := []
  deriving DecidableEq, Repr

namespace FileLedger

/-- 書き戻した帳簿。空になれば file は消え、次に読むときは既定の帳簿になる。 -/
def saved (l : FileLedger) : FileLedger :=
  if l.leases.isEmpty && l.releasing.isEmpty && l.notified.isEmpty then {} else l

/-- 借りている。 -/
def mine (l : FileLedger) (id : String) : Bool := (mapGet id l.leases).any (·.mine)

/-- 返す途中である。 -/
def pending (l : FileLedger) (id : String) : Bool := (mapGet id l.releasing).isSome

/-- `OWN_CLAIM_REUSE_SECS`。 -/
def ownClaimReuseSecs : Int := 120

/-- `UNAVAILABLE_BACKOFF_SECS`。 -/
def unavailableBackoffSecs : Int := 60

/-- cloud に問わずに済ませる。 -/
def reuses (l : FileLedger) (id : String) (now : Int) : Bool :=
  (mapGet id l.leases).any fun e =>
    if e.mine then now - e.atUnixSecs < ownClaimReuseSecs
    else now - e.atUnixSecs < unavailableBackoffSecs

/-- `release_for_task_with` の、一つの借りの始末。 -/
def endLease (now : Int) (l : FileLedger) (id : String) : FileLedger :=
  match mapGet id l.leases with
  | none => l
  | some e =>
    { l with
      leases := mapRemove id l.leases
      releasing := if e.mine then mapInsert id now l.releasing else l.releasing }

/-- `release_for_task_with` の帳簿の書き換え。 -/
def endTask (l : FileLedger) (taskId : String) (now : Int) : FileLedger :=
  (((l.leases.filter fun x => x.2.taskId = some taskId).map (·.1)).foldl (endLease now) l).saved

/-- 返したものを一つ消す。その間に改めて返しを求められたものは残す。 -/
def forgetOne (l : FileLedger) (x : String × Int) : FileLedger :=
  if mapGet x.1 l.releasing = some x.2 then { l with releasing := mapRemove x.1 l.releasing } else l

/-- `release_pending` の帳簿の書き換え。返したものが無ければ書かない。 -/
def forget (l : FileLedger) (released : List (String × Int)) : FileLedger :=
  if released.isEmpty then l else (released.foldl forgetOne l).saved

end FileLedger

/-- `notify_worker_of_holder` の帳簿の書き換え。 -/
def FileLedger.notify (agent : String) (l : FileLedger) (id : String) (now : Int) : FileLedger :=
  { l with agentId := agent, notified := mapInsert id now l.notified }.saved

/-- 借りの求め。 -/
structure FileClaim where
  id : String
  path : String
  taskId : String
  now : Int
  deriving DecidableEq, Repr

/-- 答を帳簿に書く。`none` は、ほかの者が借りているという答である。 -/
def FileLedger.recordAnswer (agent : String) (l : FileLedger) (c : FileClaim) (answer : Option Bool) :
    FileLedger :=
  let l := { l with agentId := agent }
  (match answer with
    | some mine =>
      { l with
        releasing := if mine then mapRemove c.id l.releasing else l.releasing
        leases := mapInsert c.id ⟨c.path, mine, c.now, some c.taskId⟩ l.leases }
    | none => { l with leases := mapRemove c.id l.leases }).saved

/-- 呼び出しの位置。 -/
inductive FilePc where
  | idle
  /-- `claim_with` が、これから cloud に問う。 -/
  | asking (c : FileClaim)
  /-- `claim_with` が答を得て、帳簿に書く前。 -/
  | answered (c : FileClaim) (answer : Option Bool)
  /-- `release_pending` が、写しの残りを返している。 -/
  | releasing (now : Int) (agentId : String) (todo released : List (String × Int))
  deriving DecidableEq, Repr

/-- 借りられたという答を、まだ帳簿に書いていない。 -/
def FilePc.claims (id : String) : FilePc → Bool
  | answered c (some true) => c.id = id
  | _ => false

/-- `acquire_within` の答。借り手の居る借りの答は、その借り手を名指す。 -/
inductive AcquireAnswer where
  | claimed
  /-- 手元の agent が借りている。`sameTask` は、その帳簿の借りが同じ task のものであること。 -/
  | localHolder (sameTask : Bool)
  | peerHolds
  | unavailable
  deriving DecidableEq, Repr

/-- 一つの agent の借りの環境。 -/
structure FileLeaseEnv where
  agent : String
  /-- `lease_id` -/
  leaseId : String → String
  /-- `lease_duration_secs` -/
  lifetime : Int
  /-- 同じ worker の、前の番号 -/
  sameWorker : String → Bool

/-- 帳簿と cloud と、`n` 個の呼び出し。 -/
structure FileWorld (n : Nat) where
  ledger : FileLedger := {}
  cloud : String → Option String := fun _ => none
  ranOut : String → Bool := fun _ => false
  procs : Fin n → FilePc := fun _ => .idle

/-- 一歩。 -/
inductive FileAct (n : Nat) where
  /-- `claim_with` の始め。 -/
  | loadClaim (pid : Fin n) (path taskId : String) (now : Int)
  /-- `acquire_within`。 -/
  | acquire (pid : Fin n) (answer : AcquireAnswer)
  /-- `claim_with` の終わり。 -/
  | recordAnswer (pid : Fin n)
  /-- `release_for_task_with` の、この帳簿の書き換え。 -/
  | endTask (taskId : String) (now : Int)
  /-- `release_pending` の始め。 -/
  | loadReleasing (pid : Fin n) (now : Int)
  /-- `release_pending` の次の一つ。`reached` は cloud に届いたこと。 -/
  | releaseOne (pid : Fin n) (reached : Bool)
  /-- `release_pending` の終わり。 -/
  | forget (pid : Fin n)
  /-- `notify_worker_of_holder` の帳簿の書き換え。 -/
  | notify (id : String) (now : Int)
  /-- ほかの agent が借り、また返す。 -/
  | others (id : String) (holder : Option String)
  /-- この agent の借りの期限が切れる。 -/
  | expire (id : String)

namespace FileWorld

variable {n : Nat} (env : FileLeaseEnv)

/-- cloud の答と、その後の借り手。借り手自身には必ず通る。 -/
def acquired (holder : Option String) (answer : AcquireAnswer) : Option Bool × Option String :=
  if holder = some env.agent then (some true, holder)
  else
    match answer with
    | .claimed => (some true, some env.agent)
    | .localHolder sameTask =>
      (if holder.any env.sameWorker && sameTask then some true else none, holder)
    | .peerHolds => (none, holder)
    | .unavailable => (some false, holder)

/-- 呼び出しの位置を進める。 -/
def goto (s : FileWorld n) (pid : Fin n) (pc : FilePc) : FileWorld n :=
  { s with procs := Function.update s.procs pid pc }

/-- 借り手を替える。 -/
def hold (s : FileWorld n) (id : String) (holder : Option String) : FileWorld n :=
  { s with cloud := Function.update s.cloud id holder }

/-- `claim_with` の始め。 -/
def loadClaim (s : FileWorld n) (pid : Fin n) (path taskId : String) (now : Int) : FileWorld n :=
  match s.procs pid with
  | .idle =>
    if s.ledger.reuses (env.leaseId path) now then s
    else s.goto pid (.asking ⟨env.leaseId path, path, taskId, now⟩)
  | _ => s

/-- `acquire_within`。借りられた借りは、期限が改まる。 -/
def acquire (s : FileWorld n) (pid : Fin n) (answer : AcquireAnswer) : FileWorld n :=
  match s.procs pid with
  | .asking c =>
    let (record, holder) := acquired env (s.cloud c.id) answer
    let s := (s.hold c.id holder).goto pid (.answered c record)
    if holder = some env.agent then { s with ranOut := Function.update s.ranOut c.id false } else s
  | _ => s

/-- `claim_with` の終わり。 -/
def recordAnswer (s : FileWorld n) (pid : Fin n) : FileWorld n :=
  match s.procs pid with
  | .answered c answer =>
    { s.goto pid .idle with ledger := s.ledger.recordAnswer env.agent c answer }
  | _ => s

/-- `release_pending` の始め。 -/
def loadReleasing (s : FileWorld n) (pid : Fin n) (now : Int) : FileWorld n :=
  match s.procs pid with
  | .idle =>
    if s.ledger.releasing.isEmpty || s.ledger.agentId = "" then s
    else s.goto pid (.releasing now s.ledger.agentId s.ledger.releasing [])
  | _ => s

/-- `release_pending` の次の一つ。期限の過ぎたものは、cloud に問わずに済んだものとする。 -/
def releaseOne (s : FileWorld n) (pid : Fin n) (reached : Bool) : FileWorld n :=
  match s.procs pid with
  | .releasing now agentId (x :: todo) released =>
    if env.lifetime ≤ now - x.2 then s.goto pid (.releasing now agentId todo (released ++ [x]))
    else if reached then
      (if s.cloud x.1 = some agentId then s.hold x.1 none else s).goto pid
        (.releasing now agentId todo (released ++ [x]))
    else s.goto pid (.releasing now agentId todo released)
  | _ => s

/-- `release_pending` の終わり。 -/
def forget (s : FileWorld n) (pid : Fin n) : FileWorld n :=
  match s.procs pid with
  | .releasing _ _ [] released => { s.goto pid .idle with ledger := s.ledger.forget released }
  | _ => s

/-- ほかの agent の借りと返し。この agent の借りには触れない。 -/
def others (s : FileWorld n) (id : String) (holder : Option String) : FileWorld n :=
  if s.cloud id = some env.agent ∨ holder = some env.agent then s else s.hold id holder

/-- 期限切れ。 -/
def expire (s : FileWorld n) (id : String) : FileWorld n :=
  if s.cloud id = some env.agent then
    { s.hold id none with ranOut := Function.update s.ranOut id true }
  else s

end FileWorld

/-- 一歩。 -/
def fileStep {n : Nat} (env : FileLeaseEnv) (s : FileWorld n) : FileAct n → Unit × FileWorld n
  | .loadClaim pid path taskId now => ((), s.loadClaim env pid path taskId now)
  | .acquire pid answer => ((), s.acquire env pid answer)
  | .recordAnswer pid => ((), s.recordAnswer env pid)
  | .endTask taskId now => ((), { s with ledger := s.ledger.endTask taskId now })
  | .loadReleasing pid now => ((), s.loadReleasing pid now)
  | .releaseOne pid reached => ((), s.releaseOne env pid reached)
  | .forget pid => ((), s.forget pid)
  | .notify id now => ((), { s with ledger := s.ledger.notify env.agent id now })
  | .others id holder => ((), s.others env id holder)
  | .expire id => ((), s.expire env id)

end Cassy
