import Cassy.Infra.Run
import Cassy.Store.Db

/-!
# worktree の lease

`agent_store/ops_worktree.rs` の操作と、その並行実行。

取得は一つの transaction で、延長と期限切れの回収は一つの文である。解放だけは transaction を
張らず、持ち主を確かめる `SELECT` と書き込みの `UPDATE` を別々に流す。しかもその `UPDATE` は
worktree の id しか見ない。そこで解放だけは文ごとに進む機械として書く。
-/

namespace Cassy

open Infra

/-- `try_claim_worktree` の答え。 -/
inductive WorktreeClaimResult where
  | success (lease : WorktreeLease)
  | alreadyClaimed (worktreeId heldBy : String) (expiresAt : Time)
  deriving DecidableEq, Repr

namespace Db

variable (db : Db)

/-- lease がまだ有効か。 -/
def worktreeLeaseValid (now : Time) (l : WorktreeLease) : Bool :=
  l.status = .active ∧ now < l.expiresAt

/-- 取得が書く行。 -/
def claimedWorktreeLease (worktreeId agentId : String) (expiresAt now : Time) : WorktreeLease where
  worktreeId
  agentId
  status := .active
  acquiredAt := now
  expiresAt
  renewedAt := now
  renewalCount := 0

/-- 行を延ばす。 -/
def renewedWorktreeLease (expiresAt now : Time) (l : WorktreeLease) : WorktreeLease :=
  { l with expiresAt, renewedAt := now, renewalCount := l.renewalCount + 1 }

/-- `worktree_try_claim_worktree`。返す行は、延長のときも今取ったもののように作られる。 -/
def tryClaimWorktree (worktreeId agentId : String) (durationSecs : Int) (now : Time) :
    Except StoreError (WorktreeClaimResult × Db) :=
  let expiresAt := now + seconds durationSecs
  let lease := claimedWorktreeLease worktreeId agentId expiresAt now
  match db.worktreeLeases.find? worktreeId with
  | some held =>
    if worktreeLeaseValid now held then
      if held.agentId = agentId then
        .ok (.success { lease with renewalCount := 1 },
          { db with
            worktreeLeases := db.worktreeLeases.update (fun l => l.worktreeId = worktreeId)
              (renewedWorktreeLease expiresAt now) })
      else .ok (.alreadyClaimed worktreeId held.agentId held.expiresAt, db)
    else do
      ensure (db.agents.find? agentId).isSome foreignKeyFailed
      pure (.success lease, { db with
        worktreeLeases := db.worktreeLeases.update (fun l => l.worktreeId = worktreeId)
          fun l => { lease with worktreeId := l.worktreeId } })
  | none => do
    ensure (db.agents.find? agentId).isSome foreignKeyFailed
    pure (.success lease, { db with worktreeLeases := db.worktreeLeases.insertOrIgnore lease })

/-- `worktree_release_worktree_lease` の `SELECT`。 -/
def checkWorktreeOwner (worktreeId agentId : String) : Except StoreError Unit :=
  match (db.worktreeLeases.find? worktreeId).filter fun l => l.status = .active with
  | some l => ensure (l.agentId = agentId)
      (.parse s!"Worktree {worktreeId} is not owned by agent {agentId}")
  | none => .error (.notFound s!"No active lease found for worktree {worktreeId}")

/-- `worktree_release_worktree_lease` の `UPDATE`。選ぶのは worktree の id だけである。 -/
def releaseWorktree (worktreeId : String) : Db :=
  { db with
    worktreeLeases := db.worktreeLeases.update (fun l => l.worktreeId = worktreeId)
      fun l => { l with status := .released } }

/-- `worktree_renew_worktree_lease`。 -/
def renewWorktreeLease (worktreeId agentId : String) (durationSecs : Int) (now : Time) :
    Except StoreError (Unit × Db) :=
  let held := fun l : WorktreeLease =>
    decide (l.worktreeId = worktreeId ∧ l.agentId = agentId ∧ l.status = .active)
  if db.worktreeLeases.count held = 0 then
    .error (.notFound s!"No active lease found for worktree {worktreeId} owned by {agentId}")
  else
    .ok ((), { db with
      worktreeLeases := db.worktreeLeases.update held
        (renewedWorktreeLease (now + seconds durationSecs) now) })

/-- `worktree_reclaim_expired_worktree_leases`。 -/
def reclaimExpiredWorktreeLeases (now : Time) : Db :=
  { db with
    worktreeLeases := db.worktreeLeases.update (fun l => l.status = .active ∧ l.expiresAt < now)
      fun l => { l with status := .expired } }

end Db

/-! ## 並行実行 -/

/-- worktree の操作の呼び出し。 -/
inductive WorktreeCall where
  | tryClaim (worktreeId agentId : String) (durationSecs : Int) (now : Time)
  | renew (worktreeId agentId : String) (durationSecs : Int) (now : Time)
  | release (worktreeId agentId : String)
  | reclaimExpired (now : Time)

/-- 呼び出しの途中で、次に流す文。 -/
inductive ReleasePc where
  | idle
  | update (worktreeId agentId : String)
  deriving DecidableEq

/-- 一つの database と、connection ごとの呼び出しの進み具合。 -/
structure WorktreeShared where
  db : Db
  pc : Nat → ReleasePc := fun _ => .idle

/-- どの connection が何をするか。 -/
inductive WorktreeAct where
  | start (p : Nat) (call : WorktreeCall)
  | next (p : Nat)
  | abandon (p : Nat)

/-- 呼び出しが通ったか。途中なら `none`。 -/
abbrev WorktreeRes := Option (Except StoreError Unit)

namespace WorktreeShared

/-- 進み具合を書き換える。 -/
def setPc (s : WorktreeShared) (p : Nat) (pc : ReleasePc) : WorktreeShared :=
  { s with pc := fun q => if q = p then pc else s.pc q }

/-- 呼び出しの最初の文を流す。解放のほかはここで終わる。 -/
def start (s : WorktreeShared) (p : Nat) : WorktreeCall → WorktreeRes × WorktreeShared
  | .tryClaim worktreeId agentId durationSecs now =>
    let r := commit s.db (s.db.tryClaimWorktree worktreeId agentId durationSecs now)
    (some (r.1.map fun _ => ()), { s with db := r.2 })
  | .renew worktreeId agentId durationSecs now =>
    let r := commit s.db (s.db.renewWorktreeLease worktreeId agentId durationSecs now)
    (some r.1, { s with db := r.2 })
  | .release worktreeId agentId =>
    match s.db.checkWorktreeOwner worktreeId agentId with
    | .ok _ => (none, s.setPc p (.update worktreeId agentId))
    | .error e => (some (.error e), s)
  | .reclaimExpired now => (some (.ok ()), { s with db := s.db.reclaimExpiredWorktreeLeases now })

/-- 解放の二つ目の文を流す。 -/
def next (s : WorktreeShared) (p : Nat) : WorktreeRes × WorktreeShared :=
  match s.pc p with
  | .idle => (none, s)
  | .update worktreeId _ =>
    (some (.ok ()), { s with db := s.db.releaseWorktree worktreeId }.setPc p .idle)

end WorktreeShared

/-- 一歩。途中の解放がある connection は、新しい呼び出しを始めない。 -/
def worktreeStep (s : WorktreeShared) : WorktreeAct → WorktreeRes × WorktreeShared
  | .start p call => if s.pc p = .idle then s.start p call else (none, s)
  | .next p => s.next p
  | .abandon p => (none, s.setPc p .idle)

end Cassy
