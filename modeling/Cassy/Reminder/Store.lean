import Mathlib.Logic.Function.Basic
import Cassy.Infra.Run
import Cassy.Infra.Table
import Cassy.Store.Types

/-!
# reminder の表

`reminder_store.rs`。reminder は時刻か出来事で発火する行である。宛先の worker が hold に入ると待つ行は `suspended` になり、hold が
明けると `pending` に戻る。

hold の間に起きた出来事は `fired_event` に控えられ、明けたときに時刻の reminder として発火する。hold の間の時間は出来事の reminder の
期限に数えない。そのために `created_at` をずらす。

時刻の列は `to_rfc3339` の書いた文字列であり、書いた時刻で表す。読み返せるのは四桁の年だけである（`parseDatetime`）。
SQL の `datetime` は外の部品であり、`SqlDatetime` がその頼っているところを述べる。
-/

namespace Cassy

open Infra

/-! ## 時刻の列 -/

/-- 0000 年の始め。 -/
def yearZero : Time := seconds (-62167219200)

/-- 10000 年の始め。 -/
def yearTenThousand : Time := seconds 253402300800

/-- `parse_datetime`。`to_rfc3339` は四桁に収まらない年に符号を付け、それは読み返せない。 -/
def parseDatetime (written : Time) : Option Time :=
  if yearZero ≤ written ∧ written < yearTenThousand then some written else none

/-- SQLite の `datetime`。中では時刻をミリ秒で持ち、秒で答える。9999 年を越えると `NULL` になる。 -/
structure SqlDatetime where
  /-- `datetime(x, '+n seconds')` -/
  plusSeconds : Time → Int → Option Int
  /-- `datetime('now')` -/
  now : Time → Option Int
  plusSeconds_near : ∀ {t : Time} {n s : Int}, plusSeconds t n = some s →
    t + seconds n < seconds (s + 1) + 1000000
  now_le : ∀ {t : Time} {s : Int}, now t = some s → seconds s ≤ t
  now_lt : ∀ {t : Time} {s : Int}, now t = some s → t < yearTenThousand

/-! ## 行 -/

inductive ReminderTriggerType where
  | time | event
  deriving DecidableEq, Repr

inductive ReminderStatus where
  | pending | fired | cancelled | expired | suspended
  deriving DecidableEq, Repr

/-- 終わった reminder。 -/
def ReminderStatus.isTerminal : ReminderStatus → Bool
  | fired | cancelled | expired => true
  | pending | suspended => false

/-- `reminders` の行。 -/
structure ReminderRow where
  id : Nat
  supervisorId : String
  message : String
  triggerType : ReminderTriggerType
  triggerAt : Option Time
  triggerEvent : Option String
  triggerFilter : Option Json
  status : ReminderStatus := .pending
  ttlSecs : Int
  createdAt : Time
  firedAt : Option Time := none
  cancelledAt : Option Time := none
  targetId : Option String
  firedEvent : Option Json := none
  sessionId : Option String
  originSessionId : Option String
  crossSession : Bool
  taskId : Option String
  suspendedAt : Option Time := none

namespace ReminderRow

/-- 読み返した発火の時刻。 -/
def dueAt (r : ReminderRow) : Option Time := r.triggerAt.bind parseDatetime

/-- 発火の時刻が来ている。 -/
def isDue (r : ReminderRow) (now : Time) : Bool := r.dueAt.any (· ≤ now)

/-- `target_id = ?2 OR (target_id IS NULL AND supervisor_id = ?2)`。 -/
def targets (r : ReminderRow) (targetId : String) : Bool :=
  match r.targetId with
  | some t => t = targetId
  | none => r.supervisorId = targetId

/-- `status IN ('pending', 'suspended')`。 -/
def isOpen (r : ReminderRow) : Bool := r.status = .pending || r.status = .suspended

/-- `expire_stale_with_conn` の `WHERE`。時刻の reminder の期限は発火の時刻から数える。 -/
def isStale (sql : SqlDatetime) (now : Time) (r : ReminderRow) : Bool :=
  let since := if r.triggerType = .time then r.triggerAt.getD r.createdAt else r.createdAt
  r.status = .pending && decide (0 < r.ttlSecs) &&
    match sql.plusSeconds since r.ttlSecs, sql.now now with
    | some deadline, some current => decide (deadline < current)
    | _, _ => false

/-- `resume_suspended_for_target` の、一つの行の書き換え。 -/
def resumed (now : Time) (r : ReminderRow) : ReminderRow :=
  if r.firedEvent.isSome || (r.triggerType = .time && r.isDue now) then
    -- 次の scan で発火する
    { r with status := .pending, suspendedAt := none, triggerType := .time, triggerAt := some now }
  else if r.triggerType = .event then
    -- hold の間は期限に数えない
    let held := match r.suspendedAt.bind parseDatetime with
      | some at' => max (now - at') 0
      | none => 0
    let shifted := match parseDatetime r.createdAt with
      | some at' => at' + held
      | none => r.createdAt
    { r with status := .pending, suspendedAt := none, createdAt := shifted }
  else { r with status := .pending, suspendedAt := none }

end ReminderRow

/-! ## 操作 -/

/-- reminder の表。番号は使い回されない。 -/
structure Reminders where
  rows : Table ReminderRow.id := .empty
  nextId : Nat := 1

/-- `create_with_scope` の引数。 -/
structure ReminderDraft where
  ownerId : String
  targetId : Option String
  message : String
  triggerType : ReminderTriggerType
  triggerAt : Option Time
  triggerEvent : Option String
  triggerFilter : Option Json
  ttlSecs : Int
  sessionId : Option String
  originSessionId : Option String
  crossSession : Bool
  taskId : Option String

/-- `map(str::trim).filter(|s| !s.is_empty())`。 -/
def trimmedNonEmpty (s : String) : Option String :=
  if nonBlank s then some (String.ofList (trim s.toList)) else none

namespace Reminders

variable (db : Reminders) (now : Time)

/-- `create_with_scope`。宛先が無ければ、持ち主に届く。 -/
def createWithScope (d : ReminderDraft) : Nat × Reminders :=
  let row : ReminderRow :=
    { id := db.nextId
      supervisorId := d.ownerId
      message := d.message
      triggerType := d.triggerType
      triggerAt := d.triggerAt
      triggerEvent := d.triggerEvent
      triggerFilter := d.triggerFilter
      ttlSecs := d.ttlSecs
      createdAt := now
      targetId := some (d.targetId.getD d.ownerId)
      sessionId := d.sessionId.bind trimmedNonEmpty
      originSessionId := d.originSessionId.bind trimmedNonEmpty
      crossSession := d.crossSession
      taskId := d.taskId.bind trimmedNonEmpty }
  (db.nextId, { rows := db.rows.insertOrIgnore row, nextId := db.nextId + 1 })

/-- 条件に合う行の書き換えと、その数。 -/
def change (p : ReminderRow → Bool) (f : ReminderRow → ReminderRow)
    (hf : ∀ r, (f r).id = r.id := by exact fun _ => rfl) : Nat × Reminders :=
  (db.rows.count p, { db with rows := db.rows.update p f hf })

/-- `suspend_pending_for_target`。 -/
def suspendPendingForTarget (targetId : String) : Nat × Reminders :=
  db.change (fun r => r.status = .pending && r.targets targetId)
    fun r => { r with status := .suspended, suspendedAt := some now }

/-- `catch_suspended_event`。控えるのは一つ目だけである。 -/
def catchSuspendedEvent (id : Nat) (event : Json) : Bool × Reminders :=
  let (rows, db) := db.change (fun r => r.id = id && r.status = .suspended && r.firedEvent.isNone)
    fun r => { r with firedEvent := some event }
  (decide (0 < rows), db)

/-- `resume_suspended_for_target`。 -/
def resumeSuspendedForTarget (targetId : String) : Nat × Reminders :=
  db.change (fun r => r.status = .suspended && r.targets targetId) (ReminderRow.resumed now)
    fun r => by unfold ReminderRow.resumed; split <;> [rfl; (split <;> rfl)]

/-- `mark_fired`。 -/
def markFired (id : Nat) (firedEvent : Option Json) : Except StoreError Unit × Reminders :=
  let (rows, db) := db.change (fun r => r.id = id && r.status = .pending)
    fun r => { r with status := .fired, firedAt := some now, firedEvent := firedEvent }
  (if rows = 0 then .error (.notFound s!"Reminder not found or not pending: {id}") else .ok (), db)

/-- `cancel`。 -/
def cancel (id : Nat) (ownerId : String) : Except StoreError Unit × Reminders :=
  let (rows, db) := db.change (fun r => r.id = id && r.supervisorId = ownerId && r.isOpen)
    fun r => { r with status := .cancelled, cancelledAt := some now }
  (if rows = 0 then
      .error (.notFound s!"Reminder not found, not pending, or not owned by this agent: {id}")
    else .ok (), db)

/-- `cancel_pending_for_origin_session`。 -/
def cancelPendingForOriginSession (originSessionId : String) : Nat × Reminders :=
  db.change (fun r => r.isOpen && r.originSessionId = some originSessionId && !r.crossSession)
    fun r => { r with status := .cancelled, cancelledAt := some now }

/-- `cancel_pending_for_task`。 -/
def cancelPendingForTask (taskId : String) : Nat × Reminders :=
  db.change (fun r => r.isOpen && r.taskId = some taskId && !r.crossSession)
    fun r => { r with status := .cancelled, cancelledAt := some now }

/-- `expire_stale`。 -/
def expireStale (sql : SqlDatetime) : Nat × Reminders :=
  db.change (ReminderRow.isStale sql now) fun r => { r with status := .expired }

/-- `expire`。 -/
def expire (id : Nat) : Bool × Reminders :=
  let (rows, db) := db.change (fun r => r.id = id && r.status = .pending)
    fun r => { r with status := .expired }
  (decide (0 < rows), db)

end Reminders

/-- 呼び出し。 -/
inductive ReminderCall where
  | createWithScope (draft : ReminderDraft)
  | suspendPendingForTarget (targetId : String)
  | catchSuspendedEvent (id : Nat) (event : Json)
  | resumeSuspendedForTarget (targetId : String)
  | markFired (id : Nat) (firedEvent : Option Json)
  | cancel (id : Nat) (ownerId : String)
  | cancelPendingForOriginSession (originSessionId : String)
  | cancelPendingForTask (taskId : String)
  | expireStale
  | expire (id : Nat)

/-- 呼び出しと、そのときの時計。 -/
structure ReminderOp where
  now : Time
  call : ReminderCall

/-- 呼び出しの答。 -/
inductive ReminderReply where
  | created (id : Nat)
  | rows (n : Nat)
  | changed (any : Bool)
  | done (result : Except StoreError Unit)

/-- 一歩。 -/
def reminderStep (sql : SqlDatetime) (db : Reminders) (op : ReminderOp) : ReminderReply × Reminders :=
  match op.call with
  | .createWithScope d => (db.createWithScope op.now d).map .created id
  | .suspendPendingForTarget t => (db.suspendPendingForTarget op.now t).map .rows id
  | .catchSuspendedEvent i e => (db.catchSuspendedEvent i e).map .changed id
  | .resumeSuspendedForTarget t => (db.resumeSuspendedForTarget op.now t).map .rows id
  | .markFired i e => (db.markFired op.now i e).map .done id
  | .cancel i o => (db.cancel op.now i o).map .done id
  | .cancelPendingForOriginSession s => (db.cancelPendingForOriginSession op.now s).map .rows id
  | .cancelPendingForTask t => (db.cancelPendingForTask op.now t).map .rows id
  | .expireStale => (db.expireStale op.now sql).map .rows id
  | .expire i => (db.expire i).map .changed id

end Cassy
