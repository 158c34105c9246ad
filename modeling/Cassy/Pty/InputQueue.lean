import Mathlib.Algebra.Ring.Nat
import Mathlib.Data.List.Basic

/-!
# pane への入力の列

書き手は列に塊を足してすぐ戻り、pane ごとの一本の thread が塊を一つずつ取り出して PTY へ書く。列は一つの鍵で守られ、
取り出しと、書いた後の帳簿は別々に鍵を取る。

* `enqueue` — 塊を足す。`write`、`write_then`、`write_control_then` はこれを呼ぶ
* `writer_loop` — 取り出す、書く、帳簿をつける、`done` を呼ぶ

書くのは `write_all` と `flush` で、何度かに分けて書かれ、どこでも失敗しうる。失敗を帳簿につけるとき、後ろの塊も一緒に
失敗にする。

`accepted`、`handed`、`flushed`、`settled` は、何が起こったかの控えで、実装には無い。
-/

namespace Cassy.Pty

/-- 書いた結果。 -/
inductive WriteResult where
  | ok
  | error (text : String)
  deriving DecidableEq, Repr

def WriteResult.isOk : WriteResult → Bool
  | ok => true
  | error _ => false

/-- 列の塊。`done` は、書き終えたときに呼ぶものの名前である。 -/
structure Chunk where
  bytes : List UInt8
  done : Option Nat := none
  deriving DecidableEq, Repr

/-- `State`。 -/
structure QueueState where
  chunks : List Chunk := []
  buffered : Nat := 0
  receivedBytes : Nat := 0
  closed : Bool := false
  paused : Bool := false
  failed : Option String := none
  deriving DecidableEq, Repr

/-- 書く thread の位置。 -/
inductive WriterPc where
  /-- 列を見る前。 -/
  | ready
  /-- 塊を書いている。`rest` はまだ書かれていない byte である。 -/
  | writing (chunk : Chunk) (rest : List UInt8)
  /-- 書き終えて、帳簿の前。 -/
  | wrote (chunk : Chunk) (result : WriteResult)
  /-- `done` を順に呼んでいる。 -/
  | reporting (calls : List (Chunk × WriteResult))
  | exited
  deriving DecidableEq, Repr

/-- 列と、書く thread。 -/
structure PaneInput where
  cap : Nat
  state : QueueState := {}
  writer : WriterPc := .ready
  writtenBytes : Nat := 0
  /-- 受け付けた塊。 -/
  accepted : List Chunk := []
  /-- PTY の受け取った byte。 -/
  handed : List UInt8 := []
  /-- 書いて flush し終えた塊の数。 -/
  flushed : Nat := 0
  /-- 報告の済んだ塊。 -/
  settled : List (Chunk × WriteResult) := []
  deriving DecidableEq, Repr

/-- 受け付けない理由。 -/
inductive InputError where
  | pty (message : String)
  | inputFull (buffered cap : Nat)
  deriving DecidableEq, Repr

namespace PaneInput

/-! ## 書き手 -/

/-- `enqueue`。 -/
def enqueue (s : PaneInput) (data : List UInt8) (done : Option Nat) (control : Bool) :
    Except InputError PaneInput :=
  match s.state.failed with
  | some error => .error (.pty s!"Write failed: {error}")
  | none =>
    if s.state.closed || s.state.paused then .error (.pty "PTY input is closed")
    else if !control && 0 < s.state.buffered && s.cap < s.state.buffered + data.length then
      .error (.inputFull s.state.buffered s.cap)
    else
      .ok { s with
        state.chunks := s.state.chunks ++ [⟨data, done⟩]
        state.buffered := s.state.buffered + data.length
        state.receivedBytes := min (s.state.receivedBytes + data.length) (2 ^ 64 - 1)
        accepted := s.accepted ++ [⟨data, done⟩] }

/-- `write`。 -/
def write (s : PaneInput) (data : List UInt8) : Except InputError PaneInput :=
  s.enqueue data none false

/-- `write_then`。 -/
def writeThen (s : PaneInput) (data : List UInt8) (done : Nat) : Except InputError PaneInput :=
  s.enqueue data (some done) false

/-- `write_control_then`。上限を越えても受け付ける。 -/
def writeControlThen (s : PaneInput) (data : List UInt8) (done : Option Nat) :
    Except InputError PaneInput :=
  s.enqueue data done true

/-- `pause` と `resume`。 -/
def setPaused (s : PaneInput) (paused : Bool) : PaneInput :=
  { s with state.paused := paused }

/-- `PtyInputOwner::drop`。 -/
def dropOwner (s : PaneInput) : PaneInput := { s with state.closed := true }

/-! ## 書く thread -/

/-- 鍵を取り、塊を取り出す。列が空なら、閉じていれば終わり、そうでなければ待つ。 -/
def pop (s : PaneInput) : PaneInput :=
  match s.writer with
  | .ready =>
    match s.state.chunks with
    | chunk :: chunks =>
      { s with state.chunks := chunks, writer := .writing chunk chunk.bytes }
    | [] => if s.state.closed then { s with writer := .exited } else s
  | _ => s

/-- 続きの `n` byte が書かれる。 -/
def writeSome (s : PaneInput) (n : Nat) : PaneInput :=
  match s.writer with
  | .writing chunk rest =>
    { s with
      writer := .writing chunk (rest.drop n)
      writtenBytes := s.writtenBytes + (rest.take n).length
      handed := s.handed ++ rest.take n }
  | _ => s

/-- `write_all` と `flush` が戻る。成功するのは、全部が書かれたときだけである。 -/
def finish (s : PaneInput) (error : Option String) : PaneInput :=
  match s.writer, error with
  | .writing chunk _, some text => { s with writer := .wrote chunk (.error text) }
  | .writing chunk [], none =>
    { s with writer := .wrote chunk .ok, flushed := s.flushed + 1 }
  | _, _ => s

/-- 帳簿をつける。初めての失敗では、後ろの塊も失敗にする。 -/
def book (s : PaneInput) : PaneInput :=
  match s.writer with
  | .wrote chunk result =>
    let buffered := s.state.buffered - chunk.bytes.length
    match result, s.state.failed with
    | .error text, none =>
      { s with
        state.buffered := 0
        state.failed := some text
        state.chunks := []
        writer := .reporting ((chunk, result) :: s.state.chunks.map fun c => (c, .error text)) }
    | _, _ =>
      { s with state.buffered := buffered, writer := .reporting [(chunk, result)] }
  | _ => s

/-- 次の塊の `done` を呼ぶ。残っていなければ列に戻る。 -/
def report (s : PaneInput) : PaneInput :=
  match s.writer with
  | .reporting [] => { s with writer := .ready }
  | .reporting (call :: calls) =>
    { s with writer := .reporting calls, settled := s.settled ++ [call] }
  | _ => s

/-- 呼ばれた `done` とその引数。 -/
def called (s : PaneInput) : List (Nat × WriteResult) :=
  s.settled.filterMap fun x => x.1.done.map fun done => (done, x.2)

end PaneInput

/-! ## 一歩 -/

/-- 書き手か、持ち主か、書く thread の一歩。 -/
inductive InputAct where
  | write (data : List UInt8)
  | writeThen (data : List UInt8) (done : Nat)
  | writeControlThen (data : List UInt8) (done : Option Nat)
  | pause
  | resume
  | dropOwner
  | pop
  | writeSome (n : Nat)
  | finish (error : Option String)
  | book
  | report
  deriving DecidableEq, Repr

/-- 受付の答え。 -/
inductive InputOutcome where
  | done
  | accepted
  | refused (e : InputError)
  deriving DecidableEq, Repr

/-- 受付の結果。断られたら何も変わらない。 -/
def settleEnqueue (s : PaneInput) : Except InputError PaneInput → InputOutcome × PaneInput
  | .ok s' => (.accepted, s')
  | .error e => (.refused e, s)

/-- 一歩。 -/
def inputStep (s : PaneInput) : InputAct → InputOutcome × PaneInput
  | .write data => settleEnqueue s (s.write data)
  | .writeThen data done => settleEnqueue s (s.writeThen data done)
  | .writeControlThen data done => settleEnqueue s (s.writeControlThen data done)
  | .pause => (.done, s.setPaused true)
  | .resume => (.done, s.setPaused false)
  | .dropOwner => (.done, s.dropOwner)
  | .pop => (.done, s.pop)
  | .writeSome n => (.done, s.writeSome n)
  | .finish error => (.done, s.finish error)
  | .book => (.done, s.book)
  | .report => (.done, s.report)

end Cassy.Pty
