import Cassy.Infra.Codec
import Cassy.Infra.Result
import Cassy.Store.Timestamp

/-!
# 録画の file の形

`cas-recording/format.rs`。header、出来事の列、keyframe の索引、索引の位置が、この順に並ぶ。全体は zstd で圧縮される。

bincode と zstd は外の部品であり、書いたものを読み戻せることだけを使う。bincode についてはそれも、符号が `2 ^ 32` byte
より短い値についてだけである。
-/

namespace Cassy.Recording

open Infra

/-- `MAGIC`。 -/
def magic : List.Vector UInt8 8 := ⟨[0x43, 0x41, 0x53, 0x52, 0x45, 0x43, 0x00, 0x01], rfl⟩

/-- `FORMAT_VERSION`。 -/
def formatVersion : UInt16 := 1

/-- `FormatError`。 -/
inductive FormatError where
  | invalidMagic
  | unsupportedVersion (version : UInt16)
  | io
  | bincode
  | unexpectedEof
  | corruptedIndex
  deriving DecidableEq, Repr

/-- `RecordingHeader`。 -/
structure RecordingHeader where
  magic : List.Vector UInt8 8
  version : UInt16
  cols : UInt16
  rows : UInt16
  createdAt : DateTime
  agentName : String
  sessionId : String
  agentRole : String
  deriving DecidableEq

namespace RecordingHeader

/-- `RecordingHeader::new`。`createdAt` は時計の読みである。 -/
def new (cols rows : UInt16) (createdAt : DateTime) (agentName sessionId agentRole : String) :
    RecordingHeader :=
  { magic := Recording.magic, version := formatVersion, cols, rows, createdAt, agentName, sessionId
    agentRole }

/-- `RecordingHeader::validate`。 -/
def validate (h : RecordingHeader) : Except FormatError Unit := do
  ensure (h.magic = Recording.magic) .invalidMagic
  ensure (h.version ≤ formatVersion) (.unsupportedVersion h.version)

theorem validate_new (cols rows : UInt16) (createdAt : DateTime) (agentName sessionId agentRole : String) :
    (new cols rows createdAt agentName sessionId agentRole).validate = .ok () := by
  have hmagic : (new cols rows createdAt agentName sessionId agentRole).magic = Recording.magic := rfl
  have hversion : (new cols rows createdAt agentName sessionId agentRole).version ≤ formatVersion :=
    UInt16.le_refl formatVersion
  unfold validate
  rw [ensure_of hmagic, ok_bind]
  exact ensure_of hversion

end RecordingHeader

/-- `RecordingEvent`。 -/
inductive RecordingEvent where
  | output (timestampMs : UInt64) (data : Bytes)
  | resize (timestampMs : UInt64) (cols rows : UInt16)
  | keyframe (timestampMs snapshotOffset : UInt64) (snapshotSize : UInt32)
  deriving DecidableEq, Repr

/-- `RecordingEvent::timestamp_ms`。 -/
def RecordingEvent.timestampMs : RecordingEvent → UInt64
  | output t _ | resize t _ _ | keyframe t _ _ => t

/-- `KeyframeEntry`。 -/
structure KeyframeEntry where
  timestampMs : UInt64
  eventOffset : UInt64
  snapshotOffset : UInt64
  deriving DecidableEq, Repr

/-- `KeyframeIndex`。 -/
structure KeyframeIndex where
  entries : List KeyframeEntry := []
  totalDurationMs : UInt64 := 0
  totalEvents : UInt64 := 0
  deriving DecidableEq, Repr

/-- bincode の `serialize` と `deserialize`。 -/
structure Bincode where
  encHeader : RecordingHeader → Bytes
  decHeader : Bytes → Option RecordingHeader
  encEvent : RecordingEvent → Bytes
  decEvent : Bytes → Option RecordingEvent
  encIndex : KeyframeIndex → Bytes
  decIndex : Bytes → Option KeyframeIndex
  decHeader_enc : ∀ h, (encHeader h).length < 2 ^ 32 → decHeader (encHeader h) = some h
  decEvent_enc : ∀ e, (encEvent e).length < 2 ^ 32 → decEvent (encEvent e) = some e
  decIndex_enc : ∀ i, (encIndex i).length < 2 ^ 32 → decIndex (encIndex i) = some i

/-- zstd の圧縮と展開。 -/
structure Zstd where
  compress : Int → Bytes → Bytes
  decompress : Bytes → Option Bytes
  decompress_compress : ∀ level data, decompress (compress level data) = some data

/-- 長さを `u32` で先に書いた塊。 -/
def frame (bs : Bytes) : Bytes := leBytes 4 bs.length ++ bs

@[simp] theorem frame_length (bs : Bytes) : (frame bs).length = 4 + bs.length := by
  unfold frame
  rw [List.length_append, leBytes_length]

/-!
## 録画を書く

`cas-recording/writer.rs`。書き手への呼び出しは命令になり、`background_writer` がそれを順に列へ書く。書いた byte の数は
`current_offset` に別に数えてあり、keyframe の位置はこの数から取られる。

続きの録画は、前の録画の索引より前をそのまま写し、索引を引き継いで始まる。
-/

/-- `WriteCommand`。`Close` は列の終わりである。 -/
inductive WriteCommand where
  | event (e : RecordingEvent)
  | keyframe (timestampMs : UInt64) (snapshotData : Bytes)
  deriving DecidableEq, Repr

/-- 書き手への呼び出し。時刻は書き手の時計の読みである。 -/
inductive RecordCall where
  | writeOutput (timestampMs : UInt64) (data : Bytes)
  | writeResize (timestampMs : UInt64) (cols rows : UInt16)
  | writeKeyframe (timestampMs : UInt64) (snapshotData : Bytes)
  deriving DecidableEq, Repr

/-- 呼び出しの出す命令。空の出力は何も出さない。 -/
def RecordCall.command : RecordCall → Option WriteCommand
  | writeOutput t data => if data.isEmpty then none else some (.event (.output t data))
  | writeResize t cols rows => some (.event (.resize t cols rows))
  | writeKeyframe t snapshot => some (.keyframe t snapshot)

/-- `background_writer` の変数。`written` は encoder に渡した byte である。 -/
structure WriterState where
  written : Bytes
  currentOffset : Nat
  keyframeIndex : KeyframeIndex
  eventCount : Nat
  lastTimestampMs : UInt64

namespace WriterState

/-- 新しい録画の始め。 -/
def create (bin : Bincode) (header : RecordingHeader) : WriterState where
  written := frame (bin.encHeader header)
  currentOffset := 4 + (bin.encHeader header).length
  keyframeIndex := {}
  eventCount := 0
  lastTimestampMs := 0

/-- 続きの録画の始め。 -/
def resume (pre : Bytes) (index : KeyframeIndex) : WriterState where
  written := pre
  currentOffset := pre.length
  keyframeIndex := index
  eventCount := index.totalEvents.toNat
  lastTimestampMs := index.totalDurationMs

/-- 一つの命令。 -/
def command (bin : Bincode) (s : WriterState) : WriteCommand → WriterState
  | .event e =>
    let eventBytes := bin.encEvent e
    { s with
      written := s.written ++ frame eventBytes
      currentOffset := s.currentOffset + (4 + eventBytes.length)
      eventCount := s.eventCount + 1
      lastTimestampMs := e.timestampMs }
  | .keyframe t snapshot =>
    let snapshotOffset := s.currentOffset
    let eventOffset := s.currentOffset + (4 + snapshot.length)
    let eventBytes :=
      bin.encEvent (.keyframe t (UInt64.ofNat snapshotOffset) (UInt32.ofNat snapshot.length))
    { written := s.written ++ (frame snapshot ++ frame eventBytes)
      currentOffset := eventOffset + (4 + eventBytes.length)
      keyframeIndex :=
        { s.keyframeIndex with
          entries := s.keyframeIndex.entries
            ++ [⟨t, UInt64.ofNat eventOffset, UInt64.ofNat snapshotOffset⟩] }
      eventCount := s.eventCount + 1
      lastTimestampMs := t }

/-- 書き終えた索引。 -/
def finalIndex (s : WriterState) : KeyframeIndex :=
  { s.keyframeIndex with
    totalDurationMs := s.lastTimestampMs, totalEvents := UInt64.ofNat s.eventCount }

/-- 書き終えた列。 -/
def finish (bin : Bincode) (s : WriterState) : Bytes :=
  s.written ++ (frame (bin.encIndex s.finalIndex) ++ leBytes 8 s.currentOffset)

end WriterState

/-- `background_writer`。 -/
def backgroundWriter (bin : Bincode) (header : RecordingHeader)
    (resume : Option (Bytes × KeyframeIndex)) (commands : List WriteCommand) : Bytes :=
  let start :=
    match resume with
    | some (pre, index) => WriterState.resume pre index
    | none => WriterState.create bin header
  (commands.foldl (WriterState.command bin) start).finish bin

end Cassy.Recording
