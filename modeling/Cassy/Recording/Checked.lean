import Cassy.Infra.Fault
import Cassy.Recording.Reader

/-!
# 壊れた録画を読む

`Reader` の関数は、位置と長さを上限の無い数として計算する。壊れた録画では、file から読んだ位置がどこを指すか分からない。
ここでは `reader.rs` の足し算と slice を一つずつ、`usize` の範囲で落ちるものとして書く。

keyframe を探す `partition_point` は標準の二分探索である。整列していない索引については、長さを越えない位置を返すことしか
言えない。
-/

namespace Cassy.Recording

open Infra

/-- `ReadPosition`。 -/
structure ReadPosition where
  offset : Nat
  timestampMs : UInt64
  deriving DecidableEq, Repr

/-- `slice::partition_point`。 -/
structure PartitionPoint where
  run : List KeyframeEntry → (KeyframeEntry → Bool) → Nat
  run_le : ∀ entries p, run entries p ≤ entries.length
  run_eq : ∀ front back p, (∀ e ∈ front, p e = true) → (∀ e ∈ back, p e = false) →
    run (front ++ back) p = front.length

namespace Checked

variable {ε : Type}

/-! ## 開く -/

/-- `RecordingReader::from_decompressed`。 -/
def fromDecompressed (bin : Bincode) (data : Bytes) : Except (Fault FormatError) RecordingReader := do
  ensure (12 ≤ data.length) (.error .unexpectedEof)
  let indexOffsetPos ← usizeSub data.length 8
  let trailerEnd ← usizeAdd indexOffsetPos 8
  let trailer ← usizeSlice data indexOffsetPos trailerEnd
  let indexOffset := ofLe trailer
  ensure (indexOffset < indexOffsetPos) (.error .corruptedIndex)
  let headerFrame ← usizeSlice data 0 4
  let headerEnd ← usizeAdd 4 (ofLe headerFrame)
  ensure (headerEnd ≤ data.length) (.error .unexpectedEof)
  let headerBytes ← usizeSlice data 4 headerEnd
  let header ← okOr (bin.decHeader headerBytes) (.error .bincode)
  lift header.validate
  let indexDataStart ← usizeAdd indexOffset 4
  ensure (indexDataStart ≤ indexOffsetPos) (.error .corruptedIndex)
  let indexFrame ← usizeSlice data indexOffset indexDataStart
  let indexEnd ← usizeAdd indexDataStart (ofLe indexFrame)
  ensure (indexEnd ≤ indexOffsetPos) (.error .corruptedIndex)
  let indexBytes ← usizeSlice data indexDataStart indexEnd
  let index ← okOr (bin.decIndex indexBytes) (.error .bincode)
  return { data, header, index, eventsStartOffset := headerEnd, indexOffset }

/-! ## 位置を探す -/

/-- `KeyframeIndex::find_keyframe`。 -/
def findKeyframe (pp : PartitionPoint) (entries : List KeyframeEntry) (target : UInt64) :
    Except (Fault ε) (Option KeyframeEntry) :=
  if entries.isEmpty then .ok none
  else
    let idx := pp.run entries fun e => e.timestampMs ≤ target
    if idx = 0 then (okOr entries[0]? .panic).map some
    else do
      let i ← usizeSub idx 1
      (okOr entries[i]? .panic).map some

/-- 録画の長さまでの時刻。`timestamp_ms.min(total_duration_ms)` である。 -/
def clampMs (timestampMs totalDurationMs : UInt64) : UInt64 :=
  if timestampMs ≤ totalDurationMs then timestampMs else totalDurationMs

/-- 選んだ keyframe の位置。 -/
def positionOf (r : RecordingReader) : Option KeyframeEntry → ReadPosition
  | some kf => { offset := kf.eventOffset.toNat, timestampMs := kf.timestampMs }
  | none => { offset := r.eventsStartOffset, timestampMs := 0 }

/-- `seek_to`。 -/
def seekTo (pp : PartitionPoint) (r : RecordingReader) (timestampMs : UInt64) :
    Except (Fault FormatError) ReadPosition := do
  let kf ← findKeyframe pp r.index.entries (clampMs timestampMs r.index.totalDurationMs)
  return positionOf r kf

/-- `seek_to_start`。 -/
def seekToStart (r : RecordingReader) : ReadPosition := positionOf r none

/-! ## 写しと範囲 -/

/-- `read_snapshot`。 -/
def readSnapshot (r : RecordingReader) (keyframe : KeyframeEntry) : Except (Fault FormatError) Bytes := do
  let offset := keyframe.snapshotOffset.toNat
  let dataStart ← usizeAdd offset 4
  ensure (dataStart ≤ r.data.length) (.error .unexpectedEof)
  let lenBytes ← usizeSlice r.data offset dataStart
  let dataEnd ← usizeAdd dataStart (ofLe lenBytes)
  ensure (dataEnd ≤ r.data.length) (.error .unexpectedEof)
  usizeSlice r.data dataStart dataEnd

/-- 一つの keyframe の、飛ばす範囲。 -/
def skipRegion (data : Bytes) (kf : KeyframeEntry) : Except (Fault ε) (Nat × Nat) := do
  let start := kf.snapshotOffset.toNat
  let lenEnd ← usizeAdd start 4
  let len ← if lenEnd ≤ data.length then (usizeSlice data start lenEnd).map ofLe else .ok 0
  let stop ← usizeAdd lenEnd len
  return (start, stop)

/-- `read_events_from`。 -/
def readEventsFrom (r : RecordingReader) (position : ReadPosition) :
    Except (Fault ε) EventIterator := do
  let skipRegions ← r.index.entries.mapM (skipRegion r.data)
  return { data := r.data, offset := position.offset, endOffset := r.indexOffset, skipRegions }

/-! ## 一つ読む -/

/-- 出来事の byte を読む。 -/
def readEvent (bin : Bincode) (it : EventIterator) (eventStart eventEnd : Nat) :
    Except (Fault ε) (Option (Except FormatError RecordingEvent) × EventIterator) := do
  let bytes ← usizeSlice it.data eventStart eventEnd
  match bin.decEvent bytes with
  | none => return (some (.error .bincode), it)
  | some e => return (some (.ok e), { it with offset := eventEnd })

/-- 長さを読んで、終わりを確かめる。 -/
def readFrame (bin : Bincode) (it : EventIterator) :
    Except (Fault ε) (Option (Except FormatError RecordingEvent) × EventIterator) := do
  let eventStart ← usizeAdd it.offset 4
  if it.data.length < eventStart then return (some (.error .unexpectedEof), it)
  else
    let lenBytes ← usizeSlice it.data it.offset eventStart
    let eventEnd ← usizeAdd eventStart (ofLe lenBytes)
    if it.data.length < eventEnd then return (some (.error .unexpectedEof), it)
    else
      let limit ← usizeAdd it.endOffset 4
      if limit < eventEnd then return (some (.error .unexpectedEof), it)
      else readEvent bin it eventStart eventEnd

/-- `EventIterator::next`。 -/
def next (bin : Bincode) (it : EventIterator) :
    Except (Fault ε) (Option (Except FormatError RecordingEvent) × EventIterator) :=
  let it := { it with offset := it.skip it.skipRegions.length it.offset }
  if it.endOffset ≤ it.offset then .ok (none, it) else readFrame bin it

/-- `read_events_in_range` の条件。 -/
def withinEnd (endMs : UInt64) : Except FormatError RecordingEvent → Bool
  | .ok event => event.timestampMs ≤ endMs
  | .error _ => true

/-- `read_events_in_range`。 -/
def readEventsInRange (pp : PartitionPoint) (r : RecordingReader) (startMs : UInt64) :
    Except (Fault FormatError) (TakeWhile EventIterator) := do
  let position ← seekTo pp r startMs
  let iter ← readEventsFrom r position
  return { iter }

/-- `read_events_in_range` の反復子の `next`。 -/
def rangeNext (bin : Bincode) (endMs : UInt64) (it : TakeWhile EventIterator) :
    Except (Fault ε) (Option (Except FormatError RecordingEvent) × TakeWhile EventIterator) :=
  it.next (next bin) (withinEnd endMs)

end Checked

end Cassy.Recording
