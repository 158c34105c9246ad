import Cassy.Recording.Format

/-!
# 録画を読む

`cas-recording/reader.rs`。展開した列の末尾から索引の位置を読み、header と索引を読む。出来事は先頭から一つずつ読まれ、
keyframe の写しは出来事の間に裸で挟まっている。読み手は索引に書かれた位置で、それを飛ばす。
-/

namespace Cassy.Recording

open Infra

/-- `RecordingReader`。 -/
structure RecordingReader where
  data : Bytes
  header : RecordingHeader
  index : KeyframeIndex
  eventsStartOffset : Nat
  indexOffset : Nat

/-- `EventIterator`。 -/
structure EventIterator where
  data : Bytes
  offset : Nat
  endOffset : Nat
  skipRegions : List (Nat × Nat)

namespace RecordingReader

/-- `RecordingReader::from_decompressed`。 -/
def fromDecompressed (bin : Bincode) (data : Bytes) : Except FormatError RecordingReader := do
  ensure (12 ≤ data.length) .unexpectedEof
  let indexOffsetPos := data.length - 8
  let indexOffset := ofLe (slice data indexOffsetPos (indexOffsetPos + 8))
  ensure (indexOffset < indexOffsetPos) .corruptedIndex
  let headerLen := ofLe (slice data 0 4)
  ensure (4 + headerLen ≤ data.length) .unexpectedEof
  let header ← okOr (bin.decHeader (slice data 4 (4 + headerLen))) .bincode
  header.validate
  ensure (indexOffset + 4 ≤ indexOffsetPos) .corruptedIndex
  let indexLen := ofLe (slice data indexOffset (indexOffset + 4))
  ensure (indexOffset + 4 + indexLen ≤ indexOffsetPos) .corruptedIndex
  let index ← okOr (bin.decIndex (slice data (indexOffset + 4) (indexOffset + 4 + indexLen))) .bincode
  return { data, header, index, eventsStartOffset := 4 + headerLen, indexOffset }

/-- `RecordingReader::open`。 -/
def openFile (bin : Bincode) (zstd : Zstd) (file : Bytes) : Except FormatError RecordingReader := do
  let data ← okOr (zstd.decompress file) .io
  fromDecompressed bin data

/-- `into_resume_parts`。 -/
def intoResumeParts (r : RecordingReader) : Bytes × RecordingHeader × KeyframeIndex :=
  (r.data.take r.indexOffset, r.header, r.index)

/-- `read_snapshot`。 -/
def readSnapshot (r : RecordingReader) (keyframe : KeyframeEntry) : Except FormatError Bytes := do
  let offset := keyframe.snapshotOffset.toNat
  ensure (offset + 4 ≤ r.data.length) .unexpectedEof
  let snapshotLen := ofLe (slice r.data offset (offset + 4))
  ensure (offset + 4 + snapshotLen ≤ r.data.length) .unexpectedEof
  return slice r.data (offset + 4) (offset + 4 + snapshotLen)

/-- 一つの keyframe の、飛ばす範囲。 -/
def skipRegion (data : Bytes) (kf : KeyframeEntry) : Nat × Nat :=
  let start := kf.snapshotOffset.toNat
  let len := if start + 4 ≤ data.length then ofLe (slice data start (start + 4)) else 0
  (start, start + 4 + len)

/-- `read_events_from`。 -/
def readEventsFrom (r : RecordingReader) (offset : Nat) : EventIterator where
  data := r.data
  offset := offset
  endOffset := r.indexOffset
  skipRegions := r.index.entries.map (skipRegion r.data)

/-- `read_all_events`。 -/
def readAllEvents (r : RecordingReader) : EventIterator := r.readEventsFrom r.eventsStartOffset

end RecordingReader

namespace EventIterator

/-- `in_skip_region`。 -/
def inSkipRegion (it : EventIterator) (offset : Nat) : Option Nat :=
  (it.skipRegions.find? fun x => x.1 ≤ offset && offset < x.2).map (·.2)

/-- 範囲を飛ばす。一つの範囲を飛ばすのは高々一度なので、範囲の数だけ繰り返せば足りる。 -/
def skip (it : EventIterator) : Nat → Nat → Nat
  | 0, offset => offset
  | fuel + 1, offset =>
    match it.inSkipRegion offset with
    | none => offset
    | some skipEnd => it.skip fuel skipEnd

/-- `EventIterator::next`。 -/
def next (bin : Bincode) (it : EventIterator) :
    Option (Except FormatError RecordingEvent) × EventIterator :=
  let offset := it.skip it.skipRegions.length it.offset
  let it := { it with offset }
  if it.endOffset ≤ offset then (none, it)
  else if it.data.length < offset + 4 then (some (.error .unexpectedEof), it)
  else
    let eventStart := offset + 4
    let eventEnd := eventStart + ofLe (slice it.data offset (offset + 4))
    if it.data.length < eventEnd ∨ it.endOffset + 4 < eventEnd then (some (.error .unexpectedEof), it)
    else
      match bin.decEvent (slice it.data eventStart eventEnd) with
      | none => (some (.error .bincode), it)
      | some e => (some (.ok e), { it with offset := eventEnd })

/-- 終わりまで読む。どの一つも誤りでなく、読めたのが `events` である。 -/
inductive Yields (bin : Bincode) : EventIterator → List RecordingEvent → Prop where
  | done (it it') (h : it.next bin = (none, it')) : Yields bin it []
  | more (it it' e events) (h : it.next bin = (some (.ok e), it')) (hrest : Yields bin it' events) :
    Yields bin it (e :: events)

end EventIterator

/-! ## 録画と、その続き -/

/-- `RecordingWriter::new` から `close` まで。 -/
def record (bin : Bincode) (zstd : Zstd) (level : Int) (header : RecordingHeader)
    (calls : List RecordCall) : Bytes :=
  zstd.compress level (backgroundWriter bin header none (calls.filterMap RecordCall.command))

/-- `RecordingWriter::resume` から `close` まで。圧縮の度合いは既定のものである。 -/
def resume (bin : Bincode) (zstd : Zstd) (file : Bytes) (calls : List RecordCall) :
    Except FormatError Bytes := do
  let reader ← RecordingReader.openFile bin zstd file
  let (pre, header, index) := reader.intoResumeParts
  return zstd.compress 3
    (backgroundWriter bin header (some (pre, index)) (calls.filterMap RecordCall.command))

/-- 録画と、いくつもの続き。 -/
def recordSessions (bin : Bincode) (zstd : Zstd) (level : Int) (header : RecordingHeader)
    (first : List RecordCall) (rest : List (List RecordCall)) : Except FormatError Bytes :=
  rest.foldlM (resume bin zstd) (record bin zstd level header first)

end Cassy.Recording
