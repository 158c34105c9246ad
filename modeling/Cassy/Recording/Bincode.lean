import Cassy.Recording.Reader
import Cassy.Store.DateText

/-!
# bincode の符号

`bincode` の既定の符号。数は幅の決まった little endian、列と文字列は `u64` の長さを先に書き、enum は変種の番号を `u32` で
先に書く。struct は欄をこの順に並べる。時刻は serde の文字列で、時刻でない文字列は読まない。
-/

namespace Cassy.Recording

open Infra

namespace ByteCodec

open Infra.ByteCodec

/-- `DateTime<Utc>`。 -/
def dateTime : ByteCodec DateTime :=
  bytes.map DateTime.serdeText DateTime.parse fun _ => DateTime.parse_eq_some_iff.mpr rfl

/-- `RecordingHeader` の、`agent_role` より前の欄。 -/
def headerFront : ByteCodec
    (List.Vector UInt8 8 × UInt16 × UInt16 × UInt16 × DateTime × String × String) :=
  (array 8).pair (uint16.pair (uint16.pair (uint16.pair (dateTime.pair (string.pair string)))))

def recordingHeader : ByteCodec RecordingHeader :=
  (headerFront.pair string).map
    (fun h => ((h.magic, h.version, h.cols, h.rows, h.createdAt, h.agentName, h.sessionId), h.agentRole))
    (fun ((magic, version, cols, rows, createdAt, agentName, sessionId), agentRole) =>
      some { magic, version, cols, rows, createdAt, agentName, sessionId, agentRole })
    fun _ => rfl

def output : ByteCodec (UInt64 × Bytes) := uint64.pair bytes

def resize : ByteCodec (UInt64 × UInt16 × UInt16) := uint64.pair (uint16.pair uint16)

def keyframe : ByteCodec (UInt64 × UInt64 × UInt32) := uint64.pair (uint64.pair uint32)

/-- 変種の番号に続けて、その欄を書く。 -/
def recordingEvent : ByteCodec RecordingEvent where
  enc
    | .output t data => uint32.enc 0 ++ output.enc (t, data)
    | .resize t cols rows => uint32.enc 1 ++ resize.enc (t, cols, rows)
    | .keyframe t offset size => uint32.enc 2 ++ keyframe.enc (t, offset, size)
  dec bs := (uint32.dec bs).bind fun (tag, bs) =>
    match tag.toNat with
    | 0 => (output.dec bs).map fun ((t, data), bs) => (.output t data, bs)
    | 1 => (resize.dec bs).map fun ((t, cols, rows), bs) => (.resize t cols rows, bs)
    | 2 => (keyframe.dec bs).map fun ((t, offset, size), bs) => (.keyframe t offset size, bs)
    | _ => none
  dec_enc e rest h := by
    cases e with
    | output t data =>
      rw [List.length_append] at h
      rw [List.append_assoc, uint32.dec_enc 0 _ (by decide), Option.bind_some]
      show Option.map _ _ = _
      rw [output.dec_enc (t, data) rest (Nat.lt_of_le_of_lt (Nat.le_add_left ..) h)]
      rfl
    | resize t cols rows =>
      rw [List.length_append] at h
      rw [List.append_assoc, uint32.dec_enc 1 _ (by decide), Option.bind_some]
      show Option.map _ _ = _
      rw [resize.dec_enc (t, cols, rows) rest (Nat.lt_of_le_of_lt (Nat.le_add_left ..) h)]
      rfl
    | keyframe t offset size =>
      rw [List.length_append] at h
      rw [List.append_assoc, uint32.dec_enc 2 _ (by decide), Option.bind_some]
      show Option.map _ _ = _
      rw [keyframe.dec_enc (t, offset, size) rest (Nat.lt_of_le_of_lt (Nat.le_add_left ..) h)]
      rfl

def keyframeEntry : ByteCodec KeyframeEntry :=
  (uint64.pair (uint64.pair uint64)).map (fun e => (e.timestampMs, e.eventOffset, e.snapshotOffset))
    (fun (timestampMs, eventOffset, snapshotOffset) => some { timestampMs, eventOffset, snapshotOffset })
    fun _ => rfl

def keyframeIndex : ByteCodec KeyframeIndex :=
  ((keyframeEntry.list fun e => by
      show 0 < (leBytes 8 _ ++ _).length
      rw [List.length_append, leBytes_length]
      exact Nat.add_pos_left (by decide) _).pair (uint64.pair uint64)).map
    (fun i => (i.entries, i.totalDurationMs, i.totalEvents))
    (fun (entries, totalDurationMs, totalEvents) => some { entries, totalDurationMs, totalEvents })
    fun _ => rfl

end ByteCodec

/-- 余りがあっても構わずに読む。 -/
theorem map_fst_dec_enc {α : Type} (c : ByteCodec α) {a : α} (h : (c.enc a).length < 2 ^ 64) :
    (c.dec (c.enc a)).map Prod.fst = some a := by
  have hdec := c.dec_enc a [] h
  rw [List.append_nil] at hdec
  rw [hdec]
  rfl

/-- `bincode::serialize` と `bincode::deserialize`。 -/
def bincode : Bincode where
  encHeader := ByteCodec.recordingHeader.enc
  decHeader bs := (ByteCodec.recordingHeader.dec bs).map Prod.fst
  encEvent := ByteCodec.recordingEvent.enc
  decEvent bs := (ByteCodec.recordingEvent.dec bs).map Prod.fst
  encIndex := ByteCodec.keyframeIndex.enc
  decIndex bs := (ByteCodec.keyframeIndex.dec bs).map Prod.fst
  decHeader_enc _ h := map_fst_dec_enc ByteCodec.recordingHeader (Nat.lt_trans h (by decide))
  decEvent_enc _ h := map_fst_dec_enc ByteCodec.recordingEvent (Nat.lt_trans h (by decide))
  decIndex_enc _ h := map_fst_dec_enc ByteCodec.keyframeIndex (Nat.lt_trans h (by decide))

theorem bincode_encHeader (h : RecordingHeader) :
    bincode.encHeader h = ByteCodec.recordingHeader.enc h := rfl

theorem bincode_decHeader (bs : Bytes) :
    bincode.decHeader bs = (ByteCodec.recordingHeader.dec bs).map Prod.fst := rfl

/-- 詰めない圧縮。 -/
def stored : Zstd where
  compress _ data := data
  decompress := some
  decompress_compress _ _ := rfl

end Cassy.Recording
