import Cassy.Recording.Reader

/-!
# 録画の並び

書き手が命令の列から作る byte の列を、位置の関数として書き下す。位置 `p` から書かれた命令は、keyframe なら写しの塊を
先に、出来事の塊を後に置く。書き手の `current_offset` はいつもこの並びの位置に等しい。
-/

namespace Cassy.Recording

open Infra

/-! ## 一つの命令 -/

namespace WriteCommand

/-- 位置 `p` に書かれた命令の出来事。 -/
def eventAt (p : Nat) : WriteCommand → RecordingEvent
  | event e => e
  | keyframe t snapshot => .keyframe t (UInt64.ofNat p) (UInt32.ofNat snapshot.length)

/-- 出来事の前に置く写し。 -/
def snapshotBytes : WriteCommand → Bytes
  | event _ => []
  | keyframe _ snapshot => frame snapshot

/-- 出来事の位置。 -/
def start (p : Nat) (c : WriteCommand) : Nat := p + c.snapshotBytes.length

/-- 書かれる byte。 -/
def bytes (bin : Bincode) (p : Nat) (c : WriteCommand) : Bytes :=
  c.snapshotBytes ++ frame (bin.encEvent (c.eventAt p))

/-- 次の命令の位置。 -/
def next (bin : Bincode) (p : Nat) (c : WriteCommand) : Nat := p + (c.bytes bin p).length

/-- 索引に足すもの。 -/
def entries (p : Nat) : WriteCommand → List KeyframeEntry
  | event _ => []
  | keyframe t snapshot => [⟨t, UInt64.ofNat (p + (frame snapshot).length), UInt64.ofNat p⟩]

/-- 飛ばす範囲。 -/
def regions (p : Nat) : WriteCommand → List (Nat × Nat)
  | event _ => []
  | keyframe _ snapshot => [(p, p + (frame snapshot).length)]

/-- 命令の時刻。 -/
def timestampMs : WriteCommand → UInt64
  | event e => e.timestampMs
  | keyframe t _ => t

def isKeyframe : WriteCommand → Bool
  | event _ => false
  | keyframe .. => true

/-- 書かれる塊はどれも長さを `u32` で書ける。 -/
def Fits (bin : Bincode) : WriteCommand → Prop
  | event e => (bin.encEvent e).length < 2 ^ 32
  | keyframe t snapshot => snapshot.length < 2 ^ 32
    ∧ ∀ p, (bin.encEvent (.keyframe t p (UInt32.ofNat snapshot.length))).length < 2 ^ 32

theorem Fits.event {bin : Bincode} {c : WriteCommand} (h : c.Fits bin) (p : Nat) :
    (bin.encEvent (c.eventAt p)).length < 2 ^ 32 := by
  cases c with
  | event e => exact h
  | keyframe t snapshot => exact h.2 _

theorem next_eq (bin : Bincode) (p : Nat) (c : WriteCommand) :
    c.next bin p = c.start p + (4 + (bin.encEvent (c.eventAt p)).length) := by
  unfold next start bytes
  rw [List.length_append, frame_length, Nat.add_assoc]

end WriteCommand

/-! ## 命令の列 -/

section Layout

variable (bin : Bincode)

/-- 位置 `p` から書かれた byte。 -/
def body : Nat → List WriteCommand → Bytes
  | _, [] => []
  | p, c :: cs => c.bytes bin p ++ body (c.next bin p) cs

/-- その出来事。 -/
def eventsAt : Nat → List WriteCommand → List RecordingEvent
  | _, [] => []
  | p, c :: cs => c.eventAt p :: eventsAt (c.next bin p) cs

/-- その索引。 -/
def entriesAt : Nat → List WriteCommand → List KeyframeEntry
  | _, [] => []
  | p, c :: cs => c.entries p ++ entriesAt (c.next bin p) cs

/-- その飛ばす範囲。 -/
def regionsAt : Nat → List WriteCommand → List (Nat × Nat)
  | _, [] => []
  | p, c :: cs => c.regions p ++ regionsAt (c.next bin p) cs

/-- 書き終えた位置。 -/
def endAt (p : Nat) (cs : List WriteCommand) : Nat := p + (body bin p cs).length

/-- 最後の命令の時刻。 -/
def lastTime (cs : List WriteCommand) : UInt64 := (cs.getLast?.map WriteCommand.timestampMs).getD 0

end Layout

section Append

variable {bin : Bincode}

theorem endAt_cons (p : Nat) (c : WriteCommand) (cs : List WriteCommand) :
    endAt bin p (c :: cs) = endAt bin (c.next bin p) cs := by
  unfold endAt
  rw [body, List.length_append, ← Nat.add_assoc]
  rfl

theorem body_append : ∀ (cs ds : List WriteCommand) (p : Nat),
    body bin p (cs ++ ds) = body bin p cs ++ body bin (endAt bin p cs) ds
  | [], _, _ => rfl
  | c :: cs, ds, p => by
    rw [List.cons_append, body, body, body_append, endAt_cons, List.append_assoc]

theorem eventsAt_append : ∀ (cs ds : List WriteCommand) (p : Nat),
    eventsAt bin p (cs ++ ds) = eventsAt bin p cs ++ eventsAt bin (endAt bin p cs) ds
  | [], _, _ => rfl
  | c :: cs, ds, p => by
    rw [List.cons_append, eventsAt, eventsAt, eventsAt_append, endAt_cons, List.cons_append]

theorem entriesAt_append : ∀ (cs ds : List WriteCommand) (p : Nat),
    entriesAt bin p (cs ++ ds) = entriesAt bin p cs ++ entriesAt bin (endAt bin p cs) ds
  | [], _, _ => rfl
  | c :: cs, ds, p => by
    rw [List.cons_append, entriesAt, entriesAt, entriesAt_append, endAt_cons, List.append_assoc]

theorem regionsAt_append : ∀ (cs ds : List WriteCommand) (p : Nat),
    regionsAt bin p (cs ++ ds) = regionsAt bin p cs ++ regionsAt bin (endAt bin p cs) ds
  | [], _, _ => rfl
  | c :: cs, ds, p => by
    rw [List.cons_append, regionsAt, regionsAt, regionsAt_append, endAt_cons, List.append_assoc]

theorem eventsAt_length : ∀ (cs : List WriteCommand) (p : Nat), (eventsAt bin p cs).length = cs.length
  | [], _ => rfl
  | c :: cs, p => congrArg Nat.succ (eventsAt_length cs (c.next bin p))

theorem entriesAt_length : ∀ (cs : List WriteCommand) (p : Nat),
    (entriesAt bin p cs).length = cs.countP WriteCommand.isKeyframe
  | [], _ => rfl
  | c :: cs, p => by
    rw [entriesAt, List.length_append, entriesAt_length, List.countP_cons, Nat.add_comm]
    cases c <;> rfl

/-- 命令の数は、書かれた byte の数を越えない。 -/
theorem length_le_body : ∀ (cs : List WriteCommand) (p : Nat), cs.length ≤ (body bin p cs).length
  | [], _ => Nat.le_refl 0
  | c :: cs, p => by
    have ih := length_le_body cs (c.next bin p)
    have hc : 4 ≤ (c.bytes bin p).length := by
      unfold WriteCommand.bytes
      rw [List.length_append, frame_length]
      omega
    rw [body, List.length_append, List.length_cons]
    omega

/-- 飛ばす範囲は、書き始めより後、書き終わりより前にある。 -/
theorem mem_regionsAt {r : Nat × Nat} : ∀ {cs : List WriteCommand} {p : Nat}, r ∈ regionsAt bin p cs →
    p ≤ r.1 ∧ r.2 ≤ endAt bin p cs
  | [], _, h => absurd h List.not_mem_nil
  | c :: cs, p, h => by
    have hend : c.next bin p ≤ endAt bin p (c :: cs) := by
      rw [endAt_cons]
      exact Nat.le_add_right ..
    rcases List.mem_append.mp h with h | h
    · cases c with
      | event e => cases h
      | keyframe t snapshot =>
        rw [List.mem_singleton.mp h]
        refine ⟨Nat.le_refl p, Nat.le_trans ?_ hend⟩
        rw [WriteCommand.next_eq]
        exact Nat.le_add_right ..
    · obtain ⟨hlo, hhi⟩ := mem_regionsAt h
      rw [endAt_cons]
      exact ⟨Nat.le_trans (Nat.le_add_right ..) hlo, hhi⟩

end Append

/-! ## 書き手 -/

section Writer

variable (bin : Bincode) (header : RecordingHeader)

/-- 最初の命令の位置。 -/
def base : Nat := (frame (bin.encHeader header)).length

/-- 書き終えた索引。 -/
def indexOf (cs : List WriteCommand) : KeyframeIndex where
  entries := entriesAt bin (base bin header) cs
  totalDurationMs := lastTime cs
  totalEvents := UInt64.ofNat cs.length

/-- 索引の前までの byte。 -/
def writtenOf (cs : List WriteCommand) : Bytes :=
  frame (bin.encHeader header) ++ body bin (base bin header) cs

/-- 展開した file の byte。 -/
def fileOf (cs : List WriteCommand) : Bytes :=
  writtenOf bin header cs
    ++ (frame (bin.encIndex (indexOf bin header cs)) ++ leBytes 8 (writtenOf bin header cs).length)

/-- 索引の長さを `u32` で、位置を `u64` で書ける。 -/
def FileFits (cs : List WriteCommand) : Prop :=
  (bin.encIndex (indexOf bin header cs)).length < 2 ^ 32 ∧ (fileOf bin header cs).length < 2 ^ 64

/-- 書き手の変数は、並びの位置にある。 -/
structure Wrote (cs : List WriteCommand) (s : WriterState) : Prop where
  written : s.written = writtenOf bin header cs
  currentOffset : s.currentOffset = (writtenOf bin header cs).length
  entries : s.keyframeIndex.entries = entriesAt bin (base bin header) cs
  eventCount : s.eventCount = cs.length
  lastTimestampMs : s.lastTimestampMs = lastTime cs

variable {bin header}

theorem writtenOf_length (cs : List WriteCommand) :
    (writtenOf bin header cs).length = endAt bin (base bin header) cs := by
  unfold writtenOf endAt base
  rw [List.length_append]

theorem Wrote.create : Wrote bin header [] (.create bin header) where
  written := (List.append_nil _).symm
  currentOffset := by
    unfold writtenOf body
    rw [List.append_nil, frame_length]
    rfl
  entries := rfl
  eventCount := rfl
  lastTimestampMs := rfl

theorem lastTime_concat (cs : List WriteCommand) (c : WriteCommand) :
    lastTime (cs ++ [c]) = c.timestampMs := by
  unfold lastTime
  rw [List.getLast?_concat]
  rfl

/-- 一つの命令の後も、並びの位置にある。 -/
theorem Wrote.command {cs : List WriteCommand} {s : WriterState} (h : Wrote bin header cs s)
    (c : WriteCommand) : Wrote bin header (cs ++ [c]) (s.command bin c) := by
  have hoffset : s.currentOffset = endAt bin (base bin header) cs :=
    h.currentOffset.trans (writtenOf_length cs)
  have hbody : writtenOf bin header (cs ++ [c])
      = writtenOf bin header cs ++ c.bytes bin (endAt bin (base bin header) cs) := by
    unfold writtenOf
    rw [body_append, body, body, List.append_nil, List.append_assoc]
  have hentries : entriesAt bin (base bin header) (cs ++ [c])
      = entriesAt bin (base bin header) cs ++ c.entries (endAt bin (base bin header) cs) := by
    rw [entriesAt_append, entriesAt, entriesAt, List.append_nil]
  have hlength : (cs ++ [c]).length = cs.length + 1 := by
    rw [List.length_append, List.length_singleton]
  cases c with
  | event e =>
    constructor
    · show s.written ++ frame (bin.encEvent e) = _
      rw [h.written, hbody]
      rfl
    · show s.currentOffset + (4 + (bin.encEvent e).length) = _
      rw [hbody, List.length_append, h.currentOffset]
      show _ = _ + (frame (bin.encEvent e)).length
      rw [frame_length]
    · show s.keyframeIndex.entries = _
      rw [hentries, h.entries]
      exact (List.append_nil _).symm
    · show s.eventCount + 1 = _
      rw [h.eventCount, hlength]
    · rw [lastTime_concat]
      rfl
  | keyframe t snapshot =>
    constructor
    · show s.written ++ (frame snapshot ++ frame (bin.encEvent (.keyframe t _ _))) = _
      rw [h.written, hbody, hoffset]
      rfl
    · show s.currentOffset + (4 + snapshot.length) + (4 + (bin.encEvent (.keyframe t _ _)).length) = _
      rw [hbody, List.length_append, ← h.currentOffset, hoffset]
      show _ = _ + (frame snapshot ++ frame (bin.encEvent (.keyframe t _ _))).length
      rw [List.length_append, frame_length, frame_length, Nat.add_assoc]
    · show s.keyframeIndex.entries ++ [⟨t, UInt64.ofNat _, UInt64.ofNat _⟩] = _
      rw [hentries, h.entries, hoffset]
      dsimp only [WriteCommand.entries]
      rw [frame_length]
    · show s.eventCount + 1 = _
      rw [h.eventCount, hlength]
    · rw [lastTime_concat]
      rfl

/-- 命令の列の後も、並びの位置にある。 -/
theorem Wrote.commands : ∀ {ds cs : List WriteCommand} {s : WriterState}, Wrote bin header cs s →
    Wrote bin header (cs ++ ds) (ds.foldl (WriterState.command bin) s)
  | [], cs, s, h => by
    rw [List.append_nil]
    exact h
  | d :: ds, cs, s, h => by
    have hrest : Wrote bin header ((cs ++ [d]) ++ ds) _ := (h.command d).commands
    rw [List.append_assoc] at hrest
    exact hrest

theorem Wrote.finish {cs : List WriteCommand} {s : WriterState} (h : Wrote bin header cs s) :
    s.finish bin = fileOf bin header cs := by
  have hindex : s.finalIndex = indexOf bin header cs := by
    unfold WriterState.finalIndex indexOf
    dsimp only
    rw [h.entries, h.eventCount, h.lastTimestampMs]
  unfold WriterState.finish fileOf
  rw [h.written, h.currentOffset, hindex]

end Writer

end Cassy.Recording
