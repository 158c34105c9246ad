import Cassy.Properties.RecordingRoundTrip
import Cassy.Recording.Checked

/-!
# 壊れた録画は読み手を落とさない

`usize` で計算する読み手は、索引のどの写しの位置も `2 ^ 64 - 5` を越えないかぎり、上限の無い数で計算する読み手と同じである。
開くときの位置と長さは全て検査され、列の長さは `2 ^ 63` に届かないので、開くことは決して落ちない。

写しの位置だけは検査の前に `4` を足される。ここだけが `usize` を越える。
-/

namespace Cassy.Recording

open Infra

variable {bin : Bincode} {ε : Type}

/-- `Vec<u8>` の長さは `isize::MAX` までである。 -/
def Allocated (data : Bytes) : Prop := data.length < 2 ^ 63

/-- 写しの位置に `4` を足しても `usize` に収まる。 -/
def KeyframeEntry.Addressable (kf : KeyframeEntry) : Prop := kf.snapshotOffset.toNat + 4 < 2 ^ 64

instance (kf : KeyframeEntry) : Decidable kf.Addressable := Nat.decLt _ _

namespace Checked

/-! ## 開く -/

theorem fromDecompressed_eq {data : Bytes} (hdata : Allocated data) :
    fromDecompressed bin data = lift (RecordingReader.fromDecompressed bin data) := by
  have hlt : data.length < 2 ^ 63 := hdata
  unfold fromDecompressed RecordingReader.fromDecompressed
  refine ensure_lift_bind fun hmin => ?_
  dsimp only
  rw [usizeSub_of_le (by omega), ok_bind, usizeAdd_of_lt (by omega), ok_bind,
    usizeSlice_of_le (by omega) (by omega), ok_bind]
  refine ensure_lift_bind fun hindex => ?_
  have hheader : ofLe (slice data 0 4) < 2 ^ 32 := ofLe_slice_lt data 0
  rw [usizeSlice_of_le (by omega) (by omega), ok_bind, usizeAdd_of_lt (by omega), ok_bind]
  refine ensure_lift_bind fun hheaderEnd => ?_
  rw [usizeSlice_of_le (by omega) (by omega), ok_bind]
  refine okOr_lift_bind fun header _ => lift_bind_congr fun _ _ => ?_
  rw [usizeAdd_of_lt (by omega), ok_bind]
  refine ensure_lift_bind fun hstart => ?_
  have hlen := ofLe_slice_lt data (ofLe (slice data (data.length - 8) (data.length - 8 + 8)))
  rw [usizeSlice_of_le (by omega) (by omega), ok_bind, usizeAdd_of_lt (by omega), ok_bind]
  refine ensure_lift_bind fun hend => ?_
  rw [usizeSlice_of_le (by omega) (by omega), ok_bind]
  exact okOr_lift_bind fun index _ => rfl

/-! ## 写しと範囲 -/

theorem readSnapshot_eq {r : RecordingReader} (hdata : Allocated r.data) {kf : KeyframeEntry}
    (h : kf.Addressable) : readSnapshot r kf = lift (r.readSnapshot kf) := by
  have hlt : r.data.length < 2 ^ 63 := hdata
  have hlen := ofLe_slice_lt r.data kf.snapshotOffset.toNat
  unfold readSnapshot RecordingReader.readSnapshot
  dsimp only
  rw [usizeAdd_of_lt h, ok_bind]
  refine ensure_lift_bind fun hstart => ?_
  rw [usizeSlice_of_le (by omega) (by omega), ok_bind, usizeAdd_of_lt (by omega), ok_bind]
  refine ensure_lift_bind fun hend => ?_
  exact usizeSlice_of_le (by omega) (by omega)

theorem readSnapshot_panic {r : RecordingReader} {kf : KeyframeEntry} (h : ¬ kf.Addressable) :
    readSnapshot r kf = .error .panic := by
  unfold readSnapshot
  dsimp only
  rw [usizeAdd_of_not_lt h]
  rfl

theorem skipRegion_eq {data : Bytes} (hdata : Allocated data) {kf : KeyframeEntry}
    (h : kf.Addressable) :
    (skipRegion data kf : Except (Fault ε) _) = .ok (RecordingReader.skipRegion data kf) := by
  have hlt : data.length < 2 ^ 63 := hdata
  have hlen := ofLe_slice_lt data kf.snapshotOffset.toNat
  have haddr : kf.snapshotOffset.toNat + 4 < 2 ^ 64 := h
  unfold skipRegion RecordingReader.skipRegion
  dsimp only
  rw [usizeAdd_of_lt h, ok_bind]
  by_cases hfits : kf.snapshotOffset.toNat + 4 ≤ data.length
  · rw [if_pos hfits, if_pos hfits, usizeSlice_of_le (by omega) hfits]
    show (usizeAdd _ _ >>= _) = _
    rw [usizeAdd_of_lt (by omega)]
    rfl
  · rw [if_neg hfits, if_neg hfits, ok_bind, usizeAdd_of_lt (by omega)]
    rfl

theorem skipRegion_panic {data : Bytes} {kf : KeyframeEntry} (h : ¬ kf.Addressable) :
    (skipRegion data kf : Except (Fault ε) _) = .error .panic := by
  unfold skipRegion
  dsimp only
  rw [usizeAdd_of_not_lt h]
  rfl

theorem readEventsFrom_eq {r : RecordingReader} (hdata : Allocated r.data)
    (h : ∀ kf ∈ r.index.entries, kf.Addressable) (position : ReadPosition) :
    (readEventsFrom r position : Except (Fault ε) _) = .ok (r.readEventsFrom position.offset) := by
  unfold readEventsFrom
  rw [mapM_of_forall_ok fun kf hkf => skipRegion_eq hdata (h kf hkf)]
  rfl

theorem readEventsFrom_panic {r : RecordingReader} (hdata : Allocated r.data) {kf : KeyframeEntry}
    (hkf : kf ∈ r.index.entries) (h : ¬ kf.Addressable) (position : ReadPosition) :
    (readEventsFrom r position : Except (Fault ε) _) = .error .panic := by
  have heach : ∀ x ∈ r.index.entries, (skipRegion r.data x : Except (Fault ε) _) = .error .panic
      ∨ ∃ y, (skipRegion r.data x : Except (Fault ε) _) = .ok y := by
    intro x _
    by_cases hx : x.Addressable
    · exact Or.inr ⟨_, skipRegion_eq hdata hx⟩
    · exact Or.inl (skipRegion_panic hx)
  unfold readEventsFrom
  rw [mapM_of_panic heach hkf (skipRegion_panic h)]
  rfl

/-! ## 位置を探す -/

/-- 選ばれるのは索引の keyframe である。 -/
theorem findKeyframe_ok (pp : PartitionPoint) (entries : List KeyframeEntry) (target : UInt64) :
    ∃ kf, (findKeyframe pp entries target : Except (Fault ε) _) = .ok kf := by
  have hle := pp.run_le entries fun e => e.timestampMs ≤ target
  unfold findKeyframe
  dsimp only
  split
  · exact ⟨none, rfl⟩
  · next hne =>
    have hpos : 0 < entries.length := List.length_pos_iff.mpr fun h => hne (by rw [h]; rfl)
    split
    · rw [List.getElem?_eq_getElem hpos]
      exact ⟨some _, rfl⟩
    · next hidx =>
      rw [usizeSub_of_le (Nat.one_le_iff_ne_zero.mpr hidx), ok_bind,
        List.getElem?_eq_getElem (by omega)]
      exact ⟨some _, rfl⟩

theorem seekTo_ok (pp : PartitionPoint) (r : RecordingReader) (timestampMs : UInt64) :
    ∃ position, seekTo pp r timestampMs = .ok position := by
  obtain ⟨kf, hkf⟩ := @findKeyframe_ok FormatError pp r.index.entries
    (clampMs timestampMs r.index.totalDurationMs)
  unfold seekTo
  rw [hkf, ok_bind]
  exact ⟨_, rfl⟩

/-! ## 一つ読む -/

/-- 反復子の読む列は、索引の後ろに続く。 -/
structure Bounded (it : EventIterator) : Prop where
  allocated : Allocated it.data
  endOffset_le : it.endOffset ≤ it.data.length

theorem next_eq {it : EventIterator} (h : Bounded it) :
    (next bin it : Except (Fault ε) _) = .ok (it.next bin) := by
  obtain ⟨hdata, hend⟩ := h
  have hlt : it.data.length < 2 ^ 63 := hdata
  unfold next EventIterator.next
  dsimp only
  generalize it.skip it.skipRegions.length it.offset = offset
  have hlen := ofLe_slice_lt it.data offset
  by_cases hdone : it.endOffset ≤ offset
  · rw [if_pos hdone, if_pos hdone]
  rw [if_neg hdone, if_neg hdone]
  unfold readFrame
  dsimp only
  rw [usizeAdd_of_lt (by omega), ok_bind]
  by_cases hprefix : it.data.length < offset + 4
  · rw [if_pos hprefix, if_pos hprefix]
    rfl
  rw [if_neg hprefix, if_neg hprefix, usizeSlice_of_le (by omega) (by omega), ok_bind,
    usizeAdd_of_lt (by omega), ok_bind]
  by_cases heof : it.data.length < offset + 4 + ofLe (slice it.data offset (offset + 4))
  · rw [if_pos heof, if_pos (Or.inl heof)]
    rfl
  rw [if_neg heof, usizeAdd_of_lt (by omega), ok_bind]
  by_cases hlimit : it.endOffset + 4 < offset + 4 + ofLe (slice it.data offset (offset + 4))
  · rw [if_pos hlimit, if_pos (Or.inr hlimit)]
    rfl
  rw [if_neg hlimit, if_neg (not_or.mpr ⟨heof, hlimit⟩)]
  unfold readEvent
  dsimp only
  rw [usizeSlice_of_le (by omega) (by omega), ok_bind]
  cases bin.decEvent (slice it.data (offset + 4)
    (offset + 4 + ofLe (slice it.data offset (offset + 4)))) <;> rfl

/-- 一つ読んだ後も、読む列は同じである。 -/
theorem next_data (it : EventIterator) :
    (it.next bin).2.data = it.data ∧ (it.next bin).2.endOffset = it.endOffset
      ∧ (it.next bin).2.skipRegions = it.skipRegions := by
  unfold EventIterator.next
  dsimp only
  split
  · exact ⟨rfl, rfl, rfl⟩
  · split
    · exact ⟨rfl, rfl, rfl⟩
    · split
      · exact ⟨rfl, rfl, rfl⟩
      · split <;> exact ⟨rfl, rfl, rfl⟩

theorem Bounded.next {it : EventIterator} (h : Bounded it) : Bounded (it.next bin).2 := by
  obtain ⟨hdata, hend, -⟩ := @next_data bin it
  obtain ⟨h₁, h₂⟩ := h
  exact ⟨by rw [hdata]; exact h₁, by rw [hdata, hend]; exact h₂⟩

end Checked

/-! ## 読み手の検査 -/

/-- 開いた読み手の列は渡した列であり、索引はその中にある。 -/
theorem fromDecompressed_spec {data : Bytes} {r : RecordingReader}
    (h : RecordingReader.fromDecompressed bin data = .ok r) :
    r.data = data ∧ r.indexOffset ≤ data.length := by
  unfold RecordingReader.fromDecompressed at h
  simp only [bind_eq_ok, ensure_eq_ok, okOr_eq_ok, pure_eq_ok] at h
  obtain ⟨-, hmin, -, hindex, -, -, header, -, -, -, -, -, -, -, index, -, rfl⟩ := h
  exact ⟨rfl, by dsimp only; omega⟩

/-- 開いた読み手への、どの呼び出しも落ちない。 -/
structure CrashFree (bin : Bincode) (pp : PartitionPoint) (r : RecordingReader) : Prop where
  seek : ∀ timestampMs, Checked.seekTo pp r timestampMs ≠ .error .panic
  snapshot : ∀ kf ∈ r.index.entries, Checked.readSnapshot r kf ≠ .error .panic
  /-- どの位置からの反復子も作ることができ、何度呼んでも落ちない。 -/
  events : ∀ position, ∃ it, (Checked.readEventsFrom r position : Except (Fault FormatError) _) = .ok it
    ∧ ∀ n, ∃ it', advanceBy (@Checked.next FormatError bin) n it = .ok it'

/-- 開くときの位置は全て検査される。 -/
theorem RecordingReader.bounded {data : Bytes} (hdata : Allocated data) {r : RecordingReader}
    (h : RecordingReader.fromDecompressed bin data = .ok r) (offset : Nat) :
    Checked.Bounded (r.readEventsFrom offset) := by
  obtain ⟨hsame, hindex⟩ := fromDecompressed_spec h
  refine ⟨?_, ?_⟩
  · show Allocated r.data
    rwa [hsame]
  · show r.indexOffset ≤ r.data.length
    rwa [hsame]

/--
どの byte の列を開いても落ちず、開いた読み手が落ちないのは、索引のどの写しの位置も `2 ^ 64 - 5` を越えないときに限る。
-/
theorem damaged_recording_iff (pp : PartitionPoint) {data : Bytes} (hdata : Allocated data) :
    (Checked.fromDecompressed bin data ≠ .error .panic
      ∧ ∀ r, Checked.fromDecompressed bin data = .ok r → CrashFree bin pp r)
    ↔ ∀ r, RecordingReader.fromDecompressed bin data = .ok r →
      ∀ kf ∈ r.index.entries, kf.snapshotOffset.toNat + 4 < 2 ^ 64 := by
  have hopen := @Checked.fromDecompressed_eq bin data hdata
  have hok : ∀ r, Checked.fromDecompressed bin data = .ok r
      ↔ RecordingReader.fromDecompressed bin data = .ok r := by
    intro r
    rw [hopen]
    cases RecordingReader.fromDecompressed bin data with
    | error e => exact ⟨nofun, nofun⟩
    | ok r' => exact ⟨fun h => by cases h; rfl, fun h => by cases h; rfl⟩
  constructor
  · rintro ⟨-, hcrash⟩ r hr kf hkf
    by_contra hfar
    exact (hcrash r ((hok r).mpr hr)).snapshot kf hkf (Checked.readSnapshot_panic hfar)
  · intro hall
    refine ⟨?_, fun r hr => ?_⟩
    · rw [hopen]
      exact lift_ne_panic _
    · have hr := (hok r).mp hr
      have haddr : ∀ kf ∈ r.index.entries, kf.Addressable := hall r hr
      have hrdata : Allocated r.data := by
        rw [(fromDecompressed_spec hr).1]
        exact hdata
      constructor
      · intro timestampMs
        obtain ⟨position, hposition⟩ := Checked.seekTo_ok pp r timestampMs
        rw [hposition]
        exact nofun
      · intro kf hkf
        rw [Checked.readSnapshot_eq hrdata (haddr kf hkf)]
        exact lift_ne_panic _
      · intro position
        refine ⟨_, Checked.readEventsFrom_eq hrdata haddr position, fun n => ?_⟩
        have hstep : ∀ it, Checked.Bounded it → ∃ x, (Checked.next bin it : Except (Fault FormatError) _)
            = .ok x ∧ Checked.Bounded x.2 := fun it hit => ⟨_, Checked.next_eq hit, hit.next⟩
        obtain ⟨it', hit', -⟩ := advanceBy_ne_panic hstep n _ (RecordingReader.bounded hdata hr position.offset)
        exact ⟨it', hit'⟩

/-! ## 索引を付けた列 -/

/-- 列の後ろに、索引とその位置を置く。 -/
def withIndex (bin : Bincode) (pre : Bytes) (index : KeyframeIndex) : Bytes :=
  pre ++ (frame (bin.encIndex index) ++ leBytes 8 pre.length)

/-- header で始まる列は、どんな索引を付けても開ける。 -/
theorem fromDecompressed_withIndex {header : RecordingHeader} {rest : Bytes} {index : KeyframeIndex}
    (hvalid : header.validate = .ok ()) (hheader : (bin.encHeader header).length < 2 ^ 32)
    (hindex : (bin.encIndex index).length < 2 ^ 32)
    (hsize : (withIndex bin (frame (bin.encHeader header) ++ rest) index).length < 2 ^ 64) :
    RecordingReader.fromDecompressed bin (withIndex bin (frame (bin.encHeader header) ++ rest) index)
      = .ok { data := withIndex bin (frame (bin.encHeader header) ++ rest) index, header, index
              eventsStartOffset := 4 + (bin.encHeader header).length
              indexOffset := (frame (bin.encHeader header) ++ rest).length } := by
  generalize hpre : frame (bin.encHeader header) ++ rest = pre at hsize ⊢
  have hlen : (withIndex bin pre index).length = pre.length + (4 + (bin.encIndex index).length) + 8 := by
    rw [withIndex, List.length_append, List.length_append, frame_length, leBytes_length]
    omega
  have hprelen : 4 + (bin.encHeader header).length ≤ pre.length := by
    rw [← hpre, List.length_append, frame_length]
    exact Nat.le_add_right ..
  have htrailer : slice (withIndex bin pre index) ((withIndex bin pre index).length - 8)
      ((withIndex bin pre index).length - 8 + 8) = leBytes 8 pre.length := by
    have hsplit : withIndex bin pre index
        = (pre ++ frame (bin.encIndex index)) ++ (leBytes 8 pre.length ++ []) := by
      rw [withIndex, List.append_nil, List.append_assoc]
    rw [hlen, hsplit]
    refine slice_mid ?_ ?_
    · rw [List.length_append, frame_length, Nat.add_sub_cancel]
    · rw [leBytes_length]
  have hoffset : ofLe (leBytes 8 pre.length) = pre.length :=
    ofLe_leBytes_of_lt (show pre.length < 2 ^ 64 by omega)
  have hindexLen : slice (withIndex bin pre index) pre.length (pre.length + 4)
      = leBytes 4 (bin.encIndex index).length := slice_frame_len rfl
  have hindexData : slice (withIndex bin pre index) (pre.length + 4)
      (pre.length + 4 + (bin.encIndex index).length) = bin.encIndex index := slice_frame_data rfl
  have hfront : withIndex bin pre index = [] ++ (frame (bin.encHeader header)
      ++ (rest ++ (frame (bin.encIndex index) ++ leBytes 8 pre.length))) := by
    rw [withIndex, ← hpre, List.append_assoc]
    rfl
  have hheaderLen : slice (withIndex bin pre index) 0 4 = leBytes 4 (bin.encHeader header).length := by
    rw [hfront]
    exact slice_frame_len rfl
  have hheaderData : slice (withIndex bin pre index) 4 (4 + (bin.encHeader header).length)
      = bin.encHeader header := by
    rw [hfront]
    exact @slice_frame_data [] _ _ 0 rfl
  unfold RecordingReader.fromDecompressed
  rw [ensure_of (by omega), ok_bind]
  dsimp only
  rw [htrailer, hoffset, ensure_of (by omega), ok_bind, hheaderLen, ofLe_frame_len hheader,
    ensure_of (by omega), ok_bind, hheaderData, bin.decHeader_enc header hheader, okOr_some, ok_bind,
    hvalid, ok_bind, ensure_of (by omega), ok_bind, hindexLen, ofLe_frame_len hindex,
    ensure_of (by omega), ok_bind, hindexData, bin.decIndex_enc _ hindex, okOr_some, ok_bind]
  rfl

/-! ## 一つの索引 -/

/-- 前から調べる `partition_point`。 -/
def firstAbove : PartitionPoint where
  run entries p := (entries.takeWhile p).length
  run_le entries p := (List.takeWhile_prefix p).length_le
  run_eq front back p hfront hback := by
    have hstop : back.takeWhile p = [] := by
      cases back with
      | nil => rfl
      | cons e back =>
        refine List.takeWhile_cons_of_neg ?_
        rw [hback e List.mem_cons_self]
        exact Bool.false_ne_true
    rw [List.takeWhile_append_of_pos hfront, hstop, List.append_nil]

/-- 名の無い header。 -/
def plainHeader : RecordingHeader := .new 80 24 startOf2024 "" "" ""

/-- 写しの位置だけを決めた索引。 -/
def indexAt (snapshotOffset : UInt64) : KeyframeIndex where
  entries := [⟨0, 70, snapshotOffset⟩]

/-- 出来事の無い、keyframe が一つだけの列。 -/
def fileAt (snapshotOffset : UInt64) : Bytes :=
  withIndex bincode (frame (bincode.encHeader plainHeader)) (indexAt snapshotOffset)

theorem length_encHeader_plainHeader : (bincode.encHeader plainHeader).length = 66 := by
  show (ByteCodec.recordingHeader.enc plainHeader).length = 66
  rfl

theorem length_encIndex_indexAt (snapshotOffset : UInt64) :
    (bincode.encIndex (indexAt snapshotOffset)).length = 48 := by
  show (ByteCodec.keyframeIndex.enc (indexAt snapshotOffset)).length = 48
  rfl

theorem length_fileAt (snapshotOffset : UInt64) : (fileAt snapshotOffset).length = 130 := by
  rw [fileAt, withIndex, List.length_append, List.length_append, frame_length, frame_length, leBytes_length,
    length_encHeader_plainHeader, length_encIndex_indexAt]

theorem fromDecompressed_fileAt (snapshotOffset : UInt64) :
    ∃ r, RecordingReader.fromDecompressed bincode (fileAt snapshotOffset) = .ok r
      ∧ r.index = indexAt snapshotOffset := by
  have hopen := @fromDecompressed_withIndex bincode plainHeader [] (indexAt snapshotOffset)
    (RecordingHeader.validate_new ..) (by rw [length_encHeader_plainHeader]; decide)
    (by rw [length_encIndex_indexAt]; decide)
    (by
      rw [List.append_nil]
      show (fileAt snapshotOffset).length < 2 ^ 64
      rw [length_fileAt]
      decide)
  rw [List.append_nil] at hopen
  exact ⟨_, hopen, rfl⟩

theorem allocated_fileAt (snapshotOffset : UInt64) : Allocated (fileAt snapshotOffset) := by
  unfold Allocated
  rw [length_fileAt]
  decide

/-- 列の外を指す写しでも、読み手は落ちない。 -/
theorem damaged_recording_iff_outside :
    Checked.fromDecompressed bincode (fileAt 4096) ≠ .error .panic
      ∧ ∀ r, Checked.fromDecompressed bincode (fileAt 4096) = .ok r → CrashFree bincode firstAbove r := by
  refine (damaged_recording_iff firstAbove (allocated_fileAt 4096)).mpr ?_
  intro r hr kf hkf
  obtain ⟨r', hr', hindex⟩ := fromDecompressed_fileAt 4096
  rw [hr'] at hr
  cases hr
  rw [hindex] at hkf
  rw [List.mem_singleton.mp hkf]
  decide

/-- 最後の位置を指す写しでは、読み手が落ちる。 -/
theorem last_offset_crashes :
    ¬ (Checked.fromDecompressed bincode (fileAt 18446744073709551615) ≠ .error .panic
      ∧ ∀ r, Checked.fromDecompressed bincode (fileAt 18446744073709551615) = .ok r →
        CrashFree bincode firstAbove r) := by
  rintro ⟨-, hcrash⟩
  obtain ⟨r, hr, hindex⟩ := fromDecompressed_fileAt 18446744073709551615
  have hchecked : Checked.fromDecompressed bincode (fileAt 18446744073709551615) = .ok r := by
    rw [Checked.fromDecompressed_eq (allocated_fileAt _), hr]
    rfl
  refine (hcrash r hchecked).snapshot ⟨0, 70, 18446744073709551615⟩ ?_ (Checked.readSnapshot_panic ?_)
  · rw [hindex]
    exact List.mem_singleton_self _
  · show ¬ _ < _
    decide

end Cassy.Recording
