import Cassy.Properties.ReaderFaults

/-!
# 壊れた録画の反復は終わるか

`next` は誤りを返すときに位置を進めない。次の `next` は同じ位置で同じ誤りを返し、それがいつまでも続く。だから反復が終わる
のは、誤りに行き当たらないとき、すなわち読み始めの位置から索引まで、切れずに読める塊が続くときに限る。

`read_events_in_range` は時刻が終わりを過ぎた出来事で止まるので、塊はそこまで続けばよい。
-/

namespace Cassy.Recording

open Infra

variable {bin : Bincode}
variable {it : EventIterator}

/-! ## 塊の続き -/

/-- 飛ばす範囲を越えた位置。 -/
def EventIterator.landing (it : EventIterator) (offset : Nat) : Nat :=
  it.skip it.skipRegions.length offset

/-- 位置 `o` に、`n` までの読める塊がある。 -/
structure FrameAt (bin : Bincode) (it : EventIterator) (o : Nat) (e : RecordingEvent) (n : Nat) :
    Prop where
  before_index : o < it.endOffset
  stop : n = o + 4 + ofLe (slice it.data o (o + 4))
  inside : n ≤ it.data.length
  limit : n ≤ it.endOffset + 4
  decodes : bin.decEvent (slice it.data (o + 4) n) = some e

/-- 位置 `o` から索引まで、または `past` の出来事まで、読める塊が続く。 -/
inductive Whole (bin : Bincode) (it : EventIterator) (past : RecordingEvent → Prop) : Nat → Prop where
  | index {o : Nat} (h : it.endOffset ≤ it.landing o) : Whole bin it past o
  | past {o n : Nat} {e : RecordingEvent} (h : FrameAt bin it (it.landing o) e n) (hpast : past e) :
    Whole bin it past o
  | frame {o n : Nat} {e : RecordingEvent} (h : FrameAt bin it (it.landing o) e n)
    (hrest : Whole bin it past n) : Whole bin it past o

/-- 終わりがあり、誤りは最後に高々一つである。 -/
def EndsOnce {σ : Type} (next : σ → Except (Fault FormatError)
    (Option (Except FormatError RecordingEvent) × σ)) (s : σ) : Prop :=
  ∃ items, Iterates next s items ∧ ∀ x ∈ items.dropLast, ∃ e, x = .ok e

/-! ## 一歩 -/

theorem EventIterator.landing_landing (it : EventIterator) (offset : Nat) :
    it.landing (it.landing offset) = it.landing offset :=
  EventIterator.skip_of_none (it.inSkipRegion_skip offset) _

/-- 飛ばす先は、範囲だけで決まる。 -/
theorem EventIterator.skip_at (it : EventIterator) (x fuel o : Nat) :
    EventIterator.skip { it with offset := x } fuel o = it.skip fuel o := by
  induction fuel generalizing o with
  | zero => rfl
  | succ fuel ih =>
    rw [EventIterator.skip, EventIterator.skip,
      show EventIterator.inSkipRegion { it with offset := x } o = it.inSkipRegion o from rfl]
    cases it.inSkipRegion o with
    | none => rfl
    | some skipEnd => exact ih skipEnd

/-- 位置 `o` からの `next` は、索引に着くか、塊を読むか、誤りを返して位置を進めない。 -/
theorem EventIterator.next_cases (bin : Bincode) (it : EventIterator) (o : Nat) :
    (it.endOffset ≤ it.landing o
      ∧ ({ it with offset := o } : EventIterator).next bin = (none, { it with offset := it.landing o }))
    ∨ (∃ e n, FrameAt bin it (it.landing o) e n
      ∧ ({ it with offset := o } : EventIterator).next bin = (some (.ok e), { it with offset := n }))
    ∨ ((∀ e n, ¬ FrameAt bin it (it.landing o) e n) ∧ ¬ it.endOffset ≤ it.landing o
      ∧ ∃ err, ({ it with offset := o } : EventIterator).next bin
        = (some (.error err), { it with offset := it.landing o })) := by
  unfold EventIterator.next
  dsimp only
  rw [it.skip_at o, show it.skip it.skipRegions.length o = it.landing o from rfl]
  generalize it.landing o = o
  by_cases hindex : it.endOffset ≤ o
  · exact Or.inl ⟨hindex, if_pos hindex⟩
  right
  rw [if_neg hindex]
  by_cases hshort : it.data.length < o + 4
  · right
    refine ⟨fun e n hframe => ?_, hindex, _, if_pos hshort⟩
    have hstop := hframe.stop
    have hinside := hframe.inside
    omega
  rw [if_neg hshort]
  by_cases hcut : it.data.length < o + 4 + ofLe (slice it.data o (o + 4))
      ∨ it.endOffset + 4 < o + 4 + ofLe (slice it.data o (o + 4))
  · right
    refine ⟨fun e n hframe => ?_, hindex, _, if_pos hcut⟩
    have hstop := hframe.stop
    have hinside := hframe.inside
    have hlimit := hframe.limit
    omega
  rw [if_neg hcut]
  rw [not_or, Nat.not_lt, Nat.not_lt] at hcut
  cases hdec : bin.decEvent (slice it.data (o + 4) (o + 4 + ofLe (slice it.data o (o + 4)))) with
  | none =>
    right
    refine ⟨fun e n hframe => ?_, hindex, _, rfl⟩
    have hdecodes := hframe.decodes
    rw [hframe.stop, hdec] at hdecodes
    cases hdecodes
  | some e => exact Or.inl ⟨e, _, ⟨Nat.lt_of_not_le hindex, rfl, hcut.1, hcut.2, hdec⟩, rfl⟩

/-- 誤りを返した反復子は、同じ誤りを返し続ける。 -/
theorem EventIterator.next_of_error {o : Nat} {err : FormatError}
    (h : ({ it with offset := o } : EventIterator).next bin
      = (some (.error err), { it with offset := it.landing o })) :
    ({ it with offset := it.landing o } : EventIterator).next bin
      = (some (.error err), { it with offset := it.landing o }) := by
  rw [← h]
  unfold EventIterator.next
  dsimp only
  rw [it.skip_at (it.landing o), it.skip_at o, show it.skip it.skipRegions.length (it.landing o)
    = it.skip it.skipRegions.length o from it.landing_landing o]

/-- 塊があれば、それが読まれる。 -/
theorem FrameAt.next_eq {o n : Nat} {e : RecordingEvent} (h : FrameAt bin it (it.landing o) e n) :
    ({ it with offset := o } : EventIterator).next bin = (some (.ok e), { it with offset := n }) := by
  rcases it.next_cases bin o with ⟨hindex, -⟩ | ⟨e', n', h', hok⟩ | ⟨hnone, -⟩
  · exact absurd h.before_index (Nat.not_lt.mpr hindex)
  · obtain rfl : n = n' := h.stop.trans h'.stop.symm
    obtain rfl : e = e' := Option.some.inj (h.decodes.symm.trans h'.decodes)
    exact hok
  · exact absurd h (hnone e n)

/-! ## 反復 -/

section Range

variable {p : Except FormatError RecordingEvent → Bool} {past : RecordingEvent → Prop}
  {it : EventIterator}

theorem Checked.Bounded.at {it : EventIterator} (h : Checked.Bounded it) (o : Nat) :
    Checked.Bounded { it with offset := o } := ⟨h.allocated, h.endOffset_le⟩

/-- 塊が続けば、誤りの無い反復が終わる。 -/
theorem Whole.ends (h : Checked.Bounded it) (hpast : ∀ e, past e ↔ p (.ok e) = false) {o : Nat}
    (hwhole : Whole bin it past o) :
    ∃ events : List RecordingEvent,
      Iterates (TakeWhile.next (@Checked.next FormatError bin) p)
        ⟨{ it with offset := o }, false⟩ (events.map .ok) := by
  have hnext : ∀ o, (Checked.next bin { it with offset := o } : Except (Fault FormatError) _)
      = .ok (({ it with offset := o } : EventIterator).next bin) := fun o => Checked.next_eq (h.at o)
  induction hwhole with
  | @index o hindex =>
    rcases it.next_cases bin o with ⟨-, hnone⟩ | ⟨e, n, hframe, -⟩ | ⟨-, hnot, -⟩
    · exact ⟨[], .done (TakeWhile.next_none ((hnext o).trans (congrArg Except.ok hnone)))⟩
    · exact absurd hframe.before_index (Nat.not_lt.mpr hindex)
    · exact absurd hindex hnot
  | @past o n e hframe hp =>
    have hread := (hnext o).trans (congrArg Except.ok (hframe.next_eq))
    exact ⟨[], .done (TakeWhile.next_stop hread ((hpast e).mp hp))⟩
  | @frame o n e hframe _ ih =>
    have hread := (hnext o).trans (congrArg Except.ok (hframe.next_eq))
    obtain ⟨events, hrest⟩ := ih
    cases hp : p (.ok e) with
    | false => exact ⟨[], .done (TakeWhile.next_stop hread hp)⟩
    | true => exact ⟨e :: events, .more (TakeWhile.next_some hread hp) hrest⟩

/-- 反復が終わるなら、塊が続く。誤りに着いた反復は終わらない。 -/
theorem Whole.of_iterates (h : Checked.Bounded it) (hpast : ∀ e, past e ↔ p (.ok e) = false)
    (herror : ∀ err, p (.error err) = true) {o : Nat} {items : List (Except FormatError RecordingEvent)}
    (hruns : Iterates (TakeWhile.next (@Checked.next FormatError bin) p)
      ⟨{ it with offset := o }, false⟩ items) : Whole bin it past o := by
  have hnext : ∀ o, (Checked.next bin { it with offset := o } : Except (Fault FormatError) _)
      = .ok (({ it with offset := o } : EventIterator).next bin) := fun o => Checked.next_eq (h.at o)
  induction items generalizing o with
  | nil =>
    rcases it.next_cases bin o with ⟨hindex, -⟩ | ⟨e, n, hframe, hok⟩ | ⟨-, -, err, herr⟩
    · exact .index hindex
    · have hread := (hnext o).trans (congrArg Except.ok hok)
      refine .past hframe ((hpast e).mpr ?_)
      cases hp : p (.ok e) with
      | false => rfl
      | true =>
        cases hruns with
        | done hdone =>
          rw [TakeWhile.next_some hread hp] at hdone
          cases hdone
    · have hread := (hnext o).trans (congrArg Except.ok herr)
      cases hruns with
      | done hdone =>
        rw [TakeWhile.next_some hread (herror err)] at hdone
        cases hdone
  | cons x items ih =>
    rcases it.next_cases bin o with ⟨hindex, -⟩ | ⟨e, n, hframe, hok⟩ | ⟨-, -, err, herr⟩
    · exact .index hindex
    · have hread := (hnext o).trans (congrArg Except.ok hok)
      cases hp : p (.ok e) with
      | false => exact .past hframe ((hpast e).mpr hp)
      | true =>
        obtain ⟨ys, hys, hrest⟩ := hruns.of_next (TakeWhile.next_some hread hp)
        cases hys
        exact .frame hframe (ih hrest)
    · have hread := (hnext o).trans (congrArg Except.ok herr)
      have hloop := (hnext (it.landing o)).trans (congrArg Except.ok (EventIterator.next_of_error herr))
      obtain ⟨ys, -, hrest⟩ := hruns.of_next (TakeWhile.next_some hread (herror err))
      exact absurd hrest (not_iterates_of_loop (TakeWhile.next_some hloop (herror err)) ys)

/-- 反復が高々一つの誤りで終わるのは、塊が続くときに限る。 -/
theorem endsOnce_iff (h : Checked.Bounded it) (hpast : ∀ e, past e ↔ p (.ok e) = false)
    (herror : ∀ err, p (.error err) = true) (o : Nat) :
    EndsOnce (TakeWhile.next (Checked.next bin) p) ⟨{ it with offset := o }, false⟩
      ↔ Whole bin it past o := by
  constructor
  · rintro ⟨items, hruns, -⟩
    exact .of_iterates h hpast herror hruns
  · intro hwhole
    obtain ⟨events, hruns⟩ := hwhole.ends h hpast
    refine ⟨_, hruns, fun x hx => ?_⟩
    obtain ⟨e, -, rfl⟩ := List.mem_map.mp ((List.dropLast_sublist _).subset hx)
    exact ⟨e, rfl⟩

end Range

/-! ## 読み手の反復 -/

/-- `read_events_from` の反復が終わる。 -/
def EventsEnd (bin : Bincode) (r : RecordingReader) (position : ReadPosition) : Prop :=
  ∃ it, (Checked.readEventsFrom r position : Except (Fault FormatError) _) = .ok it
    ∧ EndsOnce (Checked.next bin) it

/-- `read_events_in_range` の反復が終わる。 -/
def RangeEnds (bin : Bincode) (pp : PartitionPoint) (r : RecordingReader) (startMs endMs : UInt64) : Prop :=
  ∃ it, Checked.readEventsInRange pp r startMs = .ok it ∧ EndsOnce (Checked.rangeNext bin endMs) it

/-- 索引の写しの位置は `4` を足しても `usize` に収まり、位置からは読める塊が続く。 -/
def Readable (bin : Bincode) (r : RecordingReader) (past : RecordingEvent → Prop)
    (position : ReadPosition) : Prop :=
  (∀ kf ∈ r.index.entries, kf.Addressable)
    ∧ Whole bin (r.readEventsFrom position.offset) past position.offset

theorem EndsOnce.takeWhile_true :
    EndsOnce (TakeWhile.next (Checked.next bin) fun _ => true) ⟨it, false⟩
      ↔ EndsOnce (Checked.next bin) it := by
  refine exists_congr fun items => and_congr_left fun _ => ?_
  exact iterates_takeWhile_true

/-- 反復子を作ることが落ちないのは、写しの位置が収まるときに限る。 -/
theorem readEventsFrom_ok_iff {r : RecordingReader} (hdata : Allocated r.data)
    (position : ReadPosition) :
    (Checked.readEventsFrom r position : Except (Fault FormatError) _) = .ok it
      ↔ (∀ kf ∈ r.index.entries, kf.Addressable) ∧ it = r.readEventsFrom position.offset := by
  by_cases haddr : ∀ kf ∈ r.index.entries, kf.Addressable
  · rw [Checked.readEventsFrom_eq hdata haddr, Except.ok.injEq, eq_comm]
    exact (and_iff_right haddr).symm
  · obtain ⟨kf, hkf⟩ := not_forall.mp haddr
    obtain ⟨hmem, hfar⟩ := Classical.not_imp.mp hkf
    rw [Checked.readEventsFrom_panic hdata hmem hfar]
    exact iff_of_false nofun fun h => haddr h.1

/--
反復が終わって誤りが高々一つなのは、写しの位置が収まり、読み始めの位置から塊が続くときに限る。
-/
theorem iteration_ends_iff (pp : PartitionPoint) {data : Bytes} (hdata : Allocated data)
    {r : RecordingReader} (hopen : RecordingReader.fromDecompressed bin data = .ok r) :
    (∀ position, EventsEnd bin r position ↔ Readable bin r (fun _ => False) position)
    ∧ ∀ startMs endMs position, Checked.seekTo pp r startMs = .ok position →
      (RangeEnds bin pp r startMs endMs ↔ Readable bin r (fun e => endMs < e.timestampMs) position) := by
  have hrdata : Allocated r.data := by
    rw [(fromDecompressed_spec hopen).1]
    exact hdata
  have hbounded : ∀ offset, Checked.Bounded (r.readEventsFrom offset) :=
    RecordingReader.bounded hdata hopen
  constructor
  · intro position
    unfold EventsEnd Readable
    simp only [readEventsFrom_ok_iff hrdata position]
    constructor
    · rintro ⟨it, ⟨haddr, rfl⟩, hends⟩
      refine ⟨haddr, (endsOnce_iff (hbounded position.offset) ?_ (fun _ => rfl) position.offset).mp
        (EndsOnce.takeWhile_true.mpr hends)⟩
      exact fun e => iff_of_false not_false nofun
    · rintro ⟨haddr, hwhole⟩
      refine ⟨_, ⟨haddr, rfl⟩, EndsOnce.takeWhile_true.mp
        ((endsOnce_iff (hbounded position.offset) ?_ (fun _ => rfl) position.offset).mpr hwhole)⟩
      exact fun e => iff_of_false not_false nofun
  · intro startMs endMs position hseek
    have hpast : ∀ e : RecordingEvent, endMs < e.timestampMs
        ↔ Checked.withinEnd endMs (.ok e) = false := by
      intro e
      show _ ↔ decide (e.timestampMs ≤ endMs) = false
      rw [decide_eq_false_iff_not, UInt64.not_le]
    have hrange : ∀ it, Checked.readEventsInRange pp r startMs = .ok it
        ↔ (∀ kf ∈ r.index.entries, kf.Addressable) ∧ it = ⟨r.readEventsFrom position.offset, false⟩ := by
      intro it
      unfold Checked.readEventsInRange
      rw [hseek, ok_bind, bind_eq_ok]
      simp only [readEventsFrom_ok_iff hrdata position, pure_eq_ok]
      constructor
      · rintro ⟨_, ⟨haddr, rfl⟩, rfl⟩
        exact ⟨haddr, rfl⟩
      · rintro ⟨haddr, rfl⟩
        exact ⟨_, ⟨haddr, rfl⟩, rfl⟩
    unfold RangeEnds Readable
    simp only [hrange]
    have hiff := @endsOnce_iff bin _ _ _ (hbounded position.offset) hpast (fun _ => rfl) position.offset
    constructor
    · rintro ⟨it, ⟨haddr, rfl⟩, hends⟩
      exact ⟨haddr, hiff.mp hends⟩
    · rintro ⟨haddr, hwhole⟩
      exact ⟨_, ⟨haddr, rfl⟩, hiff.mpr hwhole⟩

/-! ## 読んだ塊 -/

/-- 位置 `o` の後ろに、出来事の塊が重ならずに並ぶ。どの塊も、写しの中では始まらない。 -/
inductive Reads (bin : Bincode) (it : EventIterator) : Nat → List RecordingEvent → Prop where
  | nil (o : Nat) : Reads bin it o []
  | cons {o start n : Nat} {e : RecordingEvent} {events : List RecordingEvent} (hstart : o ≤ start)
      (houtside : it.inSkipRegion start = none) (hframe : FrameAt bin it start e n)
      (hrest : Reads bin it n events) : Reads bin it o (e :: events)

/-- どの塊も長さの `4` byte を持つ。 -/
theorem Reads.length_le {o : Nat} {events : List RecordingEvent} (h : Reads bin it o events) :
    4 * events.length ≤ it.endOffset + 4 - o := by
  induction h with
  | nil o => exact Nat.zero_le _
  | cons hstart _ hframe _ ih =>
    have hstop := hframe.stop
    have hlimit := hframe.limit
    rw [List.length_cons]
    omega

/-- 出来事の場所に `body` がある列。 -/
def fileWith (body : Bytes) : Bytes :=
  withIndex bincode (frame (bincode.encHeader plainHeader) ++ body) {}

theorem length_fileWith (body : Bytes) : (fileWith body).length = 106 + body.length := by
  have hindex : (bincode.encIndex {}).length = 24 := by
    show (ByteCodec.keyframeIndex.enc {}).length = 24
    rfl
  rw [fileWith, withIndex, List.length_append, List.length_append, List.length_append, frame_length,
    frame_length, leBytes_length, length_encHeader_plainHeader, hindex]
  omega

/-- `fileWith` を開いた読み手。 -/
def readerWith (body : Bytes) : RecordingReader where
  data := fileWith body
  header := plainHeader
  index := {}
  eventsStartOffset := 70
  indexOffset := 70 + body.length

theorem fromDecompressed_fileWith {body : Bytes} (hbody : body.length < 2 ^ 62) :
    RecordingReader.fromDecompressed bincode (fileWith body) = .ok (readerWith body) := by
  have hlen := length_fileWith body
  have hopen := @fromDecompressed_withIndex bincode plainHeader body {}
    (RecordingHeader.validate_new ..) (by rw [length_encHeader_plainHeader]; decide)
    (by
      show (ByteCodec.keyframeIndex.enc {}).length < 2 ^ 32
      decide)
    (by
      show (fileWith body).length < 2 ^ 64
      omega)
  have hpre : (frame (bincode.encHeader plainHeader) ++ body).length = 70 + body.length := by
    rw [List.length_append, frame_length, length_encHeader_plainHeader]
  rw [hpre, length_encHeader_plainHeader] at hopen
  exact hopen

/-- 読める塊一つの後に、読み終わりが来る。 -/
theorem iteration_ends_iff_resized :
    EventsEnd bincode (readerWith (frame (bincode.encEvent (.resize 7 80 24))))
      (Checked.seekToStart (readerWith (frame (bincode.encEvent (.resize 7 80 24))))) := by
  have hopen := @fromDecompressed_fileWith (frame (bincode.encEvent (.resize 7 80 24))) (by decide)
  have hdata : Allocated (fileWith (frame (bincode.encEvent (.resize 7 80 24)))) := by
    unfold Allocated
    rw [length_fileWith]
    decide
  refine ((iteration_ends_iff firstAbove hdata hopen).1 _).mpr ⟨nofun, ?_⟩
  refine .frame (n := 90) (e := .resize 7 80 24) ⟨?_, ?_, ?_, ?_, ?_⟩ (.index ?_)
  · decide
  · rfl
  · show 90 ≤ (fileWith (frame (bincode.encEvent (.resize 7 80 24)))).length
    rw [length_fileWith]
    decide
  · decide
  · rfl
  · decide

/-- 一 byte だけの出来事は、いつまでも同じ誤りになる。 -/
theorem torn_event_repeats :
    RecordingReader.fromDecompressed bincode (fileWith [0]) = .ok (readerWith [0])
      ∧ ¬ EventsEnd bincode (readerWith [0]) (Checked.seekToStart (readerWith [0])) := by
  refine ⟨fromDecompressed_fileWith (by decide), ?_⟩
  rintro ⟨it, hit, items, hruns, -⟩
  have hdata : Allocated (readerWith [0]).data := by
    show (fileWith [0]).length < 2 ^ 63
    rw [length_fileWith]
    decide
  obtain ⟨-, rfl⟩ := (readEventsFrom_ok_iff hdata _).mp hit
  exact not_iterates_of_loop (x := .error .unexpectedEof) rfl items hruns

end Cassy.Recording
