import Cassy.Properties.ReaderEnds

/-!
# 時刻から読み始める

`seek_to` は、時刻までの最後の keyframe を選ぶ。時刻の順に書かれた録画では、選んだ keyframe より前の出来事は、その keyframe と
同じ時刻でないかぎり求める範囲に入らない。だから `read_events_in_range` は範囲の出来事を一つも落とさない。

最初の keyframe より前の時刻では、`find_keyframe` は最初の keyframe を返す。読み始めは求めた時刻より後になり、その間の
出来事は読まれない。
-/

namespace Cassy.Recording

open Infra

variable {bin : Bincode} {header : RecordingHeader}

/-! ## 順に並んだ索引 -/

section Choice

variable {ε : Type} {entries : List KeyframeEntry}

/-- 時刻までの最後の keyframe が選ばれる。無ければ最初の keyframe である。 -/
inductive Chosen (entries : List KeyframeEntry) (target : UInt64) : Option KeyframeEntry → Prop where
  | none (h : entries = []) : Chosen entries target none
  | first {kf : KeyframeEntry} {back : List KeyframeEntry} (h : entries = kf :: back)
    (hlate : target < kf.timestampMs) : Chosen entries target (some kf)
  | last {front back : List KeyframeEntry} {kf : KeyframeEntry} (h : entries = front ++ kf :: back)
    (hkf : kf.timestampMs ≤ target) : Chosen entries target (some kf)

/-- 順に並んだ索引は、時刻で前後に分かれる。 -/
theorem exists_split_of_sorted (hsorted : entries.Pairwise fun a b => a.timestampMs ≤ b.timestampMs)
    (target : UInt64) : ∃ front back, entries = front ++ back
      ∧ (∀ e ∈ front, decide (e.timestampMs ≤ target) = true)
      ∧ ∀ e ∈ back, decide (e.timestampMs ≤ target) = false := by
  induction entries with
  | nil => exact ⟨[], [], rfl, nofun, nofun⟩
  | cons kf entries ih =>
    obtain ⟨hhead, htail⟩ := List.pairwise_cons.mp hsorted
    by_cases hkf : kf.timestampMs ≤ target
    · obtain ⟨front, back, rfl, hfront, hback⟩ := ih htail
      refine ⟨kf :: front, back, rfl, ?_, hback⟩
      intro e he
      rcases List.mem_cons.mp he with rfl | he
      · exact decide_eq_true hkf
      · exact hfront e he
    · refine ⟨[], kf :: entries, rfl, nofun, ?_⟩
      intro e he
      refine decide_eq_false fun hle => hkf ?_
      rcases List.mem_cons.mp he with rfl | he
      · exact hle
      · exact UInt64.le_trans (hhead e he) hle

theorem findKeyframe_chosen (pp : PartitionPoint)
    (hsorted : entries.Pairwise fun a b => a.timestampMs ≤ b.timestampMs) (target : UInt64) :
    ∃ kf, (Checked.findKeyframe pp entries target : Except (Fault ε) _) = .ok kf
      ∧ Chosen entries target kf := by
  obtain ⟨front, back, rfl, hfront, hback⟩ := exists_split_of_sorted hsorted target
  have hrun := pp.run_eq front back (fun e => decide (e.timestampMs ≤ target)) hfront hback
  unfold Checked.findKeyframe
  dsimp only
  rw [hrun]
  cases hlast : front.getLast? with
  | none =>
    obtain rfl := List.getLast?_eq_none_iff.mp hlast
    cases back with
    | nil => exact ⟨none, rfl, .none rfl⟩
    | cons kf back =>
      refine ⟨some kf, rfl, .first rfl ?_⟩
      exact UInt64.not_le.mp (of_decide_eq_false (hback kf List.mem_cons_self))
  | some kf =>
    obtain ⟨front, rfl⟩ := List.getLast?_eq_some_iff.mp hlast
    have hne : ¬ (front ++ [kf] ++ back).isEmpty = true := by
      rw [List.append_assoc, List.isEmpty_iff]
      exact List.append_ne_nil_of_right_ne_nil _ (List.cons_ne_nil kf back)
    have hlen : ¬ (front ++ [kf]).length = 0 := by
      rw [List.length_append, List.length_singleton]
      omega
    have hget : (front ++ [kf] ++ back)[(front ++ [kf]).length - 1]? = some kf := by
      rw [List.length_append, List.length_singleton, Nat.add_sub_cancel, List.append_assoc,
        List.getElem?_append_right (Nat.le_refl _), Nat.sub_self]
      rfl
    rw [if_neg hne, if_neg hlen, usizeSub_of_le (by omega), ok_bind, hget]
    refine ⟨some kf, rfl, .last (List.append_assoc ..) ?_⟩
    exact of_decide_eq_true (hfront kf (List.mem_append_right _ (List.mem_singleton_self kf)))

end Choice

/-! ## 時刻の順に書かれた録画 -/

/-- 命令の時刻は減らない。 -/
def Chronological (cs : List WriteCommand) : Prop :=
  cs.Pairwise fun a b => a.timestampMs ≤ b.timestampMs

theorem timestampMs_eventAt (p : Nat) (c : WriteCommand) :
    (c.eventAt p).timestampMs = c.timestampMs := by
  cases c <;> rfl

theorem map_timestampMs_eventsAt : ∀ (cs : List WriteCommand) (p : Nat),
    (eventsAt bin p cs).map RecordingEvent.timestampMs = cs.map WriteCommand.timestampMs
  | [], _ => rfl
  | c :: cs, p => by
    rw [eventsAt, List.map_cons, timestampMs_eventAt, map_timestampMs_eventsAt, List.map_cons]

/-- 索引の時刻は、keyframe の命令の時刻である。 -/
theorem map_timestampMs_entriesAt : ∀ (cs : List WriteCommand) (p : Nat),
    (entriesAt bin p cs).map KeyframeEntry.timestampMs
      = (cs.filter WriteCommand.isKeyframe).map WriteCommand.timestampMs
  | [], _ => rfl
  | c :: cs, p => by
    rw [entriesAt, List.map_append, map_timestampMs_entriesAt, List.filter_cons]
    cases c <;> rfl

/-- 時刻の列が同じなら、並びの条件も同じである。 -/
theorem pairwise_of_map_eq {α β : Type} {f : α → UInt64} {g : β → UInt64} {l : List α} {m : List β}
    (h : l.map f = m.map g) (hm : m.Pairwise fun a b => g a ≤ g b) :
    l.Pairwise fun a b => f a ≤ f b := by
  have hpair := List.pairwise_map.mpr hm
  rw [← h] at hpair
  exact List.pairwise_map.mp hpair

theorem Chronological.events {cs : List WriteCommand} (h : Chronological cs) (p : Nat) :
    (eventsAt bin p cs).Pairwise fun a b => a.timestampMs ≤ b.timestampMs :=
  pairwise_of_map_eq (map_timestampMs_eventsAt cs p) h

theorem Chronological.entries {cs : List WriteCommand} (h : Chronological cs) (p : Nat) :
    (entriesAt bin p cs).Pairwise fun a b => a.timestampMs ≤ b.timestampMs :=
  pairwise_of_map_eq (map_timestampMs_entriesAt cs p) (h.sublist List.filter_sublist)

/-- どの命令の時刻も、最後の命令の時刻を越えない。 -/
theorem Chronological.le_lastTime {cs : List WriteCommand} (h : Chronological cs) :
    ∀ c ∈ cs, c.timestampMs ≤ lastTime cs := by
  intro c hc
  rcases List.eq_nil_or_concat' cs with rfl | ⟨init, last, rfl⟩
  · cases hc
  · rw [lastTime_concat]
    rcases List.mem_append.mp hc with hc | hc
    · exact (List.pairwise_append.mp h).2.2 c hc last (List.mem_singleton_self last)
    · rw [List.mem_singleton.mp hc]
      exact UInt64.le_refl _

/-- 索引の keyframe は、命令の列の keyframe である。 -/
theorem exists_of_entriesAt {front back : List KeyframeEntry} {kf : KeyframeEntry}
    {cs : List WriteCommand} {p : Nat} (h : entriesAt bin p cs = front ++ kf :: back) :
    ∃ done t snapshot rest, cs = done ++ .keyframe t snapshot :: rest ∧ entriesAt bin p done = front
      ∧ kf = ⟨t, UInt64.ofNat ((WriteCommand.keyframe t snapshot).start (endAt bin p done)),
        UInt64.ofNat (endAt bin p done)⟩ := by
  induction cs generalizing front p with
  | nil =>
    rw [entriesAt] at h
    exact absurd h.symm (List.append_ne_nil_of_right_ne_nil _ (List.cons_ne_nil kf back))
  | cons c cs ih =>
    cases c with
    | event e =>
      obtain ⟨done, t, snapshot, rest, rfl, hfront, hkf⟩ := ih h
      refine ⟨.event e :: done, t, snapshot, rest, rfl, hfront, ?_⟩
      rw [endAt_cons]
      exact hkf
    | keyframe t snapshot =>
      rw [entriesAt] at h
      cases front with
      | nil =>
        obtain ⟨hkf, -⟩ := List.cons.inj h
        exact ⟨[], t, snapshot, cs, rfl, rfl, hkf.symm⟩
      | cons first front =>
        obtain ⟨hfirst, hrest⟩ := List.cons.inj h
        obtain ⟨done, t', snapshot', rest, rfl, hfront, hkf⟩ := ih hrest
        refine ⟨.keyframe t snapshot :: done, t', snapshot', rest, rfl, ?_, ?_⟩
        · rw [entriesAt, hfront, ← hfirst]
          rfl
        · rw [endAt_cons]
          exact hkf

/-- 索引が空なら、keyframe の命令は無い。 -/
theorem not_isKeyframe_of_entriesAt {cs : List WriteCommand} {p : Nat} (h : entriesAt bin p cs = []) :
    ∀ c ∈ cs, c.isKeyframe = false := by
  intro c hc
  have hcount := @entriesAt_length bin cs p
  rw [h] at hcount
  exact Bool.eq_false_iff.mpr (List.countP_eq_zero.mp hcount.symm c hc)

/-! ## 範囲を読む -/

/-- 誤り無く読み終わる反復は、`usize` で計算しても同じである。 -/
theorem EventIterator.Yields.iterates {it : EventIterator} {events : List RecordingEvent}
    (hyields : it.Yields bin events) (h : Checked.Bounded it) :
    Iterates (@Checked.next FormatError bin) it (events.map .ok) := by
  induction hyields with
  | done it it' hnext => exact .done ((Checked.next_eq h).trans (congrArg Except.ok hnext))
  | more it it' e events hnext _ ih =>
    have hstep := @Checked.Bounded.next bin _ h
    rw [hnext] at hstep
    exact .more ((Checked.next_eq h).trans (congrArg Except.ok hnext)) (ih hstep)

/-- 順に並んだ出来事では、途中で止めることと選ぶことは同じである。 -/
theorem takeWhile_withinEnd {events : List RecordingEvent}
    (hsorted : events.Pairwise fun a b => a.timestampMs ≤ b.timestampMs) (endMs : UInt64) :
    (events.map Except.ok).takeWhile (Checked.withinEnd endMs)
      = (events.filter fun e => e.timestampMs ≤ endMs).map .ok := by
  induction events with
  | nil => rfl
  | cons e events ih =>
    obtain ⟨hhead, htail⟩ := List.pairwise_cons.mp hsorted
    rw [List.map_cons]
    by_cases he : e.timestampMs ≤ endMs
    · have hkeep : Checked.withinEnd endMs (.ok e) = true := decide_eq_true he
      have hmem : (e :: events).filter (fun e => decide (e.timestampMs ≤ endMs))
          = e :: events.filter fun e => e.timestampMs ≤ endMs :=
        List.filter_cons_of_pos (decide_eq_true he)
      rw [List.takeWhile_cons_of_pos hkeep, ih htail, hmem, List.map_cons]
    · have hnone : (e :: events).filter (fun e => decide (e.timestampMs ≤ endMs)) = [] := by
        rw [List.filter_eq_nil_iff]
        intro x hx hle
        refine he ?_
        rcases List.mem_cons.mp hx with rfl | hx
        · exact of_decide_eq_true hle
        · exact UInt64.le_trans (hhead x hx) (of_decide_eq_true hle)
      have hstop : ¬ Checked.withinEnd endMs (.ok e) = true := fun h => he (of_decide_eq_true h)
      rw [List.takeWhile_cons_of_neg hstop, hnone]
      rfl

/-- 範囲の中の時刻。 -/
def InRange (startMs endMs : UInt64) (e : RecordingEvent) : Bool :=
  startMs ≤ e.timestampMs && e.timestampMs ≤ endMs

/-- `done` の後ろから読み始めるときに、読まれなければならない出来事。 -/
def required (done : Nat) (position : ReadPosition) (startMs endMs : UInt64)
    (events : List RecordingEvent) : List RecordingEvent :=
  ((events.take done).filter fun e => InRange startMs endMs e && e.timestampMs ≠ position.timestampMs)
    ++ (events.drop done).filter (InRange startMs endMs)

/-- 読み始めの位置は、`rest` の最初の keyframe である。keyframe が無ければ録画の始めである。 -/
def StartsAt (r : RecordingReader) (position : ReadPosition) (done rest : List WriteCommand) : Prop :=
  (∃ t snapshot tail kf, rest = .keyframe t snapshot :: tail
    ∧ r.index.entries[done.countP WriteCommand.isKeyframe]? = some kf
    ∧ position = ⟨kf.eventOffset.toNat, t⟩)
  ∨ (done = [] ∧ (∀ c ∈ rest, c.isKeyframe = false) ∧ position = Checked.seekToStart r)

/-- `seek_to` は時刻より後へ行かず、範囲を読むと、読まれるべき出来事が順に全て出る。 -/
def SeekCovers (bin : Bincode) (pp : PartitionPoint) (r : RecordingReader) (cs : List WriteCommand)
    (events : List RecordingEvent) (startMs endMs : UInt64) : Prop :=
  ∃ position it done rest items,
    Checked.seekTo pp r startMs = .ok position
    ∧ position.timestampMs ≤ startMs
    ∧ cs = done ++ rest ∧ StartsAt r position done rest
    ∧ Checked.readEventsInRange pp r startMs = .ok it
    ∧ Iterates (@Checked.rangeNext FormatError bin endMs) it (items.map .ok)
    ∧ (required done.length position startMs endMs events).Sublist items

/-- 最初の keyframe の時刻は、求める時刻を越えない。 -/
def KeyframeBefore (cs : List WriteCommand) (startMs : UInt64) : Prop :=
  ∀ c, cs.find? WriteCommand.isKeyframe = some c → c.timestampMs ≤ startMs

section Reader

variable {cs : List WriteCommand}

theorem endAt_le_fileOf (done rest : List WriteCommand) :
    endAt bin (base bin header) done + 12 ≤ (fileOf bin header (done ++ rest)).length := by
  have hlen := @fileOf_length bin header (done ++ rest)
  have hend : endAt bin (base bin header) done ≤ endAt bin (endAt bin (base bin header) done) rest :=
    Nat.le_add_right ..
  rw [writtenOf_length, endAt_append] at hlen
  omega

theorem start_le_fileOf (done rest : List WriteCommand) (c : WriteCommand) :
    c.start (endAt bin (base bin header) done) ≤ (fileOf bin header (done ++ c :: rest)).length := by
  have hend := @endAt_le_fileOf bin header (done ++ [c]) rest
  have hstart := (start_lt_next bin (endAt bin (base bin header) done) c).2
  rw [List.append_assoc, endAt_append, endAt_cons] at hend
  have hnil : endAt bin (c.next bin (endAt bin (base bin header) done)) []
      = c.next bin (endAt bin (base bin header) done) := rfl
  rw [hnil] at hend
  have hcons : done ++ ([c] ++ rest) = done ++ c :: rest := rfl
  rw [hcons] at hend
  omega

theorem addressable_readerOf (hdata : Allocated (fileOf bin header cs)) :
    ∀ kf ∈ (readerOf bin header cs).index.entries, kf.Addressable := by
  intro kf hkf
  obtain ⟨front, back, hsplit⟩ := List.append_of_mem hkf
  obtain ⟨done, t, snapshot, rest, rfl, -, rfl⟩ := exists_of_entriesAt hsplit
  have hlt : (fileOf bin header (done ++ .keyframe t snapshot :: rest)).length < 2 ^ 63 := hdata
  have hend := @endAt_le_fileOf bin header done (.keyframe t snapshot :: rest)
  show (UInt64.ofNat _).toNat + 4 < 2 ^ 64
  rw [UInt64.toNat_ofNat_of_lt' (show _ < 2 ^ 64 by omega)]
  omega

theorem bounded_readerOf (hdata : Allocated (fileOf bin header cs)) (offset : Nat) :
    Checked.Bounded ((readerOf bin header cs).readEventsFrom offset) := by
  refine ⟨hdata, ?_⟩
  show (writtenOf bin header cs).length ≤ (fileOf bin header cs).length
  rw [fileOf_length]
  omega

/-- 途中の命令から範囲を読むと、そこから後ろの、終わりまでの出来事が出る。 -/
theorem iterates_range {done rest : List WriteCommand} (hfits : FileFits bin header (done ++ rest))
    (hcommands : ∀ c ∈ done ++ rest, c.Fits bin) (hdata : Allocated (fileOf bin header (done ++ rest)))
    (hsorted : Chronological (done ++ rest)) {offset : Nat}
    (hoffset : offset = endAt bin (base bin header) done
      ∨ ∃ c, rest.head? = some c ∧ offset = c.start (endAt bin (base bin header) done))
    (endMs : UInt64) :
    Iterates (@Checked.rangeNext FormatError bin endMs)
      ⟨(readerOf bin header (done ++ rest)).readEventsFrom offset, false⟩
      (((eventsAt bin (endAt bin (base bin header) done) rest).filter
        fun e => e.timestampMs ≤ endMs).map .ok) := by
  have hyields := readerOf_yields hfits hcommands hoffset
  have hrest : Chronological rest := (List.pairwise_append.mp hsorted).2.1
  have htake := (hyields.iterates (bounded_readerOf hdata offset)).takeWhile
    (p := Checked.withinEnd endMs)
  rw [takeWhile_withinEnd (hrest.events _)] at htake
  exact htake

theorem filter_inRange_sublist (startMs endMs : UInt64) (events : List RecordingEvent) :
    (events.filter (InRange startMs endMs)).Sublist (events.filter fun e => e.timestampMs ≤ endMs) := by
  refine List.monotone_filter_right _ fun e he => ?_
  exact ((Bool.and_eq_true ..).mp he).2

/-- 選ばれた keyframe より前の出来事は、同じ時刻でないかぎり範囲に入らない。 -/
theorem required_eq {done rest : List WriteCommand} {p : Nat} {position : ReadPosition}
    {startMs endMs : UInt64} (hposition : position.timestampMs ≤ startMs)
    (hdone : ∀ c ∈ done, c.timestampMs ≤ position.timestampMs) :
    required done.length position startMs endMs (eventsAt bin p (done ++ rest))
      = (eventsAt bin (endAt bin p done) rest).filter (InRange startMs endMs) := by
  unfold required
  rw [eventsAt_append, List.take_left' (eventsAt_length done p),
    List.drop_left' (eventsAt_length done p)]
  have hnone : (eventsAt bin p done).filter (fun e => InRange startMs endMs e
      && decide (e.timestampMs ≠ position.timestampMs)) = [] := by
    rw [List.filter_eq_nil_iff]
    intro e he hin
    obtain ⟨hrange, hne⟩ := (Bool.and_eq_true ..).mp hin
    obtain ⟨hlo, -⟩ := (Bool.and_eq_true ..).mp hrange
    have hmem : e.timestampMs ∈ done.map WriteCommand.timestampMs := by
      rw [← @map_timestampMs_eventsAt bin done p]
      exact List.mem_map_of_mem he
    obtain ⟨c, hc, hct⟩ := List.mem_map.mp hmem
    have hle : e.timestampMs ≤ position.timestampMs := hct ▸ hdone c hc
    refine of_decide_eq_true hne (UInt64.le_antisymm hle ?_)
    exact UInt64.le_trans hposition (of_decide_eq_true hlo)
  rw [hnone, List.nil_append]

theorem seekTo_readerOf (pp : PartitionPoint) {kf : Option KeyframeEntry} {startMs : UInt64}
    (hfind : (Checked.findKeyframe pp (entriesAt bin (base bin header) cs) (Checked.clampMs startMs (lastTime cs))
      : Except (Fault FormatError) _) = .ok kf) :
    Checked.seekTo pp (readerOf bin header cs) startMs
      = .ok (Checked.positionOf (readerOf bin header cs) kf) := by
  unfold Checked.seekTo
  show (Checked.findKeyframe pp (entriesAt bin (base bin header) cs) (Checked.clampMs startMs (lastTime cs)) >>= _) = _
  rw [hfind]
  rfl

theorem readEventsInRange_readerOf (pp : PartitionPoint) {position : ReadPosition} {startMs : UInt64}
    (hdata : Allocated (fileOf bin header cs))
    (hseek : Checked.seekTo pp (readerOf bin header cs) startMs = .ok position) :
    Checked.readEventsInRange pp (readerOf bin header cs) startMs
      = .ok ⟨(readerOf bin header cs).readEventsFrom position.offset, false⟩ := by
  unfold Checked.readEventsInRange
  rw [hseek, ok_bind, Checked.readEventsFrom_eq hdata (addressable_readerOf hdata)]
  rfl

theorem le_of_le_clampMs {t startMs total : UInt64} (h : t ≤ Checked.clampMs startMs total) :
    t ≤ startMs := by
  unfold Checked.clampMs at h
  split at h
  · exact h
  · next hlt => exact UInt64.le_trans h (UInt64.le_of_lt (UInt64.not_le.mp hlt))

theorem lt_of_clampMs_lt {t startMs total : UInt64} (h : Checked.clampMs startMs total < t)
    (htotal : t ≤ total) : startMs < t := by
  unfold Checked.clampMs at h
  split at h
  · exact h
  · exact absurd htotal (UInt64.not_le.mpr h)

/-- 読み始めが求める時刻を越えなければ、範囲の出来事は落ちない。 -/
theorem seekCovers_of_split (pp : PartitionPoint) {done rest : List WriteCommand}
    (hfits : FileFits bin header (done ++ rest)) (hcommands : ∀ c ∈ done ++ rest, c.Fits bin)
    (hdata : Allocated (fileOf bin header (done ++ rest))) (hsorted : Chronological (done ++ rest))
    {position : ReadPosition} {startMs : UInt64} (endMs : UInt64)
    (hseek : Checked.seekTo pp (readerOf bin header (done ++ rest)) startMs = .ok position)
    (hposition : position.timestampMs ≤ startMs)
    (hstarts : StartsAt (readerOf bin header (done ++ rest)) position done rest)
    (hoffset : position.offset = endAt bin (base bin header) done
      ∨ ∃ c, rest.head? = some c ∧ position.offset = c.start (endAt bin (base bin header) done))
    (hdone : ∀ c ∈ done, c.timestampMs ≤ position.timestampMs) :
    SeekCovers bin pp (readerOf bin header (done ++ rest)) (done ++ rest)
      (eventsAt bin (base bin header) (done ++ rest)) startMs endMs := by
  refine ⟨position, _, done, rest, _, hseek, hposition, rfl, hstarts,
    readEventsInRange_readerOf pp hdata hseek,
    iterates_range hfits hcommands hdata hsorted hoffset endMs, ?_⟩
  rw [required_eq hposition hdone]
  exact filter_inRange_sublist startMs endMs _

/-- 範囲の出来事が落ちないのは、最初の keyframe が求める時刻より後でないときに限る。 -/
theorem seekCovers_readerOf (pp : PartitionPoint) (hfits : FileFits bin header cs)
    (hcommands : ∀ c ∈ cs, c.Fits bin) (hdata : Allocated (fileOf bin header cs))
    (hsorted : Chronological cs) (startMs endMs : UInt64) :
    SeekCovers bin pp (readerOf bin header cs) cs (eventsAt bin (base bin header) cs) startMs endMs
      ↔ KeyframeBefore cs startMs := by
  obtain ⟨kf, hfind, hchosen⟩ := @findKeyframe_chosen FormatError _ pp
    (@Chronological.entries bin cs hsorted (base bin header)) (Checked.clampMs startMs (lastTime cs))
  have hseek := seekTo_readerOf pp hfind
  cases hchosen with
  | none hnone =>
    -- keyframe が無い: 始めから読む
    have hplain := not_isKeyframe_of_entriesAt hnone
    refine iff_of_true ?_ ?_
    · exact @seekCovers_of_split bin header pp [] cs hfits hcommands hdata hsorted _ _ endMs hseek
        UInt64.zero_le (Or.inr ⟨rfl, hplain, rfl⟩) (Or.inl rfl) nofun
    · intro c hc
      have hkey := List.find?_some hc
      rw [hplain c (List.mem_of_find?_eq_some hc)] at hkey
      cases hkey
  | @first kf back hentries hlate =>
    -- 最初の keyframe が、求める時刻より後にある
    obtain ⟨done, t, snapshot, rest, rfl, hdone, rfl⟩ :=
      @exists_of_entriesAt bin [] back kf cs _ hentries
    have hlast := hsorted.le_lastTime (.keyframe t snapshot) (List.mem_append_right _ List.mem_cons_self)
    have hlt : startMs < t := lt_of_clampMs_lt hlate hlast
    refine iff_of_false ?_ ?_
    · rintro ⟨position, it, _, _, items, hposition, hle, -⟩
      rw [hseek] at hposition
      cases hposition
      exact UInt64.not_le.mpr hlt hle
    · intro hbefore
      refine UInt64.not_le.mpr hlt (hbefore (.keyframe t snapshot) ?_)
      rw [List.find?_append, List.find?_eq_none.mpr]
      · rfl
      · intro c hc hkey
        rw [not_isKeyframe_of_entriesAt hdone c hc] at hkey
        cases hkey
  | @last front back kf hentries hkf =>
    obtain ⟨done, t, snapshot, rest, rfl, hdone, rfl⟩ :=
      @exists_of_entriesAt bin front back kf cs _ hentries
    have hle : t ≤ startMs := le_of_le_clampMs hkf
    have hcross := (List.pairwise_append.mp hsorted).2.2
    refine iff_of_true ?_ ?_
    · have hlen : (fileOf bin header (done ++ .keyframe t snapshot :: rest)).length < 2 ^ 63 := hdata
      have hstart := @start_le_fileOf bin header done rest (.keyframe t snapshot)
      have hstart64 : (UInt64.ofNat ((WriteCommand.keyframe t snapshot).start
          (endAt bin (base bin header) done))).toNat
          = (WriteCommand.keyframe t snapshot).start (endAt bin (base bin header) done) :=
        UInt64.toNat_ofNat_of_lt' (show _ < 2 ^ 64 by omega)
      refine seekCovers_of_split pp hfits hcommands hdata hsorted endMs hseek hle ?_
        (Or.inr ⟨_, rfl, hstart64⟩) fun c hc => hcross c hc _ List.mem_cons_self
      refine Or.inl ⟨t, snapshot, rest, _, rfl, ?_, rfl⟩
      show (entriesAt bin (base bin header) (done ++ .keyframe t snapshot :: rest))[_]? = _
      rw [hentries, ← @entriesAt_length bin done (base bin header), hdone,
        List.getElem?_append_right (Nat.le_refl _), Nat.sub_self]
      rfl
    · -- 最初の keyframe は、選ばれた keyframe より後にはない
      intro c hc
      refine UInt64.le_trans ?_ hle
      rw [List.find?_append] at hc
      cases hfirst : done.find? WriteCommand.isKeyframe with
      | some d =>
        rw [hfirst] at hc
        cases hc
        exact hcross c (List.mem_of_find?_eq_some hfirst) _ List.mem_cons_self
      | none =>
        rw [hfirst] at hc
        cases hc
        exact UInt64.le_refl _

end Reader

/-- 録画とその続きの最後の file を開くと、書いた命令の読み手になる。 -/
theorem exists_recording (bin : Bincode) (zstd : Zstd) (level : Int) {header : RecordingHeader}
    {first : List RecordCall} {rest : List (List RecordCall)} (hvalid : header.validate = .ok ())
    (hheader : (bin.encHeader header).length < 2 ^ 32)
    (hfiles : ∀ k ≤ rest.length, FileFits bin header (sessionCommands (first :: rest.take k))) :
    FileFits bin header (sessionCommands (first :: rest))
    ∧ ∃ file, recordSessions bin zstd level header first rest = .ok file
      ∧ RecordingReader.openFile bin zstd file
        = .ok (readerOf bin header (sessionCommands (first :: rest))) := by
  have hlast : FileFits bin header (sessionCommands (first :: rest)) := by
    have h := hfiles rest.length (Nat.le_refl _)
    rwa [List.take_length] at h
  obtain ⟨level', hrest⟩ := @foldlM_resume bin header zstd hvalid hheader rest
    (first.filterMap RecordCall.command) level fun k hk => by
      rw [← sessionCommands_cons]
      exact hfiles k hk
  rw [← sessionCommands_cons] at hrest
  refine ⟨hlast, _, ?_, @openFile_fileOf bin header zstd _ level' hvalid hheader hlast⟩
  unfold recordSessions
  rw [record_eq, hrest]

/-- 時刻の順に書かれた録画で、範囲の出来事が落ちないのは、最初の keyframe が求める時刻より後でないときに限る。 -/
theorem seek_covers_iff (bin : Bincode) (zstd : Zstd) (pp : PartitionPoint) (level : Int)
    (cols rows : UInt16) (createdAt : DateTime) (agentName sessionId agentRole : String)
    (first : List RecordCall) (rest : List (List RecordCall))
    (hheader : (bin.encHeader
      (.new cols rows createdAt agentName sessionId agentRole)).length < 2 ^ 32)
    (hcommands : ∀ c ∈ sessionCommands (first :: rest), c.Fits bin)
    (hfiles : ∀ k ≤ rest.length, FileFits bin (.new cols rows createdAt agentName sessionId agentRole)
      (sessionCommands (first :: rest.take k)))
    (hdata : Allocated (fileOf bin (.new cols rows createdAt agentName sessionId agentRole)
      (sessionCommands (first :: rest))))
    (hsorted : Chronological (sessionCommands (first :: rest))) :
    ∃ file reader events,
      recordSessions bin zstd level (.new cols rows createdAt agentName sessionId agentRole) first rest
        = .ok file
      ∧ RecordingReader.openFile bin zstd file = .ok reader
      ∧ ReadsBack bin reader (sessionCommands (first :: rest)) events
      ∧ ∀ startMs endMs, SeekCovers bin pp reader (sessionCommands (first :: rest)) events startMs endMs
        ↔ KeyframeBefore (sessionCommands (first :: rest)) startMs := by
  obtain ⟨hlast, file, hfile, hopen⟩ :=
    exists_recording bin zstd level (RecordingHeader.validate_new ..) hheader hfiles
  exact ⟨file, _, _, hfile, hopen, readsBack_readerOf hlast hcommands,
    seekCovers_readerOf pp hlast hcommands hdata hsorted⟩

/-! ## 一つの録画 -/

/-- 出力の後に keyframe がある録画。 -/
def lateKeyframe : List RecordCall := [.writeOutput 1 [104], .writeKeyframe 5 []]

theorem fits_lateKeyframe : ∀ c ∈ sessionCommands [lateKeyframe], c.Fits bincode := by
  intro c hc
  have hc : c ∈ [WriteCommand.event (.output 1 [104]), .keyframe 5 []] := hc
  rcases List.mem_cons.mp hc with rfl | hc
  · show (bincode.encEvent _).length < 2 ^ 32
    decide
  · rw [List.mem_singleton.mp hc]
    refine ⟨by decide, fun p => ?_⟩
    rw [length_encEvent_keyframe]
    decide

theorem allocated_lateKeyframe :
    Allocated (fileOf bincode plainHeader (sessionCommands [lateKeyframe])) := by
  have hindex : (bincode.encIndex (indexOf bincode plainHeader (sessionCommands [lateKeyframe]))).length
      = 48 := by
    show (ByteCodec.keyframeIndex.enc _).length = 48
    rfl
  have hwritten : (writtenOf bincode plainHeader (sessionCommands [lateKeyframe])).length = 127 := by
    rfl
  unfold Allocated
  rw [fileOf_length, hindex, hwritten]
  decide

theorem fileFits_lateKeyframe : FileFits bincode plainHeader (sessionCommands [lateKeyframe]) := by
  refine ⟨?_, ?_⟩
  · show (ByteCodec.keyframeIndex.enc _).length < 2 ^ 32
    decide
  · exact Nat.lt_trans allocated_lateKeyframe (by decide)

theorem chronological_lateKeyframe : Chronological (sessionCommands [lateKeyframe]) := by
  show List.Pairwise _ [WriteCommand.event (.output 1 [104]), .keyframe 5 []]
  rw [List.pairwise_pair]
  decide

theorem fileFits_lateKeyframe_sessions : ∀ k ≤ ([] : List (List RecordCall)).length,
    FileFits bincode plainHeader (sessionCommands (lateKeyframe :: [].take k)) := by
  intro k hk
  rw [List.take_nil]
  exact fileFits_lateKeyframe

theorem seek_covers_iff_lateKeyframe :
    ∃ file reader events,
      recordSessions bincode stored 3 plainHeader lateKeyframe [] = .ok file
      ∧ RecordingReader.openFile bincode stored file = .ok reader
      ∧ ReadsBack bincode reader (sessionCommands [lateKeyframe]) events
      ∧ ∀ startMs endMs,
        SeekCovers bincode firstAbove reader (sessionCommands [lateKeyframe]) events startMs endMs
        ↔ KeyframeBefore (sessionCommands [lateKeyframe]) startMs :=
  seek_covers_iff bincode stored firstAbove 3 80 24 startOf2024 "" "" "" lateKeyframe []
    (by
      show (bincode.encHeader plainHeader).length < 2 ^ 32
      rw [length_encHeader_plainHeader]
      decide)
    fits_lateKeyframe fileFits_lateKeyframe_sessions allocated_lateKeyframe chronological_lateKeyframe

/-- 最初の keyframe より前の時刻を求めると、その前の出力は読まれない。 -/
theorem early_seek_skips :
    ∃ file reader events,
      recordSessions bincode stored 3 plainHeader lateKeyframe [] = .ok file
      ∧ RecordingReader.openFile bincode stored file = .ok reader
      ∧ ReadsBack bincode reader (sessionCommands [lateKeyframe]) events
      ∧ ¬ SeekCovers bincode firstAbove reader (sessionCommands [lateKeyframe]) events 0 9 := by
  obtain ⟨hlast, file, hfile, hopen⟩ := exists_recording bincode stored 3 (RecordingHeader.validate_new ..)
    (by
      show (bincode.encHeader plainHeader).length < 2 ^ 32
      rw [length_encHeader_plainHeader]
      decide)
    fileFits_lateKeyframe_sessions
  refine ⟨file, _, _, hfile, hopen, readsBack_readerOf hlast fits_lateKeyframe, ?_⟩
  intro hcovers
  have hbefore := (seekCovers_readerOf firstAbove hlast fits_lateKeyframe allocated_lateKeyframe
    chronological_lateKeyframe 0 9).mp hcovers
  exact absurd (hbefore (.keyframe 5 []) rfl) (by decide)

end Cassy.Recording
