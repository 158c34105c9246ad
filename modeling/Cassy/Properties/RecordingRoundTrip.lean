import Cassy.Properties.RecordingLayout
import Cassy.Recording.Bincode

/-!
# 録画は読み戻せる

新しい録画とその続きを何度重ねても、最後の file からは書いた出来事がそのままの順に読み戻され、索引の `i` 番目からは
`i` 番目の写しが、索引の位置からはその keyframe より後ろの出来事が読まれる。

写しは札の無いまま出来事の間にある。読み手は、書き手の並びの中で写しのある範囲だけを飛ばすので、写しの中身が何であっても
取り違えない。
-/

namespace Cassy.Recording

open Infra

variable {bin : Bincode} {header : RecordingHeader}
variable {cs : List WriteCommand}

/-! ## 塊を読む -/

section Frame

variable {pre bs post : Bytes} {p : Nat}

theorem slice_frame_len (hp : pre.length = p) :
    slice (pre ++ (frame bs ++ post)) p (p + 4) = leBytes 4 bs.length := by
  unfold frame
  rw [List.append_assoc]
  exact slice_mid hp (by rw [leBytes_length])

theorem slice_frame_data (hp : pre.length = p) :
    slice (pre ++ (frame bs ++ post)) (p + 4) (p + 4 + bs.length) = bs := by
  unfold frame
  rw [List.append_assoc, ← List.append_assoc]
  refine slice_mid ?_ rfl
  rw [List.length_append, leBytes_length, hp]

theorem ofLe_frame_len (h : bs.length < 2 ^ 32) : ofLe (leBytes 4 bs.length) = bs.length :=
  ofLe_leBytes_of_lt (show bs.length < 256 ^ 4 from h)

end Frame

/-! ## 開く -/

/-- 書き終えた file を開いた読み手。 -/
def readerOf (bin : Bincode) (header : RecordingHeader) (cs : List WriteCommand) : RecordingReader where
  data := fileOf bin header cs
  header := header
  index := indexOf bin header cs
  eventsStartOffset := base bin header
  indexOffset := (writtenOf bin header cs).length

theorem fileOf_length (cs : List WriteCommand) :
    (fileOf bin header cs).length
      = (writtenOf bin header cs).length + (4 + (bin.encIndex (indexOf bin header cs)).length) + 8 := by
  unfold fileOf
  rw [List.length_append, List.length_append, frame_length, leBytes_length]
  omega

/-- 末尾に書かれた索引の位置。 -/
theorem indexOffset_fileOf (hsize : (fileOf bin header cs).length < 2 ^ 64) :
    ofLe (slice (fileOf bin header cs) ((fileOf bin header cs).length - 8)
      ((fileOf bin header cs).length - 8 + 8)) = (writtenOf bin header cs).length := by
  have hlen : (fileOf bin header cs).length = _ := fileOf_length cs
  have hsplit : fileOf bin header cs
      = (writtenOf bin header cs ++ frame (bin.encIndex (indexOf bin header cs)))
        ++ (leBytes 8 (writtenOf bin header cs).length ++ []) := by
    unfold fileOf
    rw [List.append_nil, List.append_assoc]
  have hslice : slice (fileOf bin header cs) ((fileOf bin header cs).length - 8)
      ((fileOf bin header cs).length - 8 + 8) = leBytes 8 (writtenOf bin header cs).length := by
    rw [hlen]
    conv_lhs => rw [hsplit]
    refine slice_mid ?_ ?_
    · rw [List.length_append, frame_length, Nat.add_sub_cancel]
    · rw [leBytes_length]
  rw [hslice]
  exact ofLe_leBytes_of_lt (show _ < 2 ^ 64 by omega)

/-- file は header の塊で始まる。 -/
theorem fileOf_front (cs : List WriteCommand) :
    ∃ rest, fileOf bin header cs = [] ++ (frame (bin.encHeader header) ++ rest) := by
  unfold fileOf writtenOf
  rw [List.append_assoc]
  exact ⟨_, rfl⟩

theorem header_le_written (cs : List WriteCommand) :
    4 + (bin.encHeader header).length ≤ (writtenOf bin header cs).length := by
  unfold writtenOf
  rw [List.length_append, frame_length]
  exact Nat.le_add_right ..

theorem fromDecompressed_fileOf (hvalid : header.validate = .ok ())
    (hheader : (bin.encHeader header).length < 2 ^ 32) (hfits : FileFits bin header cs) :
    RecordingReader.fromDecompressed bin (fileOf bin header cs) = .ok (readerOf bin header cs) := by
  have hlen : (fileOf bin header cs).length = _ := fileOf_length cs
  have hindexLen : slice (fileOf bin header cs) (writtenOf bin header cs).length
      ((writtenOf bin header cs).length + 4)
        = leBytes 4 (bin.encIndex (indexOf bin header cs)).length := slice_frame_len rfl
  have hindexData : slice (fileOf bin header cs) ((writtenOf bin header cs).length + 4)
      ((writtenOf bin header cs).length + 4 + (bin.encIndex (indexOf bin header cs)).length)
        = bin.encIndex (indexOf bin header cs) := slice_frame_data rfl
  obtain ⟨rest, hfront⟩ := @fileOf_front bin header cs
  have hheaderLen : slice (fileOf bin header cs) 0 4 = leBytes 4 (bin.encHeader header).length := by
    rw [hfront]
    exact slice_frame_len rfl
  have hheaderData : slice (fileOf bin header cs) 4 (4 + (bin.encHeader header).length)
      = bin.encHeader header := by
    rw [hfront]
    exact @slice_frame_data [] _ rest 0 rfl
  have hwritten := @header_le_written bin header cs
  unfold RecordingReader.fromDecompressed
  rw [ensure_of (by omega), ok_bind]
  dsimp only
  rw [indexOffset_fileOf hfits.2, ensure_of (by omega), ok_bind, hheaderLen, ofLe_frame_len hheader,
    ensure_of (by omega), ok_bind, hheaderData, bin.decHeader_enc header hheader, okOr_some, ok_bind,
    hvalid, ok_bind, ensure_of (by omega), ok_bind, hindexLen, ofLe_frame_len hfits.1,
    ensure_of (by omega), ok_bind, hindexData, bin.decIndex_enc _ hfits.1, okOr_some, ok_bind]
  show Except.ok _ = Except.ok _
  unfold readerOf base
  rw [frame_length]

/-! ## 写しの範囲 -/

/-- 索引から読む範囲は、書き手の置いた範囲である。 -/
theorem skipRegion_entriesAt {post : Bytes} : ∀ {cs : List WriteCommand} {pre : Bytes} {p : Nat},
    pre.length = p → (pre ++ (body bin p cs ++ post)).length < 2 ^ 64 → (∀ c ∈ cs, c.Fits bin) →
    (entriesAt bin p cs).map (RecordingReader.skipRegion (pre ++ (body bin p cs ++ post)))
      = regionsAt bin p cs
  | [], _, _, _, _, _ => rfl
  | c :: cs, pre, p, hp, hsize, hfits => by
    have hdata : pre ++ (body bin p (c :: cs) ++ post)
        = (pre ++ c.bytes bin p) ++ (body bin (c.next bin p) cs ++ post) := by
      rw [body, List.append_assoc, List.append_assoc]
    have hp' : (pre ++ c.bytes bin p).length = c.next bin p := by
      rw [List.length_append, hp]
      rfl
    have ih := skipRegion_entriesAt hp' (hdata ▸ hsize) fun d hd => hfits d (List.mem_cons_of_mem c hd)
    rw [entriesAt, regionsAt, List.map_append, hdata, ih]
    refine congrArg (· ++ _) ?_
    cases c with
    | event e => rfl
    | keyframe t snapshot =>
      have hfit : snapshot.length < 2 ^ 32 := (hfits _ List.mem_cons_self).1
      have hp64 : p < 2 ^ 64 := by
        rw [List.length_append, hp] at hsize
        omega
      have hsnapshot : (pre ++ WriteCommand.bytes bin p (.keyframe t snapshot))
            ++ (body bin (WriteCommand.next bin p (.keyframe t snapshot)) cs ++ post)
          = pre ++ (frame snapshot ++ (frame (bin.encEvent (WriteCommand.eventAt p (.keyframe t snapshot)))
            ++ (body bin (WriteCommand.next bin p (.keyframe t snapshot)) cs ++ post))) := by
        unfold WriteCommand.bytes WriteCommand.snapshotBytes
        simp only [List.append_assoc]
      rw [hsnapshot]
      show [RecordingReader.skipRegion _ _] = [_]
      refine congrArg (fun r => [r]) ?_
      unfold RecordingReader.skipRegion
      dsimp only
      rw [show (UInt64.ofNat p).toNat = p from UInt64.toNat_ofNat_of_lt' hp64, if_pos,
        slice_frame_len hp, ofLe_frame_len hfit, frame_length, Nat.add_assoc]
      rw [List.length_append, List.length_append, frame_length, hp]
      omega

/-! ## 飛ばす -/

/-- 一つでも落ちる条件は、数が減る。 -/
theorem countP_lt_of_mem {α : Type} {p q : α → Bool} {l : List α} {a : α}
    (h : ∀ x ∈ l, p x = true → q x = true) (ha : a ∈ l) (hp : p a = false) (hq : q a = true) :
    l.countP p < l.countP q := by
  obtain ⟨as, bs, rfl⟩ := List.append_of_mem ha
  have has : as.countP p ≤ as.countP q :=
    List.countP_mono_left fun x hx => h x (List.mem_append_left _ hx)
  have hbs : bs.countP p ≤ bs.countP q :=
    List.countP_mono_left fun x hx => h x (List.mem_append_right _ (List.mem_cons_of_mem a hx))
  rw [List.countP_append, List.countP_append, List.countP_cons, List.countP_cons, hp, hq, if_pos rfl,
    if_neg Bool.false_ne_true]
  omega

namespace EventIterator

/-- 範囲を飛ばし終えた位置は、どの範囲の中にも無い。 -/
theorem inSkipRegion_skip (it : EventIterator) (offset : Nat) :
    it.inSkipRegion (it.skip it.skipRegions.length offset) = none := by
  -- 残りの、まだ終わりに達していない範囲の数が減る
  have hfuel : ∀ (fuel offset : Nat),
      it.skipRegions.countP (fun r => offset < r.2) ≤ fuel →
      it.inSkipRegion (it.skip fuel offset) = none := by
    intro fuel
    induction fuel with
    | zero =>
      intro offset hcount
      have hnone : it.skipRegions.find? (fun x => x.1 ≤ offset && offset < x.2) = none := by
        rw [List.find?_eq_none]
        intro r hr hin
        have hzero := List.countP_eq_zero.mp (Nat.le_zero.mp hcount) r hr
        rw [Bool.and_eq_true] at hin
        exact hzero hin.2
      unfold inSkipRegion
      rw [skip, hnone]
      rfl
    | succ fuel ih =>
      intro offset hcount
      rw [skip]
      cases hskip : it.inSkipRegion offset with
      | none => exact hskip
      | some skipEnd =>
        refine ih skipEnd ?_
        obtain ⟨r, hfind, rfl⟩ := Option.map_eq_some_iff.mp hskip
        have hin := List.find?_some hfind
        rw [Bool.and_eq_true, decide_eq_true_eq, decide_eq_true_eq] at hin
        have hlt : it.skipRegions.countP (fun x => decide (r.2 < x.2))
            < it.skipRegions.countP (fun x => decide (offset < x.2)) := by
          refine countP_lt_of_mem (fun x _ hx => ?_) (List.mem_of_find?_eq_some hfind) ?_ ?_
          · rw [decide_eq_true_eq] at hx ⊢
            exact Nat.lt_trans hin.2 hx
          · exact decide_eq_false (Nat.lt_irrefl _)
          · exact decide_eq_true hin.2
        omega
  exact hfuel _ offset List.countP_le_length

theorem inSkipRegion_eq_none {it : EventIterator} {offset : Nat}
    (h : ∀ r ∈ it.skipRegions, offset < r.1 ∨ r.2 ≤ offset) : it.inSkipRegion offset = none := by
  unfold inSkipRegion
  rw [Option.map_eq_none_iff, List.find?_eq_none]
  intro r hr hin
  rw [Bool.and_eq_true, decide_eq_true_eq, decide_eq_true_eq] at hin
  rcases h r hr with hlt | hle
  · exact absurd hin.1 (Nat.not_le.mpr hlt)
  · exact absurd hin.2 (Nat.not_lt.mpr hle)

theorem skip_of_none {it : EventIterator} {offset : Nat} (h : it.inSkipRegion offset = none) :
    ∀ fuel, it.skip fuel offset = offset
  | 0 => rfl
  | fuel + 1 => by rw [skip, h]

end EventIterator

/-! ## 一つ読む -/

section Next

variable {it : EventIterator} {pre post : Bytes} {p : Nat} {c : WriteCommand}
  {before after : List (Nat × Nat)}

/-- 前後の範囲は、この命令の場所に掛からない。 -/
structure RegionsAround (bin : Bincode) (it : EventIterator) (p : Nat) (c : WriteCommand)
    (before after : List (Nat × Nat)) : Prop where
  regions : it.skipRegions = before ++ (c.regions p ++ after)
  before : ∀ r ∈ before, r.2 ≤ p
  after : ∀ r ∈ after, c.next bin p ≤ r.1

theorem start_lt_next (bin : Bincode) (p : Nat) (c : WriteCommand) :
    p ≤ c.start p ∧ c.start p < c.next bin p := by
  rw [WriteCommand.next_eq]
  exact ⟨Nat.le_add_right .., Nat.lt_add_of_pos_right (by omega)⟩

/-- 出来事の位置は、どの範囲の中にも無い。 -/
theorem RegionsAround.start (h : RegionsAround bin it p c before after) :
    it.inSkipRegion (c.start p) = none := by
  obtain ⟨hle, hlt⟩ := start_lt_next bin p c
  refine EventIterator.inSkipRegion_eq_none ?_
  intro r hr
  rw [h.regions] at hr
  rcases List.mem_append.mp hr with hr | hr
  · exact Or.inr (Nat.le_trans (h.before r hr) hle)
  · rcases List.mem_append.mp hr with hr | hr
    · cases c with
      | event e => cases hr
      | keyframe t snapshot =>
        rw [List.mem_singleton.mp hr]
        exact Or.inr (Nat.le_refl _)
    · exact Or.inl (Nat.lt_of_lt_of_le hlt (h.after r hr))

/-- 写しの位置からは、出来事の位置へ飛ぶ。 -/
theorem RegionsAround.skip (h : RegionsAround bin it p c before after) :
    it.skip it.skipRegions.length p = c.start p := by
  cases c with
  | event e => exact EventIterator.skip_of_none h.start _
  | keyframe t snapshot =>
    have hfind : it.inSkipRegion p = some (p + (frame snapshot).length) := by
      unfold EventIterator.inSkipRegion
      rw [h.regions, List.find?_append]
      have hbefore : before.find? (fun x => decide (x.1 ≤ p) && decide (p < x.2)) = none := by
        rw [List.find?_eq_none]
        intro r hr hin
        rw [Bool.and_eq_true, decide_eq_true_eq, decide_eq_true_eq] at hin
        exact absurd hin.2 (Nat.not_lt.mpr (h.before r hr))
      rw [hbefore, Option.none_or]
      show (List.find? _ ((p, p + (frame snapshot).length) :: after)).map _ = _
      rw [List.find?_cons_of_pos]
      · rfl
      · rw [frame_length]
        simp only [Nat.le_refl, decide_true, Bool.true_and, decide_eq_true_eq]
        omega
    rw [h.regions, List.length_append, List.length_append]
    show it.skip (before.length + (1 + after.length)) p = _
    rw [show before.length + (1 + after.length) = (before.length + after.length) + 1 by omega,
      EventIterator.skip, hfind]
    exact EventIterator.skip_of_none h.start _

/-- 命令の始めか、その出来事の位置から、その出来事を読む。 -/
theorem next_of_command (h : RegionsAround bin it p c before after)
    (hdata : it.data = pre ++ (c.bytes bin p ++ post)) (hp : pre.length = p)
    (hend : c.next bin p ≤ it.endOffset) (hfits : c.Fits bin)
    (hoffset : it.offset = p ∨ it.offset = c.start p) :
    it.next bin = (some (.ok (c.eventAt p)), { it with offset := c.next bin p }) := by
  have hskip : it.skip it.skipRegions.length it.offset = c.start p := by
    rcases hoffset with hoffset | hoffset
    · rw [hoffset]
      exact h.skip
    · rw [hoffset]
      exact EventIterator.skip_of_none h.start _
  have hframe : it.data = (pre ++ c.snapshotBytes) ++ (frame (bin.encEvent (c.eventAt p)) ++ post) := by
    rw [hdata]
    unfold WriteCommand.bytes
    simp only [List.append_assoc]
  have hstart : (pre ++ c.snapshotBytes).length = c.start p := by
    rw [List.length_append, hp]
    rfl
  have hnext := WriteCommand.next_eq bin p c
  have hlen : it.data.length = c.next bin p + post.length := by
    rw [hframe, List.length_append, hstart, List.length_append, frame_length, hnext]
    omega
  have hsliceLen : slice it.data (c.start p) (c.start p + 4)
      = leBytes 4 (bin.encEvent (c.eventAt p)).length := by
    rw [hframe]
    exact slice_frame_len hstart
  have hsliceData : slice it.data (c.start p + 4)
      (c.start p + 4 + (bin.encEvent (c.eventAt p)).length) = bin.encEvent (c.eventAt p) := by
    rw [hframe]
    exact slice_frame_data hstart
  unfold EventIterator.next
  dsimp only
  rw [hskip, if_neg (by omega), if_neg (by omega), hsliceLen, ofLe_frame_len (hfits.event p),
    if_neg (by omega), hsliceData, bin.decEvent_enc _ (hfits.event p)]
  dsimp only
  rw [hnext, Nat.add_assoc]

end Next

/-! ## 終わりまで読む -/

/-- 命令の列の始めから、または最初の出来事の位置から、列の出来事を読む。 -/
theorem yields_of_commands {post : Bytes} {it : EventIterator} {pre : Bytes} {p : Nat}
    {before : List (Nat × Nat)} (hdata : it.data = pre ++ (body bin p cs ++ post))
    (hp : pre.length = p) (hend : it.endOffset = endAt bin p cs)
    (hregions : it.skipRegions = before ++ regionsAt bin p cs) (hbefore : ∀ r ∈ before, r.2 ≤ p)
    (hfits : ∀ c ∈ cs, c.Fits bin)
    (hoffset : it.offset = p ∨ ∃ c, cs.head? = some c ∧ it.offset = c.start p) :
    it.Yields bin (eventsAt bin p cs) := by
  induction cs generalizing it pre p before with
  | nil =>
    have hoffset : it.offset = p := by
      refine hoffset.resolve_right ?_
      rintro ⟨c, hc, -⟩
      cases hc
    have hnone : it.inSkipRegion p = none := by
      refine EventIterator.inSkipRegion_eq_none ?_
      intro r hr
      rw [hregions, regionsAt, List.append_nil] at hr
      exact Or.inr (hbefore r hr)
    refine .done it { it with offset := p } ?_
    unfold EventIterator.next
    dsimp only
    rw [hoffset, EventIterator.skip_of_none hnone, if_pos]
    rw [hend]
    exact Nat.le_refl _
  | cons c cs ih =>
    have hdata' : it.data = pre ++ (c.bytes bin p ++ (body bin (c.next bin p) cs ++ post)) := by
      rw [hdata, body, List.append_assoc]
    have hend' : it.endOffset = endAt bin (c.next bin p) cs := hend.trans (endAt_cons p c cs)
    have hnextEnd : c.next bin p ≤ it.endOffset := by
      rw [hend']
      exact Nat.le_add_right ..
    have haround : RegionsAround bin it p c before (regionsAt bin (c.next bin p) cs) :=
      ⟨hregions, hbefore, fun r hr => (mem_regionsAt hr).1⟩
    have hoffset' : it.offset = p ∨ it.offset = c.start p := by
      refine hoffset.imp_right ?_
      rintro ⟨d, hd, ho⟩
      cases hd
      exact ho
    have hread := next_of_command haround hdata' hp hnextEnd (hfits c List.mem_cons_self) hoffset'
    refine .more it _ _ _ hread ?_
    have hdata'' : it.data = (pre ++ c.bytes bin p) ++ (body bin (c.next bin p) cs ++ post) := by
      rw [List.append_assoc]
      exact hdata'
    have hp'' : (pre ++ c.bytes bin p).length = c.next bin p := by
      rw [List.length_append, hp]
      rfl
    have hregions'' : it.skipRegions = (before ++ c.regions p) ++ regionsAt bin (c.next bin p) cs := by
      rw [List.append_assoc]
      exact hregions
    have hbefore'' : ∀ r ∈ before ++ c.regions p, r.2 ≤ c.next bin p := by
      intro r hr
      rcases List.mem_append.mp hr with hr | hr
      · exact Nat.le_trans (hbefore r hr) (Nat.le_add_right ..)
      · cases c with
        | event e => cases hr
        | keyframe t snapshot =>
          rw [List.mem_singleton.mp hr]
          exact Nat.le_of_lt (start_lt_next bin p (.keyframe t snapshot)).2
    exact ih hdata'' hp'' hend' hregions'' hbefore''
      (fun d hd => hfits d (List.mem_cons_of_mem c hd)) (Or.inl rfl)

/-- 塊の位置から写しを読む。 -/
theorem readSnapshot_frame {r : RecordingReader} {kf : KeyframeEntry} {pre bs post : Bytes}
    (hdata : r.data = pre ++ (frame bs ++ post)) (hp : pre.length = kf.snapshotOffset.toNat)
    (hbs : bs.length < 2 ^ 32) : r.readSnapshot kf = .ok bs := by
  have hlen : r.data.length = kf.snapshotOffset.toNat + (4 + bs.length) + post.length := by
    rw [hdata, List.length_append, List.length_append, frame_length, hp, ← Nat.add_assoc]
  have hsliceLen : slice (pre ++ (frame bs ++ post)) _ _ = _ := slice_frame_len hp
  have hsliceData : slice (pre ++ (frame bs ++ post)) _ _ = _ := slice_frame_data hp
  rw [← hdata] at hsliceLen hsliceData
  unfold RecordingReader.readSnapshot
  dsimp only
  rw [ensure_of (by omega), ok_bind, hsliceLen, ofLe_frame_len hbs, ensure_of (by omega), ok_bind,
    hsliceData]
  rfl

/-- 命令の数は `u64` で書ける。 -/
theorem FileFits.toNat_length (h : FileFits bin header cs) :
    (UInt64.ofNat cs.length).toNat = cs.length := by
  refine UInt64.toNat_ofNat_of_lt' ?_
  have hbody : cs.length ≤ (body bin (base bin header) cs).length := length_le_body cs _
  have hsize := h.2
  rw [fileOf_length, writtenOf_length] at hsize
  unfold endAt at hsize
  show cs.length < 2 ^ 64
  omega

/-! ## 読み戻したもの -/

/-- 命令と、その出来事。keyframe の位置は書き手の決めたものである。 -/
inductive Written : WriteCommand → RecordingEvent → Prop where
  | event (e) : Written (.event e) e
  | keyframe (t snapshot offset) :
    Written (.keyframe t snapshot) (.keyframe t offset (UInt32.ofNat snapshot.length))

/-- 読み手から、書いた命令が読み戻される。 -/
structure ReadsBack (bin : Bincode) (reader : RecordingReader) (commands : List WriteCommand)
    (events : List RecordingEvent) : Prop where
  all : reader.readAllEvents.Yields bin events
  written : List.Forall₂ Written commands events
  totalEvents : reader.index.totalEvents.toNat = commands.length
  entries : reader.index.entries.length = commands.countP WriteCommand.isKeyframe
  /-- 索引の順に、写しと、そこから後ろの出来事が読まれる。 -/
  keyframes : ∀ done t snapshot rest, commands = done ++ .keyframe t snapshot :: rest →
    ∃ kf, reader.index.entries[done.countP WriteCommand.isKeyframe]? = some kf
      ∧ kf.timestampMs = t
      ∧ reader.readSnapshot kf = .ok snapshot
      ∧ events[done.length]? = some (.keyframe t kf.snapshotOffset (UInt32.ofNat snapshot.length))
      ∧ (reader.readEventsFrom kf.eventOffset.toNat).Yields bin (events.drop done.length)

theorem written_eventsAt : ∀ (cs : List WriteCommand) (p : Nat),
    List.Forall₂ Written cs (eventsAt bin p cs)
  | [], _ => .nil
  | c :: cs, p => by
    refine .cons ?_ (written_eventsAt cs _)
    cases c with
    | event e => exact .event e
    | keyframe t snapshot => exact .keyframe t snapshot _

theorem endAt_append (cs ds : List WriteCommand) (p : Nat) :
    endAt bin p (cs ++ ds) = endAt bin (endAt bin p cs) ds := by
  unfold endAt
  rw [body_append, List.length_append, ← Nat.add_assoc]
  rfl

/-- file の、途中の命令より後ろ。 -/
theorem fileOf_split (cs ds : List WriteCommand) :
    fileOf bin header (cs ++ ds)
      = writtenOf bin header cs ++ (body bin (endAt bin (base bin header) cs) ds
        ++ (frame (bin.encIndex (indexOf bin header (cs ++ ds)))
          ++ leBytes 8 (writtenOf bin header (cs ++ ds)).length)) := by
  have hwritten : writtenOf bin header (cs ++ ds)
      = writtenOf bin header cs ++ body bin (endAt bin (base bin header) cs) ds := by
    unfold writtenOf
    rw [body_append, List.append_assoc]
  unfold fileOf
  rw [hwritten]
  simp only [List.append_assoc]

/-- 途中の命令から読む。 -/
theorem readerOf_yields {ds : List WriteCommand} (hfits : FileFits bin header (cs ++ ds))
    (hcommands : ∀ c ∈ cs ++ ds, c.Fits bin) {offset : Nat}
    (hoffset : offset = endAt bin (base bin header) cs
      ∨ ∃ c, ds.head? = some c ∧ offset = c.start (endAt bin (base bin header) cs)) :
    ((readerOf bin header (cs ++ ds)).readEventsFrom offset).Yields bin
      (eventsAt bin (endAt bin (base bin header) cs) ds) := by
  have hregions : ((readerOf bin header (cs ++ ds)).readEventsFrom offset).skipRegions
      = regionsAt bin (base bin header) (cs ++ ds) := by
    show (entriesAt bin (base bin header) (cs ++ ds)).map
      (RecordingReader.skipRegion (fileOf bin header (cs ++ ds))) = _
    have hdata : fileOf bin header (cs ++ ds) = frame (bin.encHeader header)
        ++ (body bin (base bin header) (cs ++ ds)
          ++ (frame (bin.encIndex (indexOf bin header (cs ++ ds)))
            ++ leBytes 8 (writtenOf bin header (cs ++ ds)).length)) := by
      unfold fileOf
      rw [writtenOf, List.append_assoc]
    have hsize := hfits.2
    rw [hdata] at hsize ⊢
    exact skipRegion_entriesAt rfl hsize hcommands
  refine yields_of_commands (fileOf_split cs ds) (writtenOf_length cs) ?_
    (hregions.trans (regionsAt_append cs ds _)) (fun r hr => (mem_regionsAt hr).2)
    (fun c hc => hcommands c (List.mem_append_right _ hc)) hoffset
  show (writtenOf bin header (cs ++ ds)).length = _
  rw [writtenOf_length, endAt_append]

/-- 書き終えた file からは、書いた命令が読み戻される。 -/
theorem readsBack_readerOf (hfits : FileFits bin header cs) (hcommands : ∀ c ∈ cs, c.Fits bin) :
    ReadsBack bin (readerOf bin header cs) cs (eventsAt bin (base bin header) cs) where
  all := @readerOf_yields bin header [] cs hfits hcommands _ (Or.inl rfl)
  written := written_eventsAt cs _
  totalEvents := hfits.toNat_length
  entries := entriesAt_length cs _
  keyframes := by
    rintro done t snapshot rest rfl
    have hsplit : fileOf bin header (done ++ .keyframe t snapshot :: rest) = _ := fileOf_split done _
    have hsize := hfits.2
    have hsnapshot : snapshot.length < 2 ^ 32 :=
      (hcommands (.keyframe t snapshot) (List.mem_append_right _ List.mem_cons_self)).1
    generalize hq : endAt bin (base bin header) done = q at hsplit
    have hwritten : (writtenOf bin header done).length = q := (writtenOf_length done).trans hq
    -- 写しの塊の前後
    obtain ⟨post, hdata⟩ : ∃ post, fileOf bin header (done ++ .keyframe t snapshot :: rest)
        = writtenOf bin header done ++ (frame snapshot ++ post) := by
      rw [hsplit, body]
      unfold WriteCommand.bytes WriteCommand.snapshotBytes
      simp only [List.append_assoc]
      exact ⟨_, rfl⟩
    have hlen : q + (4 + snapshot.length)
        ≤ (fileOf bin header (done ++ .keyframe t snapshot :: rest)).length := by
      rw [hdata, List.length_append, List.length_append, frame_length, hwritten]
      omega
    have hq64 : (UInt64.ofNat q).toNat = q := UInt64.toNat_ofNat_of_lt' (show q < 2 ^ 64 by omega)
    have hevent64 : (UInt64.ofNat (q + (frame snapshot).length)).toNat = q + (frame snapshot).length := by
      refine UInt64.toNat_ofNat_of_lt' ?_
      rw [frame_length]
      show _ < 2 ^ 64
      omega
    refine ⟨⟨t, UInt64.ofNat (q + (frame snapshot).length), UInt64.ofNat q⟩, ?_, rfl, ?_, ?_, ?_⟩
    · show (entriesAt bin (base bin header) (done ++ .keyframe t snapshot :: rest))[_]? = _
      rw [entriesAt_append, ← @entriesAt_length bin done (base bin header),
        List.getElem?_append_right (Nat.le_refl _), Nat.sub_self, hq]
      rfl
    · exact readSnapshot_frame (r := readerOf ..) hdata (hwritten.trans hq64.symm) hsnapshot
    · rw [eventsAt_append, List.getElem?_append_right (by rw [eventsAt_length]), eventsAt_length,
        Nat.sub_self, hq]
      rfl
    · have hyields := @readerOf_yields bin header done _ hfits hcommands (q + (frame snapshot).length)
        (Or.inr ⟨.keyframe t snapshot, rfl, by rw [hq]; rfl⟩)
      rw [hevent64, eventsAt_append, List.drop_left' (eventsAt_length done _)]
      exact hyields

/-! ## 続き -/

/-- 呼び出しの列の命令。 -/
def sessionCommands (sessions : List (List RecordCall)) : List WriteCommand :=
  sessions.flatten.filterMap RecordCall.command

theorem sessionCommands_cons (calls : List RecordCall) (sessions : List (List RecordCall)) :
    sessionCommands (calls :: sessions)
      = calls.filterMap RecordCall.command ++ sessionCommands sessions := by
  unfold sessionCommands
  rw [List.flatten_cons, List.filterMap_append]

/-- 続きの録画は、前の録画の命令の後から始まる。 -/
theorem Wrote.resume (hfits : FileFits bin header cs) :
    Wrote bin header cs (.resume (writtenOf bin header cs) (indexOf bin header cs)) where
  written := rfl
  currentOffset := rfl
  entries := rfl
  eventCount := hfits.toNat_length
  lastTimestampMs := rfl

section Sessions

variable {zstd : Zstd}

theorem openFile_fileOf {cs : List WriteCommand} {level : Int} (hvalid : header.validate = .ok ())
    (hheader : (bin.encHeader header).length < 2 ^ 32) (hfits : FileFits bin header cs) :
    RecordingReader.openFile bin zstd (zstd.compress level (fileOf bin header cs))
      = .ok (readerOf bin header cs) := by
  unfold RecordingReader.openFile
  rw [zstd.decompress_compress, okOr_some, ok_bind]
  exact fromDecompressed_fileOf hvalid hheader hfits

/-- 新しい録画。 -/
theorem record_eq (level : Int) (calls : List RecordCall) :
    record bin zstd level header calls
      = zstd.compress level (fileOf bin header (calls.filterMap RecordCall.command)) :=
  congrArg (zstd.compress level) (Wrote.commands Wrote.create).finish

/-- 一つの続き。 -/
theorem resume_eq {cs : List WriteCommand} {level : Int} {calls : List RecordCall}
    (hvalid : header.validate = .ok ()) (hheader : (bin.encHeader header).length < 2 ^ 32)
    (hfits : FileFits bin header cs) :
    resume bin zstd (zstd.compress level (fileOf bin header cs)) calls
      = .ok (zstd.compress 3 (fileOf bin header (cs ++ calls.filterMap RecordCall.command))) := by
  unfold resume
  rw [openFile_fileOf hvalid hheader hfits, ok_bind]
  have hparts : (readerOf bin header cs).intoResumeParts
      = (writtenOf bin header cs, header, indexOf bin header cs) := by
    unfold RecordingReader.intoResumeParts
    refine Prod.ext ?_ rfl
    show (fileOf bin header cs).take (writtenOf bin header cs).length = writtenOf bin header cs
    unfold fileOf
    exact List.take_left
  rw [hparts]
  exact congrArg Except.ok (congrArg (zstd.compress 3) (Wrote.commands (Wrote.resume hfits)).finish)

/-- いくつもの続き。 -/
theorem foldlM_resume (hvalid : header.validate = .ok ())
    (hheader : (bin.encHeader header).length < 2 ^ 32) : ∀ {rest : List (List RecordCall)}
    {cs : List WriteCommand} (level : Int),
    (∀ k ≤ rest.length, FileFits bin header (cs ++ sessionCommands (rest.take k))) →
    ∃ level', rest.foldlM (resume bin zstd) (zstd.compress level (fileOf bin header cs))
      = .ok (zstd.compress level' (fileOf bin header (cs ++ sessionCommands rest)))
  | [], cs, level, _ => by
    refine ⟨level, ?_⟩
    show Except.ok _ = _
    rw [show sessionCommands [] = [] from rfl, List.append_nil]
  | calls :: rest, cs, level, hfits => by
    have hfits₀ : FileFits bin header cs := by
      have h := hfits 0 (Nat.zero_le _)
      rwa [show sessionCommands ((calls :: rest).take 0) = [] from rfl, List.append_nil] at h
    have hfits' : ∀ k ≤ rest.length, FileFits bin header
        (cs ++ calls.filterMap RecordCall.command ++ sessionCommands (rest.take k)) := by
      intro k hk
      have h := hfits (k + 1) (Nat.succ_le_succ hk)
      rwa [List.take_succ_cons, sessionCommands_cons, ← List.append_assoc] at h
    obtain ⟨level', hrest⟩ := foldlM_resume hvalid hheader 3 hfits'
    refine ⟨level', ?_⟩
    rw [List.foldlM_cons, resume_eq hvalid hheader hfits₀, ok_bind, hrest, sessionCommands_cons,
      List.append_assoc]

end Sessions

/-- 録画とその続きは、最後の file から読み戻される。 -/
theorem recording_reads_back (bin : Bincode) (zstd : Zstd) (level : Int) (cols rows : UInt16)
    (createdAt : DateTime) (agentName sessionId agentRole : String) (first : List RecordCall)
    (rest : List (List RecordCall))
    (hheader : (bin.encHeader
      (.new cols rows createdAt agentName sessionId agentRole)).length < 2 ^ 32)
    (hcommands : ∀ c ∈ sessionCommands (first :: rest), c.Fits bin)
    (hfiles : ∀ k ≤ rest.length, FileFits bin (.new cols rows createdAt agentName sessionId agentRole)
      (sessionCommands (first :: rest.take k))) :
    ∃ file reader events,
      recordSessions bin zstd level (.new cols rows createdAt agentName sessionId agentRole) first rest
        = .ok file
      ∧ RecordingReader.openFile bin zstd file = .ok reader
      ∧ reader.header = .new cols rows createdAt agentName sessionId agentRole
      ∧ ReadsBack bin reader (sessionCommands (first :: rest)) events := by
  have hvalid := RecordingHeader.validate_new cols rows createdAt agentName sessionId agentRole
  generalize RecordingHeader.new cols rows createdAt agentName sessionId agentRole = header at *
  have hfiles' : ∀ k ≤ rest.length, FileFits bin header
      (first.filterMap RecordCall.command ++ sessionCommands (rest.take k)) := by
    intro k hk
    rw [← sessionCommands_cons]
    exact hfiles k hk
  obtain ⟨level', hrest⟩ := @foldlM_resume bin header zstd hvalid hheader rest _ level hfiles'
  have hlast : FileFits bin header (sessionCommands (first :: rest)) := by
    have h := hfiles rest.length (Nat.le_refl _)
    rwa [List.take_length] at h
  rw [← sessionCommands_cons] at hrest
  refine ⟨zstd.compress level' (fileOf bin header (sessionCommands (first :: rest))), _, _, ?_,
    openFile_fileOf hvalid hheader hlast, rfl, readsBack_readerOf hlast hcommands⟩
  unfold recordSessions
  rw [record_eq, hrest]

theorem length_encEvent_keyframe (t offset : UInt64) (size : UInt32) :
    (bincode.encEvent (.keyframe t offset size)).length = 24 := by
  show (leBytes 4 _ ++ (leBytes 8 _ ++ (leBytes 8 _ ++ leBytes 4 _))).length = 24
  simp only [List.length_append, leBytes_length]

/-- 2024 年の始め。 -/
def startOf2024 : DateTime :=
  ⟨2024, 0, 0, 0, by decide, by decide, by decide, by decide, by decide⟩

/-- 出来事に見える写しと、空の写しと、空の続き。 -/
theorem recording_reads_back_resumed :
    let snapshot := bincode.encEvent (.resize 2 80 24)
    let first := [.writeOutput 1 [104, 105], .writeKeyframe 2 snapshot]
    let rest := [[.writeResize 3 100 40, .writeKeyframe 4 []], [.writeOutput 5 []]]
    ∃ file reader events,
      recordSessions bincode stored 3 (.new 80 24 startOf2024 "" "" "") first rest = .ok file
      ∧ RecordingReader.openFile bincode stored file = .ok reader
      ∧ reader.header = .new 80 24 startOf2024 "" "" ""
      ∧ ReadsBack bincode reader (sessionCommands (first :: rest)) events := by
  refine recording_reads_back bincode stored 3 80 24 startOf2024 "" "" "" _ _ (by decide) ?_ ?_
  · intro c hc
    have hc : c ∈ [WriteCommand.event (.output 1 [104, 105]),
      .keyframe 2 (bincode.encEvent (.resize 2 80 24)), .event (.resize 3 100 40), .keyframe 4 []] := hc
    have hkeyframe : ∀ t snapshot p,
        (bincode.encEvent (.keyframe t p (UInt32.ofNat snapshot))).length < 2 ^ 32 := by
      intro t snapshot p
      rw [length_encEvent_keyframe]
      decide
    rcases List.mem_cons.mp hc with rfl | hc
    · show (bincode.encEvent _).length < 2 ^ 32
      decide
    rcases List.mem_cons.mp hc with rfl | hc
    · exact ⟨by decide, hkeyframe 2 _⟩
    rcases List.mem_cons.mp hc with rfl | hc
    · show (bincode.encEvent _).length < 2 ^ 32
      decide
    rw [List.mem_singleton.mp hc]
    exact ⟨by decide, hkeyframe 4 _⟩
  · unfold FileFits
    decide +kernel

/-! ## 長い header -/

/-- 役の名が `n` byte の header。 -/
def longHeader (n : Nat) : RecordingHeader :=
  .new 80 24 startOf2024 "" "" (String.ofList (List.replicate n 'w'))

theorem length_toUTF8_replicate (n : Nat) :
    (String.ofList (List.replicate n 'w')).toUTF8.data.toList.length = n := by
  show ((List.replicate n 'w').flatMap String.utf8EncodeChar).toByteArray.size = n
  rw [List.size_toByteArray, List.flatMap_replicate, List.length_flatten, List.map_replicate,
    List.sum_replicate_nat]
  exact Nat.mul_one n

/-- 名の長さまでで切れた header は読めない。 -/
theorem decHeader_cut (f : List.Vector UInt8 8 × UInt16 × UInt16 × UInt16 × DateTime × String × String)
    {n : Nat} (hf : (ByteCodec.headerFront.enc f).length < 2 ^ 64) (hn : 0 < n) (hn64 : n < 2 ^ 64) :
    bincode.decHeader (ByteCodec.headerFront.enc f ++ leBytes 8 n) = none := by
  have hname : ByteCodec.string.dec (leBytes 8 n) = none :=
    ByteCodec.map_dec_of_none (ByteCodec.bytes_dec_leBytes hn hn64)
  have hpair := ByteCodec.pair_dec_of_none (ByteCodec.headerFront.dec_enc f _ hf) hname
  have hheader : ByteCodec.recordingHeader.dec (ByteCodec.headerFront.enc f ++ leBytes 8 n) = none :=
    ByteCodec.map_dec_of_none hpair
  show (ByteCodec.recordingHeader.dec _).map Prod.fst = none
  rw [hheader]
  rfl

/-- 役の名を除いた欄。 -/
def longHeaderFront : List.Vector UInt8 8 × UInt16 × UInt16 × UInt16 × DateTime × String × String :=
  (magic, formatVersion, 80, 24, startOf2024, "", "")

theorem length_headerFront : (ByteCodec.headerFront.enc longHeaderFront).length = 58 := by
  decide

theorem encHeader_longHeader (n : Nat) : ∃ name : Bytes, name.length = n
    ∧ bincode.encHeader (longHeader n)
      = (ByteCodec.headerFront.enc longHeaderFront ++ leBytes 8 n) ++ name := by
  refine ⟨(String.ofList (List.replicate n 'w')).toUTF8.data.toList, length_toUTF8_replicate n, ?_⟩
  show ByteCodec.headerFront.enc longHeaderFront
    ++ (leBytes 8 (String.ofList (List.replicate n 'w')).toUTF8.data.toList.length
      ++ (String.ofList (List.replicate n 'w')).toUTF8.data.toList) = _
  rw [length_toUTF8_replicate, List.append_assoc]

theorem length_encHeader_longHeader (n : Nat) :
    (bincode.encHeader (longHeader n)).length = 66 + n := by
  obtain ⟨name, hname, henc⟩ := encHeader_longHeader n
  rw [henc, List.length_append, List.length_append, length_headerFront, leBytes_length, hname]

/-- 長さの下の 32 bit が header の長さまでしか無いと、開けない。 -/
theorem openFile_longHeader {n : Nat} (hn : 0 < n) (hn63 : n < 2 ^ 63) (hmod : n % 2 ^ 32 = 0) :
    RecordingReader.openFile bincode stored (record bincode stored 3 (longHeader n) [])
      = .error .bincode := by
  obtain ⟨name, hname, henc⟩ := encHeader_longHeader n
  have hfront : (ByteCodec.headerFront.enc longHeaderFront ++ leBytes 8 n).length = 66 := by
    rw [List.length_append, length_headerFront, leBytes_length]
  have hheader := length_encHeader_longHeader n
  have hcut : bincode.decHeader (ByteCodec.headerFront.enc longHeaderFront ++ leBytes 8 n) = none :=
    decHeader_cut _ (by rw [length_headerFront]; decide) hn (Nat.lt_trans hn63 (by decide))
  have hwritten : (writtenOf bincode (longHeader n) []).length = 4 + (66 + n) := by
    unfold writtenOf
    rw [show body bincode (base bincode (longHeader n)) [] = [] from rfl, List.append_nil, frame_length,
      hheader]
  have hindex : (bincode.encIndex (indexOf bincode (longHeader n) [])).length = 24 := by
    show ((leBytes 8 _ ++ []) ++ (leBytes 8 _ ++ leBytes 8 _)).length = 24
    simp only [List.length_append, List.length_nil, leBytes_length]
  have hlen : (fileOf bincode (longHeader n) []).length = _ := fileOf_length []
  rw [hwritten, hindex] at hlen
  obtain ⟨rest, hfile⟩ := @fileOf_front bincode (longHeader n) []
  -- header の長さは 66 と読まれ、名の手前で切れる
  have hheaderLen : ofLe (slice (fileOf bincode (longHeader n) []) 0 4) = 66 := by
    rw [hfile, @slice_frame_len [] _ rest 0 rfl, hheader, ofLe_leBytes]
    show (66 + n) % 2 ^ 32 = 66
    omega
  have hheaderData : slice (fileOf bincode (longHeader n) []) 4 (4 + 66)
      = ByteCodec.headerFront.enc longHeaderFront ++ leBytes 8 n := by
    have hsplit : fileOf bincode (longHeader n) [] = leBytes 4 (bincode.encHeader (longHeader n)).length
        ++ ((ByteCodec.headerFront.enc longHeaderFront ++ leBytes 8 n) ++ (name ++ rest)) := by
      rw [hfile, frame]
      conv_lhs => rw [henc]
      simp only [List.nil_append, List.append_assoc, henc]
    rw [hsplit]
    exact slice_mid (leBytes_length 4 _) (by rw [hfront])
  show (okOr (stored.decompress _) _ >>= RecordingReader.fromDecompressed bincode) = _
  rw [record_eq, show (stored.decompress (stored.compress 3
    (fileOf bincode (longHeader n) ([].filterMap RecordCall.command)))) = some _ from rfl, okOr_some,
    ok_bind]
  show RecordingReader.fromDecompressed bincode (fileOf bincode (longHeader n) []) = _
  unfold RecordingReader.fromDecompressed
  rw [ensure_of (by omega), ok_bind]
  dsimp only
  rw [indexOffset_fileOf (by omega), hwritten, ensure_of (by omega), ok_bind, hheaderLen,
    ensure_of (by omega), ok_bind, hheaderData, hcut]
  rfl

theorem decHeader_longHeader {n : Nat} (hn63 : n < 2 ^ 63) :
    bincode.decHeader (bincode.encHeader (longHeader n)) = some (longHeader n) := by
  have hlen := length_encHeader_longHeader n
  rw [bincode_encHeader] at hlen
  rw [bincode_decHeader, bincode_encHeader]
  refine map_fst_dec_enc ByteCodec.recordingHeader ?_
  rw [hlen]
  omega

/-- header の長さは下の 32 bit だけが書かれる。役の名が `2 ^ 32` byte の録画は、bincode が header を読み戻せても開けない。 -/
theorem long_header_unreadable :
    bincode.decHeader (bincode.encHeader (longHeader (2 ^ 32))) = some (longHeader (2 ^ 32))
      ∧ recordSessions bincode stored 3 (longHeader (2 ^ 32)) [] []
        = .ok (record bincode stored 3 (longHeader (2 ^ 32)) [])
      ∧ RecordingReader.openFile bincode stored (record bincode stored 3 (longHeader (2 ^ 32)) [])
        = .error .bincode := by
  refine ⟨@decHeader_longHeader (2 ^ 32) ?_, ?_, @openFile_longHeader (2 ^ 32) ?_ ?_ ?_⟩
  · decide
  · rfl
  · decide
  · decide
  · decide

end Cassy.Recording
