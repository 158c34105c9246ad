import Cassy.Infra.Matcher
import Cassy.Mux.InputStream

/-!
# 貼り付けの区間

流れの全体を一度に見る基準の走査は、最初の `ESC[200~` から、その後の最初の `ESC[201~` までを貼り付けの区間とし、
その後ろから同じことを繰り返す。閉じられない区間は流れの終わりまで続く。

一つずつ受け取る照合は、この区間の外の改行だけを打鍵と言う。だから、流れがどこで切れて届いても答は変わらない。
-/

namespace Cassy

open Infra

variable {r : Bytes × Bytes} {offset : Nat} {stream : Bytes}

/-! ## 基準の走査 -/

/-- 区切りで切った残りは短い。 -/
theorem length_lt_of_cutAt {pat t : Bytes} (hpat : pat ≠ []) (h : cutAt pat t = some r) :
    r.2.length < t.length := by
  have hlen := congrArg List.length (cutAt_eq_some h)
  have hpos := List.length_pos_iff.mpr hpat
  rw [List.length_append, List.length_append] at hlen
  omega

/-- 貼り付けの区間。始まりは含み、終わりは含まない。`offset` は `stream` の前にある byte の数である。 -/
def pasteRegions (offset : Nat) (stream : Bytes) : List (Nat × Nat) :=
  match _h : cutAt pasteStart stream with
  | none => []
  | some r =>
    let start := offset + r.1.length
    let inner := start + pasteStart.length
    match _h' : cutAt pasteEnd r.2 with
    | none => [(start, inner + r.2.length)]
    | some r' =>
      let stop := inner + r'.1.length + pasteEnd.length
      (start, stop) :: pasteRegions stop r'.2
termination_by stream.length
decreasing_by
  have hstart := length_lt_of_cutAt (by decide) _h
  have hend := length_lt_of_cutAt (by decide) _h'
  omega

/-- その位置は貼り付けの区間の中にある。 -/
def InPasteRegion (offset : Nat) (stream : Bytes) (i : Nat) : Prop :=
  ∃ r ∈ pasteRegions offset stream, r.1 ≤ i ∧ i < r.2

theorem pasteRegions_of_none (h : cutAt pasteStart stream = none) :
    pasteRegions offset stream = [] := by
  unfold pasteRegions
  split
  · rfl
  · next hsome => rw [h] at hsome; cases hsome

theorem pasteRegions_of_open (h : cutAt pasteStart stream = some r) (h' : cutAt pasteEnd r.2 = none) :
    pasteRegions offset stream
      = [(offset + r.1.length, offset + r.1.length + pasteStart.length + r.2.length)] := by
  unfold pasteRegions
  split
  · next hnone => rw [h] at hnone; cases hnone
  · next hsome =>
    rw [h] at hsome
    cases hsome
    split
    · rfl
    · next hclosed => rw [h'] at hclosed; cases hclosed

theorem pasteRegions_of_closed {r' : Bytes × Bytes} (h : cutAt pasteStart stream = some r)
    (h' : cutAt pasteEnd r.2 = some r') :
    pasteRegions offset stream
      = (offset + r.1.length,
          offset + r.1.length + pasteStart.length + r'.1.length + pasteEnd.length)
        :: pasteRegions
          (offset + r.1.length + pasteStart.length + r'.1.length + pasteEnd.length) r'.2 := by
  rw [pasteRegions]
  split
  · next hnone => rw [h] at hnone; cases hnone
  · next hsome =>
    rw [h] at hsome
    cases hsome
    split
    · next hopen => rw [h'] at hopen; cases hopen
    · next hclosed =>
      rw [h'] at hclosed
      cases hclosed
      rfl

/-- 区間は、見ている流れの後ろにしか無い。 -/
theorem le_of_mem_pasteRegions {r : Nat × Nat} : ∀ {n offset : Nat} {stream : Bytes},
    stream.length ≤ n → r ∈ pasteRegions offset stream → offset ≤ r.1 := by
  intro n
  induction n with
  | zero =>
    intro offset stream hlen hr
    rw [List.length_eq_zero_iff.mp (Nat.le_zero.mp hlen), pasteRegions_of_none rfl] at hr
    cases hr
  | succ n ih =>
    intro offset stream hlen hr
    cases hstart : cutAt pasteStart stream with
    | none =>
      rw [pasteRegions_of_none hstart] at hr
      cases hr
    | some s =>
      have hs := length_lt_of_cutAt (by decide) hstart
      cases hend : cutAt pasteEnd s.2 with
      | none =>
        rw [pasteRegions_of_open hstart hend, List.mem_singleton] at hr
        rw [hr]
        exact Nat.le_add_right ..
      | some e =>
        have he := length_lt_of_cutAt (by decide) hend
        rw [pasteRegions_of_closed hstart hend] at hr
        rcases List.mem_cons.mp hr with rfl | hr
        · exact Nat.le_add_right ..
        · have := ih (by omega) hr
          omega

/-! ## 一歩の照合 -/

namespace PasteTrackState

/-- 貼り付けの外での一歩は、始まりの区切りを一つ照合する。 -/
theorem feedByte_normal {p : Nat} (b : UInt8) (hp : p < pasteStart.length) :
    feedByte (.normal p) b = if advance pasteStart p b = pasteStart.length then (.paste, .inPaste 0)
      else (.key, .normal (advance pasteStart p b)) := by
  have hvalue : feedByteWithin 2 (.normal p) b
      = some (if advance pasteStart p b = pasteStart.length then (.paste, .inPaste 0)
        else (.key, .normal (advance pasteStart p b))) := by
    unfold feedByteWithin feedNormal advance
    by_cases hmatch : pasteStart[p]? = some b
    · rw [if_pos hmatch, if_pos hmatch]
      split <;> rfl
    · rw [if_neg hmatch, if_neg hmatch]
      by_cases hzero : 0 < p
      · rw [if_pos hzero]
        unfold feedByteWithin feedNormal
        by_cases hhead : pasteStart.head? = some b
        · rw [if_pos hhead, if_pos (show pasteStart[0]? = some b from hhead)]
          rfl
        · rw [if_neg hhead, if_neg (show ¬ pasteStart[0]? = some b from hhead)]
          rfl
      · obtain rfl : p = 0 := Nat.eq_zero_of_not_pos hzero
        rw [if_neg (show ¬ pasteStart.head? = some b from hmatch)]
        rfl
  unfold feedByte
  simp only [hvalue, Option.get_some]

/-- 貼り付けの中での一歩は、終わりの区切りを一つ照合する。 -/
theorem feedByte_inPaste (p : Nat) (b : UInt8) :
    feedByte (.inPaste p) b = (.paste, if advance pasteEnd p b = pasteEnd.length then .normal 0
      else .inPaste (advance pasteEnd p b)) := by
  show feedInPaste p b = _
  unfold feedInPaste advance
  by_cases hmatch : pasteEnd[p]? = some b
  · rw [if_pos hmatch, if_pos hmatch]
    split <;> rfl
  · rw [if_neg hmatch, if_neg hmatch]
    by_cases hhead : pasteEnd.head? = some b
    · rw [if_pos (show pasteEnd[0]? = some b from hhead), if_pos (show pasteEnd[0]? = some b from hhead),
        if_pos hhead, ite_self]
      rfl
    · rw [if_neg (show ¬ pasteEnd[0]? = some b from hhead),
        if_neg (show ¬ pasteEnd[0]? = some b from hhead), if_neg hhead]
      by_cases hzero : 0 < p
      · rw [if_pos hzero]
        rfl
      · rw [if_neg hzero, Nat.eq_zero_of_not_pos hzero]
        rfl

end PasteTrackState

/-! ## 流れの照合 -/

namespace BracketedPasteTracker

variable {t : BracketedPasteTracker}

theorem feedBytes_cons (b : UInt8) (bs : Bytes) :
    t.feedBytes (b :: bs) = ((t.state.feedByte b).1
      :: (feedBytes { state := (t.state.feedByte b).2 } bs).1,
      (feedBytes { state := (t.state.feedByte b).2 } bs).2) := rfl

theorem length_feedBytes (bs : Bytes) : (t.feedBytes bs).1.length = bs.length := by
  induction bs generalizing t with
  | nil => rfl
  | cons b bs ih => rw [feedBytes_cons, List.length_cons, ih, List.length_cons]

theorem feedBytes_append (xs ys : Bytes) :
    t.feedBytes (xs ++ ys) = ((t.feedBytes xs).1 ++ ((t.feedBytes xs).2.feedBytes ys).1,
      ((t.feedBytes xs).2.feedBytes ys).2) := by
  induction xs generalizing t with
  | nil => rfl
  | cons b xs ih => rw [List.cons_append, feedBytes_cons, ih, feedBytes_cons, List.cons_append]

/-- 外から始めた流れは、始まりの区切りの最後の一つまで打鍵である。 -/
theorem feedBytes_normal {p : Nat} (hp : p < pasteStart.length) (bs : Bytes) :
    (feedBytes { state := .normal p } bs).1 = match seek pasteStart p bs with
      | none => List.replicate bs.length .key
      | some r => List.replicate (r.1.length - 1) .key
        ++ .paste :: (feedBytes { state := .inPaste 0 } r.2).1 := by
  induction bs generalizing p with
  | nil => rfl
  | cons b bs ih =>
    rw [feedBytes_cons, seek]
    dsimp only
    rw [PasteTrackState.feedByte_normal b hp]
    by_cases hlast : advance pasteStart p b = pasteStart.length
    · rw [if_pos hlast, if_pos hlast]
      rfl
    · have hle : advance pasteStart p b ≤ pasteStart.length := advance_le p b hp
      rw [if_neg hlast, if_neg hlast, ih (Nat.lt_of_le_of_ne hle hlast)]
      cases hseek : seek pasteStart (advance pasteStart p b) bs with
      | none => rfl
      | some r =>
        have hpos := List.length_pos_iff.mpr (seek_ne_nil hseek)
        dsimp only [Option.map_some]
        rw [List.length_cons, Nat.add_sub_cancel, ← List.cons_append, ← List.replicate_succ,
          Nat.sub_add_cancel hpos]

/-- 中から始めた流れは、終わりの区切りまで貼り付けである。 -/
theorem feedBytes_inPaste {p : Nat} (hp : p < pasteEnd.length) (bs : Bytes) :
    (feedBytes { state := .inPaste p } bs).1 = match seek pasteEnd p bs with
      | none => List.replicate bs.length .paste
      | some r => List.replicate r.1.length .paste ++ (feedBytes { state := .normal 0 } r.2).1 := by
  induction bs generalizing p with
  | nil => rfl
  | cons b bs ih =>
    rw [feedBytes_cons, seek]
    dsimp only
    rw [PasteTrackState.feedByte_inPaste p b]
    by_cases hlast : advance pasteEnd p b = pasteEnd.length
    · rw [if_pos hlast, if_pos hlast]
      rfl
    · have hle : advance pasteEnd p b ≤ pasteEnd.length := advance_le p b hp
      rw [if_neg hlast, if_neg hlast, ih (Nat.lt_of_le_of_ne hle hlast)]
      cases seek pasteEnd (advance pasteEnd p b) bs with
      | none => rfl
      | some r => rfl

theorem feedBytes_of_none {bs : Bytes} (h : cutAt pasteStart bs = none) :
    (feedBytes {} bs).1 = List.replicate bs.length .key := by
  have hseek : seek pasteStart 0 bs = none := by
    rw [pasteStart, seek_eq (by decide) bs 0 (Nat.zero_le _), List.take_zero, List.nil_append]
    rw [pasteStart] at h
    rw [h]
    rfl
  rw [show ({} : BracketedPasteTracker) = { state := .normal 0 } from rfl,
    feedBytes_normal (by decide), hseek]

theorem feedBytes_of_some {bs : Bytes} {r : Bytes × Bytes} (h : cutAt pasteStart bs = some r) :
    (feedBytes {} bs).1 = List.replicate (r.1.length + 5) .key
      ++ .paste :: (feedBytes { state := .inPaste 0 } r.2).1 := by
  have hseek : seek pasteStart 0 bs = some (r.1 ++ pasteStart, r.2) := by
    rw [pasteStart] at h ⊢
    rw [seek_eq (by decide) bs 0 (Nat.zero_le _), List.take_zero, List.nil_append, h]
    rfl
  rw [show ({} : BracketedPasteTracker) = { state := .normal 0 } from rfl,
    feedBytes_normal (by decide), hseek]
  dsimp only
  rw [List.length_append]
  rfl

theorem feedBytes_open {bs : Bytes} (h : cutAt pasteEnd bs = none) :
    (feedBytes { state := .inPaste 0 } bs).1 = List.replicate bs.length .paste := by
  have hseek : seek pasteEnd 0 bs = none := by
    rw [pasteEnd] at h ⊢
    rw [seek_eq (by decide) bs 0 (Nat.zero_le _), List.take_zero, List.nil_append, h]
    rfl
  rw [feedBytes_inPaste (by decide), hseek]

theorem feedBytes_closed {bs : Bytes} {r : Bytes × Bytes} (h : cutAt pasteEnd bs = some r) :
    (feedBytes { state := .inPaste 0 } bs).1 = List.replicate (r.1.length + 6) .paste
      ++ (feedBytes {} r.2).1 := by
  have hseek : seek pasteEnd 0 bs = some (r.1 ++ pasteEnd, r.2) := by
    rw [pasteEnd] at h ⊢
    rw [seek_eq (by decide) bs 0 (Nat.zero_le _), List.take_zero, List.nil_append, h]
    rfl
  rw [feedBytes_inPaste (by decide), hseek]
  dsimp only
  rw [List.length_append]
  rfl

end BracketedPasteTracker

/-! ## 区間と切り口 -/

/-- 切り口の後ろは、残りの列である。 -/
theorem getElem?_of_cutAt {pat t : Bytes} (h : cutAt pat t = some r) (j : Nat) :
    t[r.1.length + pat.length + j]? = r.2[j]? := by
  rw [cutAt_eq_some h, ← List.append_assoc,
    List.getElem?_append_right (by rw [List.length_append]; exact Nat.le_add_right ..),
    List.length_append, Nat.add_sub_cancel_left]

/-- 切り口そのものは区切りである。 -/
theorem mem_of_cutAt {pat t : Bytes} {i : Nat} {b : UInt8} (h : cutAt pat t = some r)
    (hlo : r.1.length ≤ i) (hhi : i < r.1.length + pat.length) (hi : t[i]? = some b) : b ∈ pat := by
  rw [cutAt_eq_some h, List.getElem?_append_right hlo,
    List.getElem?_append_left (by omega)] at hi
  exact List.mem_of_getElem? hi

theorem not_inPasteRegion_of_none {i : Nat} (h : cutAt pasteStart stream = none) :
    ¬ InPasteRegion offset stream i := by
  rintro ⟨r, hr, -⟩
  rw [pasteRegions_of_none h] at hr
  cases hr

theorem inPasteRegion_open {i : Nat} (h : cutAt pasteStart stream = some r)
    (h' : cutAt pasteEnd r.2 = none) :
    InPasteRegion offset stream i ↔ offset + r.1.length ≤ i
      ∧ i < offset + r.1.length + pasteStart.length + r.2.length := by
  unfold InPasteRegion
  rw [pasteRegions_of_open h h']
  constructor
  · rintro ⟨s, hs, hin⟩
    rw [List.mem_singleton.mp hs] at hin
    exact hin
  · intro hin
    exact ⟨_, List.mem_singleton_self _, hin⟩

theorem inPasteRegion_closed {i : Nat} {r' : Bytes × Bytes} (h : cutAt pasteStart stream = some r)
    (h' : cutAt pasteEnd r.2 = some r') :
    InPasteRegion offset stream i ↔ (offset + r.1.length ≤ i
        ∧ i < offset + r.1.length + pasteStart.length + r'.1.length + pasteEnd.length)
      ∨ InPasteRegion
        (offset + r.1.length + pasteStart.length + r'.1.length + pasteEnd.length) r'.2 i := by
  unfold InPasteRegion
  rw [pasteRegions_of_closed h h']
  constructor
  · rintro ⟨s, hs, hin⟩
    rcases List.mem_cons.mp hs with rfl | hs
    · exact Or.inl hin
    · exact Or.inr ⟨s, hs, hin⟩
  · rintro (hin | ⟨s, hs, hin⟩)
    · exact ⟨_, List.mem_cons_self, hin⟩
    · exact ⟨s, List.mem_cons_of_mem _ hs, hin⟩

/-- 見ている流れより前は、どの区間にも入らない。 -/
theorem not_inPasteRegion_of_lt {i : Nat} (h : i < offset) : ¬ InPasteRegion offset stream i := by
  rintro ⟨r, hr, hlo, -⟩
  have := le_of_mem_pasteRegions (Nat.le_refl stream.length) hr
  omega

/-- 最初の区切りより前は、どの区間にも入らない。 -/
theorem not_inPasteRegion_before {i : Nat} (h : cutAt pasteStart stream = some r)
    (hi : i < offset + r.1.length) : ¬ InPasteRegion offset stream i := by
  cases hend : cutAt pasteEnd r.2 with
  | none =>
    rw [inPasteRegion_open h hend]
    rintro ⟨hlo, -⟩
    omega
  | some r' =>
    rw [inPasteRegion_closed h hend]
    rintro (⟨hlo, -⟩ | hin)
    · omega
    · exact not_inPasteRegion_of_lt (by omega) hin

/-! ## 改行の類 -/

theorem not_isSubmitByte_of_mem {b : UInt8} (h : b ∈ pasteStart) : isSubmitByte b = false := by
  have hall : pasteStart.all (fun c => !isSubmitByte c) = true := by decide
  simpa using List.all_eq_true.mp hall b h

theorem length_pasteStart : pasteStart.length = 6 := rfl

theorem length_pasteEnd : pasteEnd.length = 6 := rfl

open BracketedPasteTracker in
/-- 区切りの後ろにある改行は、貼り付けが始まった後の類で決まる。 -/
theorem class_after_start (h : cutAt pasteStart stream = some r) (j : Nat) :
    (feedBytes {} stream).1[r.1.length + 6 + j]?
      = (feedBytes { state := .inPaste 0 } r.2).1[j]? := by
  have hindex : r.1.length + 6 + j - (r.1.length + 5) = j + 1 := by omega
  rw [feedBytes_of_some h, List.getElem?_append_right (by rw [List.length_replicate]; omega),
    List.length_replicate, hindex, List.getElem?_cons_succ]

open BracketedPasteTracker in
theorem class_after_end (h : cutAt pasteEnd stream = some r) (j : Nat) :
    (feedBytes { state := .inPaste 0 } stream).1[r.1.length + 6 + j]?
      = (feedBytes {} r.2).1[j]? := by
  rw [feedBytes_closed h, List.getElem?_append_right (by rw [List.length_replicate]; omega),
    List.length_replicate, Nat.add_sub_cancel_left]

open BracketedPasteTracker in
/-- 改行が打鍵であるのは、どの区間の外にもあるときである。流れの長さについての帰納で、一度に一つの区間を越える。 -/
theorem key_iff_outside {i n offset : Nat} {b : UInt8} {stream : Bytes} (hb : isSubmitByte b = true)
    (hlen : stream.length ≤ n) (hi : stream[i]? = some b) :
    (feedBytes {} stream).1[i]? = some StreamByteClass.key ↔ ¬ InPasteRegion offset stream (offset + i) := by
  induction n generalizing i offset stream with
  | zero =>
    rw [List.length_eq_zero_iff.mp (Nat.le_zero.mp hlen)] at hi
    cases hi
  | succ n ih =>
    have hilen := (List.getElem?_eq_some_iff.mp hi).1
    cases hstart : cutAt pasteStart stream with
    | none =>
      rw [feedBytes_of_none hstart, List.getElem?_replicate, if_pos hilen]
      exact iff_of_true rfl (not_inPasteRegion_of_none hstart)
    | some r =>
      by_cases hbefore : i < r.1.length
      · -- 最初の区間より前
        refine iff_of_true ?_ (not_inPasteRegion_before hstart (by omega))
        rw [feedBytes_of_some hstart, List.getElem?_append_left (by rw [List.length_replicate]; omega),
          List.getElem?_replicate, if_pos (by omega)]
      by_cases hdelim : i < r.1.length + 6
      · -- 区切りの中に改行は無い
        have hmem := mem_of_cutAt hstart (Nat.le_of_not_lt hbefore) hdelim hi
        rw [not_isSubmitByte_of_mem hmem] at hb
        cases hb
      obtain ⟨j, rfl⟩ : ∃ j, i = r.1.length + 6 + j := ⟨i - (r.1.length + 6), by omega⟩
      have hj : r.2[j]? = some b := (getElem?_of_cutAt hstart j).symm.trans hi
      have hjlen := (List.getElem?_eq_some_iff.mp hj).1
      rw [class_after_start hstart]
      cases hend : cutAt pasteEnd r.2 with
      | none =>
        rw [feedBytes_open hend, List.getElem?_replicate, if_pos hjlen, inPasteRegion_open hstart hend,
          length_pasteStart]
        exact iff_of_false (by decide) (not_not_intro ⟨by omega, by omega⟩)
      | some e =>
        rw [inPasteRegion_closed hstart hend, length_pasteStart, length_pasteEnd]
        by_cases hinside : j < e.1.length + 6
        · rw [feedBytes_closed hend, List.getElem?_append_left (by rw [List.length_replicate]; exact hinside),
            List.getElem?_replicate, if_pos hinside]
          exact iff_of_false (by decide) (not_not_intro (Or.inl ⟨by omega, by omega⟩))
        · -- 閉じた区間の後ろは、残りの流れと同じである
          obtain ⟨k, rfl⟩ : ∃ k, j = e.1.length + 6 + k := ⟨j - (e.1.length + 6), by omega⟩
          have hk : e.2[k]? = some b := (getElem?_of_cutAt hend k).symm.trans hj
          have hrlen := length_lt_of_cutAt (by decide) hstart
          have helen := length_lt_of_cutAt (by decide) hend
          have hpos : offset + (r.1.length + 6 + (e.1.length + 6 + k))
              = offset + r.1.length + 6 + e.1.length + 6 + k := by omega
          rw [class_after_end hend, @ih k (offset + r.1.length + 6 + e.1.length + 6) _
            (by omega) hk, hpos]
          refine not_congr ⟨Or.inr, ?_⟩
          rintro (⟨-, hhi⟩ | hin)
          · omega
          · exact hin

/-! ## 塊に分けて渡す -/

namespace BracketedPasteTracker

variable {t : BracketedPasteTracker}

/-- 塊ごとの類を繋ぐと、流れの全体を渡したときの類になる。 -/
theorem flatten_classifyChunks (chunks : List Bytes) :
    (t.classifyChunks chunks).flatten = (t.feedBytes chunks.flatten).1 := by
  induction chunks generalizing t with
  | nil => rfl
  | cons data rest ih =>
    rw [classifyChunks, List.flatten_cons, List.flatten_cons, feedBytes_append, ih]

/-- 打鍵の改行があったかどうか。 -/
def submits (bytes : Bytes) (classes : List StreamByteClass) : Bool :=
  (bytes.zip classes).any fun p => p.2 = .key && isSubmitByte p.1

theorem submits_append {xs ys : Bytes} {cs ds : List StreamByteClass} (h : xs.length = cs.length) :
    submits (xs ++ ys) (cs ++ ds) = (submits xs cs || submits ys ds) := by
  unfold submits
  rw [List.zip_append h, List.any_append]

theorem markLoop_eq (marks : Bool) (bs : Bytes) :
    t.markLoop marks bs = (marks || submits bs (t.feedBytes bs).1, (t.feedBytes bs).2) := by
  induction bs generalizing t marks with
  | nil =>
    show (marks, t) = (marks || false, t)
    rw [Bool.or_false]
  | cons b bs ih =>
    rw [markLoop, feedBytes_cons]
    dsimp only
    rw [ih, Bool.or_assoc]
    rfl

/-- 塊ごとの合図を合わせると、流れの全体の合図になる。 -/
theorem any_feedChunks (chunks : List Bytes) :
    (t.feedChunks chunks).1.any id = submits chunks.flatten (t.feedBytes chunks.flatten).1 := by
  induction chunks generalizing t with
  | nil => rfl
  | cons data rest ih =>
    rw [feedChunks]
    dsimp only
    rw [List.any_cons, feedChunkMarksSubmit, markLoop_eq, ih, List.flatten_cons, feedBytes_append,
      submits_append (length_feedBytes data).symm, Bool.false_or]
    rfl

theorem submits_iff {bytes : Bytes} {classes : List StreamByteClass} :
    submits bytes classes = true ↔
      ∃ (i : Nat) (b : UInt8), bytes[i]? = some b ∧ isSubmitByte b = true ∧ classes[i]? = some StreamByteClass.key := by
  unfold submits
  rw [List.any_eq_true]
  constructor
  · rintro ⟨p, hp, hkey⟩
    obtain ⟨i, hi⟩ := List.mem_iff_getElem?.mp hp
    obtain ⟨hb, hc⟩ := List.getElem?_zip_eq_some.mp hi
    rw [Bool.and_eq_true, decide_eq_true_iff] at hkey
    exact ⟨i, p.1, hb, hkey.2, hkey.1 ▸ hc⟩
  · rintro ⟨i, b, hb, hsubmit, hc⟩
    have hmem : (b, StreamByteClass.key) ∈ bytes.zip classes :=
      List.mem_iff_getElem?.mpr ⟨i, List.getElem?_zip_eq_some.mpr ⟨hb, hc⟩⟩
    refine ⟨_, hmem, ?_⟩
    show (decide (StreamByteClass.key = .key) && isSubmitByte b) = true
    rw [hsubmit]
    rfl

end BracketedPasteTracker

namespace PasteTrackState

/-- 呼び直しの深さを増やしても答は変わらない。 -/
theorem feedByteWithin_eq (depth : Nat) (s : PasteTrackState) (b : UInt8) :
    feedByteWithin (depth + 2) s b = some (feedByte s b) := by
  have hsame : feedByteWithin (depth + 2) s b = feedByteWithin 2 s b := by
    cases s with
    | normal p =>
      unfold feedByteWithin feedNormal
      split
      · rfl
      · split
        · unfold feedByteWithin feedNormal
          rfl
        · rfl
    | inPaste p => rfl
  rw [hsame]
  exact (Option.some_get _).symm

end PasteTrackState

open BracketedPasteTracker in
/--
流れをどこで切って渡しても、改行が打鍵であるのは基準の走査の区間の外にあるときに限り、合図の有無は流れだけで決まる。
呼び直しは二段で終わる。
-/
theorem paste_classification (chunks : List Bytes) :
    ((classifyChunks {} chunks).flatten.length = chunks.flatten.length
      ∧ ∀ i b, chunks.flatten[i]? = some b → isSubmitByte b = true →
        ((classifyChunks {} chunks).flatten[i]? = some StreamByteClass.key
          ↔ ¬ InPasteRegion 0 chunks.flatten i))
    ∧ ((feedChunks {} chunks).1.any id = true ↔ ∃ i b, chunks.flatten[i]? = some b
        ∧ isSubmitByte b = true ∧ ¬ InPasteRegion 0 chunks.flatten i)
    ∧ (∀ others : List Bytes, others.flatten = chunks.flatten →
        (feedChunks {} others).1.any id = (feedChunks {} chunks).1.any id)
    ∧ ∀ (depth : Nat) (s : PasteTrackState) (b : UInt8),
        PasteTrackState.feedByteWithin (depth + 2) s b = some (s.feedByte b) := by
  have hkey : ∀ i b, chunks.flatten[i]? = some b → isSubmitByte b = true →
      ((feedBytes {} chunks.flatten).1[i]? = some StreamByteClass.key ↔ ¬ InPasteRegion 0 chunks.flatten i) := by
    intro i b hi hb
    have houtside := @key_iff_outside i _ 0 b _ hb (Nat.le_refl _) hi
    rwa [Nat.zero_add] at houtside
  refine ⟨⟨?_, ?_⟩, ?_, ?_, PasteTrackState.feedByteWithin_eq⟩
  · rw [flatten_classifyChunks, length_feedBytes]
  · rw [flatten_classifyChunks]
    exact hkey
  · rw [any_feedChunks, submits_iff]
    constructor
    · rintro ⟨i, b, hi, hb, hc⟩
      exact ⟨i, b, hi, hb, (hkey i b hi hb).mp hc⟩
    · rintro ⟨i, b, hi, hb, hout⟩
      exact ⟨i, b, hi, hb, (hkey i b hi hb).mpr hout⟩
  · intro others hflat
    rw [any_feedChunks, any_feedChunks, hflat]

end Cassy
