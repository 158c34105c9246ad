import Mathlib.Data.List.Pairwise
import Cassy.Infra.Bands
import Cassy.Prompt.Peek

/-!
# 二つの列から選んだ伝言

`peek_for_targets` の約束を、選ばれた行の性質として述べる。

列は読むときに `limit` で切られているが、帯ごとに見れば切る前の列から選んだのと同じである
（`mergeTwoLanePeeks_queryLane`）。選び方の約束は、いつも成り立つ（`peek_choice`）。

帯の中が番号の順に並ぶのは、二つの列の両方にその帯の行があるときである。片方の列にしか無い帯は、並べ直さずに宛先ごとの
順番のまま返る。番号の順になるかどうかは、その順番が番号の順と食い違わないことによる。
-/

namespace Cassy

open Infra

/-- 並べる鍵。 -/
def PromptRow.urgency (r : PromptRow) : Nat := r.priority.toNat

theorem NotificationPriority.toNat_inj {p q : NotificationPriority} :
    p.toNat = q.toNat ↔ p = q := by
  cases p <;> cases q <;> decide

theorem PromptRow.urgency_mem (r : PromptRow) : r.urgency ∈ [0, 1, 2] := by
  unfold urgency
  cases r.priority <;> decide

/-! ## 列の中の並び -/

section Lane

variable {rows : List PromptRow}

/-- 同じ帯の中で前に読まれる。 -/
def ReadBefore (rows : List PromptRow) (a b : PromptRow) : Prop :=
  targetRank rows a < targetRank rows b
    ∨ targetRank rows a = targetRank rows b ∧ a.id < b.id

instance (rows : List PromptRow) : DecidableRel (ReadBefore rows) := fun a b => by
  unfold ReadBefore
  infer_instance

theorem ReadBefore.asymm (a b : PromptRow) (h : ReadBefore rows a b) : ¬ReadBefore rows b a := by
  unfold ReadBefore at *
  omega

theorem laneOrder_total (a b : PromptRow) : laneOrder rows a b ∨ laneOrder rows b a := by
  unfold laneOrder
  omega

theorem laneOrder_trans (a b c : PromptRow) (hab : laneOrder rows a b) (hbc : laneOrder rows b c) :
    laneOrder rows a c := by
  unfold laneOrder at *
  omega

instance : Std.Total (laneOrder rows) := ⟨laneOrder_total⟩

instance : IsTrans PromptRow (laneOrder rows) := ⟨laneOrder_trans⟩

theorem sortLane_perm : (sortLane rows).Perm rows := List.perm_insertionSort _ _

theorem sortLane_pairwise : (sortLane rows).Pairwise (laneOrder rows) :=
  List.pairwise_insertionSort _ _

theorem keySorted_sortLane : KeySorted PromptRow.urgency (sortLane rows) :=
  sortLane_pairwise.imp fun h => h.elim Nat.le_of_lt fun h => Nat.le_of_eq h.1

/-- 帯の中は、読まれる順に並ぶ。 -/
theorem band_sortLane_pairwise (hids : (rows.map PromptRow.id).Nodup) (p : Nat) :
    (band PromptRow.urgency p (sortLane rows)).Pairwise (ReadBefore rows) := by
  have hne : (sortLane rows).Pairwise fun a b => a.id ≠ b.id :=
    List.pairwise_map.mp ((sortLane_perm.map PromptRow.id).nodup_iff.mpr hids)
  refine List.Pairwise.imp_of_mem ?_ ((sortLane_pairwise.and hne).filter _)
  rintro a b ha hb ⟨horder, hid⟩
  have ha : a.priority.toNat = p := (mem_band.mp ha).2
  have hb : b.priority.toNat = p := (mem_band.mp hb).2
  unfold laneOrder at horder
  unfold ReadBefore
  omega

end Lane

/-! ## 一つの帯の割り当て -/

section FairQuota

variable {s l : List PromptRow} {n : Nat}

theorem fairQuota_zero : fairQuotaSamePriority s l 0 = [] := if_pos rfl

theorem fairQuota_nil_left : fairQuotaSamePriority [] l n = l.take n := by
  cases n <;> rfl

theorem fairQuota_nil_right : fairQuotaSamePriority s [] n = s.take n := by
  cases n <;> cases s <;> rfl

/-- 余った枠を回した後の、session の列の枠。 -/
def sessionShare (n s l : Nat) : Nat := min s (n - min (n / 2) l)

/-- 余った枠を回した後の、古い列の枠。 -/
def legacyShare (n s l : Nat) : Nat := min l (n - sessionShare n s l)

theorem sessionShare_eq (n s l : Nat) :
    min ((n + 1) / 2) s
        + min (s - min ((n + 1) / 2) s) (n - (min ((n + 1) / 2) s + min (n / 2) l))
      = sessionShare n s l := by
  have hsum : (n + 1) / 2 + n / 2 = n := by omega
  unfold sessionShare
  generalize (n + 1) / 2 = c at *
  generalize n / 2 = f at *
  omega

theorem legacyShare_eq (n s l : Nat) :
    min (n / 2) l + min (l - min (n / 2) l) (n - sessionShare n s l - min (n / 2) l)
      = legacyShare n s l := by
  have hhalf : n / 2 ≤ n := Nat.div_le_self n 2
  unfold legacyShare sessionShare
  generalize n / 2 = f at *
  omega

/-- 二つの枠の合計は、取れるだけの行数である。どちらの枠も、約束の分を下回らない。 -/
theorem shares (n s l : Nat) :
    sessionShare n s l + legacyShare n s l = min n (s + l)
      ∧ min ((n + 1) / 2) s ≤ sessionShare n s l ∧ min (n / 2) l ≤ legacyShare n s l := by
  have hsum : (n + 1) / 2 + n / 2 = n := by omega
  unfold legacyShare sessionShare
  generalize (n + 1) / 2 = c at *
  generalize n / 2 = f at *
  omega

/-- 両方の列に行のある帯。 -/
theorem fairQuota_of_ne_nil (hs : s ≠ []) (hl : l ≠ []) :
    fairQuotaSamePriority s l n
      = (s.take (sessionShare n s.length l.length)
          ++ l.take (legacyShare n s.length l.length)).insertionSort fun a b => a.id ≤ b.id := by
  by_cases hn : n = 0
  · subst hn
    rw [fairQuota_zero]
    simp [sessionShare, legacyShare]
  · unfold fairQuotaSamePriority
    simp only [List.isEmpty_iff, if_neg hn, if_neg hs, if_neg hl, sessionShare_eq, legacyShare_eq]

/-- 選んだ行は、それぞれの列の頭からである。 -/
theorem fairQuota_perm (s l : List PromptRow) (n : Nat) :
    (fairQuotaSamePriority s l n).Perm
      (s.take (sessionShare n s.length l.length)
        ++ l.take (legacyShare n s.length l.length)) := by
  by_cases hs : s = []
  · subst hs
    rw [fairQuota_nil_left, List.take_nil, List.nil_append, List.take_eq_take_min]
    simp [legacyShare, sessionShare, Nat.min_comm]
  · by_cases hl : l = []
    · subst hl
      rw [fairQuota_nil_right, List.take_nil, List.append_nil, List.take_eq_take_min]
      simp [sessionShare, Nat.min_comm]
    · rw [fairQuota_of_ne_nil hs hl]
      exact List.perm_insertionSort _ _

theorem length_fairQuota : (fairQuotaSamePriority s l n).length = min n (s.length + l.length) := by
  rw [(fairQuota_perm s l n).length_eq, List.length_append, List.length_take, List.length_take,
    ← (shares n s.length l.length).1]
  unfold legacyShare sessionShare
  omega

theorem mem_of_mem_fairQuota {r : PromptRow} (h : r ∈ fairQuotaSamePriority s l n) :
    r ∈ s ∨ r ∈ l := by
  have hmem := (fairQuota_perm s l n).mem_iff.mp h
  exact (List.mem_append.mp hmem).imp List.mem_of_mem_take List.mem_of_mem_take

/-- 両方の列に行のある帯は、番号の順に並ぶ。 -/
theorem fairQuota_pairwise (hs : s ≠ []) (hl : l ≠ []) :
    (fairQuotaSamePriority s l n).Pairwise fun a b => a.id ≤ b.id := by
  rw [fairQuota_of_ne_nil hs hl]
  have htotal : Std.Total fun a b : PromptRow => a.id ≤ b.id := ⟨fun a b => Nat.le_total a.id b.id⟩
  have htrans : IsTrans PromptRow fun a b => a.id ≤ b.id := ⟨fun _ _ _ => Nat.le_trans⟩
  exact List.pairwise_insertionSort _ _

/-- 枠より短く切っていない列からは、切る前の列と同じ行を選ぶ。 -/
theorem fairQuota_take {m m' : Nat} (hm : n ≤ m) (hm' : n ≤ m') :
    fairQuotaSamePriority (s.take m) (l.take m') n = fairQuotaSamePriority s l n := by
  by_cases hn : n = 0
  · rw [hn, fairQuota_zero, fairQuota_zero]
  by_cases hs : s = []
  · rw [hs, List.take_nil, fairQuota_nil_left, fairQuota_nil_left, List.take_take,
      Nat.min_eq_left hm']
  by_cases hl : l = []
  · rw [hl, List.take_nil, fairQuota_nil_right, fairQuota_nil_right, List.take_take,
      Nat.min_eq_left hm]
  have hs' : s.take m ≠ [] := fun h =>
    (List.take_eq_nil_iff.mp h).elim (fun h => hn (by omega)) hs
  have hl' : l.take m' ≠ [] := fun h =>
    (List.take_eq_nil_iff.mp h).elim (fun h => hn (by omega)) hl
  rw [fairQuota_of_ne_nil hs hl, fairQuota_of_ne_nil hs' hl', List.take_take, List.take_take,
    List.length_take, List.length_take]
  have hshare : sessionShare n (min m s.length) (min m' l.length)
      = sessionShare n s.length l.length := by
    unfold sessionShare
    omega
  have hshare' : legacyShare n (min m s.length) (min m' l.length)
      = legacyShare n s.length l.length := by
    unfold legacyShare
    rw [hshare]
    omega
  have hle := (shares n s.length l.length).1
  rw [hshare, hshare', Nat.min_eq_left (by omega), Nat.min_eq_left (by omega)]

end FairQuota

/-! ## 帯ごとに合わせる -/

/-- 一つの帯から選ぶ行。帯の枠は、急ぎの帯の行が残した枠である。 -/
def bandSelection (s l : List PromptRow) (n p : Nat) : List PromptRow :=
  fairQuotaSamePriority (band PromptRow.urgency p s) (band PromptRow.urgency p l)
    (n - ((below PromptRow.urgency p s).length + (below PromptRow.urgency p l).length))

/-- 全部の帯から選ぶ行。 -/
def laneSelection (s l : List PromptRow) (n : Nat) : List PromptRow :=
  [0, 1, 2].flatMap (bandSelection s l n)

section Merge

variable {s l : List PromptRow} {n p : Nat}

theorem decide_priority_eq (q : NotificationPriority) :
    (fun r : PromptRow => decide (r.priority = q)) = fun r => decide (r.urgency = q.toNat) := by
  funext r
  exact decide_eq_decide.mpr NotificationPriority.toNat_inj.symm

/-- 列に残る一番急ぎの帯が、次の帯である。 -/
theorem nextPriority_eq (hs : KeySorted PromptRow.urgency s) (hl : KeySorted PromptRow.urgency l)
    (hps : ∀ a ∈ s, p ≤ a.urgency) (hpl : ∀ a ∈ l, p ≤ a.urgency)
    (hex : (∃ a ∈ s, a.urgency = p) ∨ ∃ a ∈ l, a.urgency = p) :
    ∃ q, nextPriority s l = some q ∧ q.toNat = p := by
  have hhead : ∀ {x : PromptRow} {xs : List PromptRow}, KeySorted PromptRow.urgency (x :: xs) →
      (∃ a ∈ x :: xs, a.urgency = p) → x.urgency ≤ p := by
    rintro x xs hsorted ⟨a, ha, rfl⟩
    rcases List.mem_cons.mp ha with rfl | ha
    · exact Nat.le_refl _
    · exact (List.pairwise_cons.mp hsorted).1 a ha
  cases s with
  | nil =>
    cases l with
    | nil => simp at hex
    | cons y ys =>
      refine ⟨y.priority, rfl, Nat.le_antisymm (hhead hl ?_) (hpl y List.mem_cons_self)⟩
      exact hex.resolve_left (by simp)
  | cons x xs =>
    have hx : p ≤ x.priority.toNat := hps x List.mem_cons_self
    cases l with
    | nil =>
      refine ⟨x.priority, rfl, Nat.le_antisymm (hhead hs ?_) hx⟩
      exact hex.resolve_right (by simp)
    | cons y ys =>
      have hy : p ≤ y.priority.toNat := hpl y List.mem_cons_self
      have hmin : x.priority.toNat ≤ p ∨ y.priority.toNat ≤ p :=
        hex.imp (hhead hs) (hhead hl)
      rw [nextPriority]
      split
      · exact ⟨_, rfl, by omega⟩
      · exact ⟨_, rfl, by omega⟩

theorem bandSelection_of_not_mem (hs : ∀ a ∈ s, a.urgency ≠ p) (hl : ∀ a ∈ l, a.urgency ≠ p) :
    bandSelection s l n p = [] := by
  rw [bandSelection, band_eq_nil hs, band_eq_nil hl, fairQuota_nil_left, List.take_nil]

/-- 一番急ぎの帯を除いた列の、後の帯の選び方。 -/
theorem bandSelection_rest {q : Nat} (hs : KeySorted PromptRow.urgency s)
    (hl : KeySorted PromptRow.urgency l) (hps : ∀ a ∈ s, p ≤ a.urgency)
    (hpl : ∀ a ∈ l, p ≤ a.urgency) (hq : p < q) :
    bandSelection (s.dropWhile fun r => r.urgency = p) (l.dropWhile fun r => r.urgency = p)
        (n - (bandSelection s l n p).length) q
      = bandSelection s l n q := by
  have hrest : ∀ t : List PromptRow, KeySorted PromptRow.urgency t → (∀ a ∈ t, p ≤ a.urgency) →
      band PromptRow.urgency q (t.dropWhile fun r => r.urgency = p)
          = band PromptRow.urgency q t
        ∧ (below PromptRow.urgency q t).length = (band PromptRow.urgency p t).length
          + (below PromptRow.urgency q (t.dropWhile fun r => r.urgency = p)).length := by
    intro t ht hpt
    have hsplit := band_append_dropWhile ht hpt
    constructor
    · have hnil : band PromptRow.urgency q (band PromptRow.urgency p t) = [] :=
        band_eq_nil fun a ha => by
          rw [(mem_band.mp ha).2]
          exact Nat.ne_of_lt hq
      conv_rhs => rw [← hsplit, band_append, hnil, List.nil_append]
    · conv_lhs => rw [← hsplit]
      rw [below, List.filter_append, List.length_append]
      congr 2
      exact List.filter_eq_self.mpr fun a ha => by
        rw [(mem_band.mp ha).2]
        exact decide_eq_true hq
  obtain ⟨hbs, hls⟩ := hrest s hs hps
  obtain ⟨hbl, hll⟩ := hrest l hl hpl
  unfold bandSelection
  rw [hbs, hbl, length_fairQuota, below_eq_nil hps, below_eq_nil hpl, hls, hll]
  congr 1
  simp only [List.length_nil]
  omega

/-- 帯を順に合わせるのは、帯ごとに選んで並べるのと同じである。 -/
theorem mergeBands_eq {ps : List Nat} {fuel : Nat} (hs : KeySorted PromptRow.urgency s)
    (hl : KeySorted PromptRow.urgency l) (hps : ps.Pairwise (· < ·))
    (hms : ∀ a ∈ s, a.urgency ∈ ps) (hml : ∀ a ∈ l, a.urgency ∈ ps)
    (hfuel : s.length + l.length ≤ fuel) :
    mergeBands fuel s l n = ps.flatMap (bandSelection s l n) := by
  induction ps generalizing s l n fuel with
  | nil =>
    have hsnil : s = [] := List.eq_nil_iff_forall_not_mem.mpr fun a ha =>
      List.not_mem_nil (hms a ha)
    have hlnil : l = [] := List.eq_nil_iff_forall_not_mem.mpr fun a ha =>
      List.not_mem_nil (hml a ha)
    subst hsnil hlnil
    cases fuel with
    | zero => rfl
    | succ fuel => cases n <;> rfl
  | cons p ps ih =>
    obtain ⟨hp, hps⟩ := List.pairwise_cons.mp hps
    have hle : ∀ t : List PromptRow, (∀ a ∈ t, a.urgency ∈ p :: ps) → ∀ a ∈ t, p ≤ a.urgency :=
      fun t ht a ha => (List.mem_cons.mp (ht a ha)).elim (fun h => Nat.le_of_eq h.symm)
        fun h => Nat.le_of_lt (hp _ h)
    have hles := hle s hms
    have hlel := hle l hml
    rw [List.flatMap_cons]
    by_cases hex : (∃ a ∈ s, a.urgency = p) ∨ ∃ a ∈ l, a.urgency = p
    · obtain ⟨q, hq, hqp⟩ := nextPriority_eq hs hl hles hlel hex
      cases fuel with
      | zero =>
        have hsnil : s = [] := List.eq_nil_of_length_eq_zero (by omega)
        have hlnil : l = [] := List.eq_nil_of_length_eq_zero (by omega)
        subst hsnil hlnil
        simp at hex
      | succ fuel =>
        rw [mergeBands]
        by_cases hn : n = 0
        · subst hn
          rw [if_pos rfl]
          have hzero : ∀ q, bandSelection s l 0 q = [] := fun q => by
            rw [bandSelection, Nat.zero_sub, fairQuota_zero]
          simp [hzero]
        · rw [if_neg hn, hq]
          simp only [decide_priority_eq, hqp]
          have hband : fairQuotaSamePriority (s.takeWhile fun r => r.urgency = p)
              (l.takeWhile fun r => r.urgency = p) n = bandSelection s l n p := by
            rw [bandSelection, takeWhile_eq_band hs hles, takeWhile_eq_band hl hlel,
              below_eq_nil hles, below_eq_nil hlel]
            rfl
          have hmem : ∀ t : List PromptRow, KeySorted PromptRow.urgency t →
              (∀ a ∈ t, a.urgency ∈ p :: ps) →
              ∀ a ∈ t.dropWhile fun r => r.urgency = p, a.urgency ∈ ps := fun t ht hmt a ha =>
            (List.mem_cons.mp (hmt a ((List.dropWhile_sublist _).subset ha))).resolve_left
              (Nat.ne_of_gt (lt_of_mem_dropWhile ht (hle t hmt) ha))
          have hshrink : (s.dropWhile fun r => decide (r.urgency = p)).length
              + (l.dropWhile fun r => decide (r.urgency = p)).length < s.length + l.length := by
            have hlens := congrArg List.length (band_append_dropWhile hs hles)
            have hlenl := congrArg List.length (band_append_dropWhile hl hlel)
            rw [List.length_append] at hlens hlenl
            have hpos : 0 < (band PromptRow.urgency p s).length
                ∨ 0 < (band PromptRow.urgency p l).length :=
              hex.imp (fun ⟨a, ha, hk⟩ => List.length_pos_of_mem (mem_band.mpr ⟨ha, hk⟩))
                fun ⟨a, ha, hk⟩ => List.length_pos_of_mem (mem_band.mpr ⟨ha, hk⟩)
            omega
          rw [hband, ih (hs.sublist (List.dropWhile_sublist _))
            (hl.sublist (List.dropWhile_sublist _)) hps (hmem s hs hms) (hmem l hl hml) (by omega)]
          congr 1
          exact List.flatMap_congr fun q hq => bandSelection_rest hs hl hles hlel (hp q hq)
    · have hns : ∀ a ∈ s, a.urgency ≠ p := fun a ha he => hex (.inl ⟨a, ha, he⟩)
      have hnl : ∀ a ∈ l, a.urgency ≠ p := fun a ha he => hex (.inr ⟨a, ha, he⟩)
      rw [bandSelection_of_not_mem hns hnl, List.nil_append]
      exact ih hs hl hps (fun a ha => (List.mem_cons.mp (hms a ha)).resolve_left (hns a ha))
        (fun a ha => (List.mem_cons.mp (hml a ha)).resolve_left (hnl a ha)) hfuel

theorem mergeTwoLanePeeks_eq (hs : KeySorted PromptRow.urgency s)
    (hl : KeySorted PromptRow.urgency l) :
    mergeTwoLanePeeks s l n = laneSelection s l n := by
  have hps : [0, 1, 2].Pairwise (· < ·) := by decide
  unfold mergeTwoLanePeeks laneSelection
  by_cases hn : n = 0
  · subst hn
    simp [bandSelection, fairQuota_zero]
  rw [if_neg hn]
  by_cases hsnil : s = []
  · subst hsnil
    rw [if_pos List.isEmpty_nil, take_eq_flatMap_band hl hps fun a _ => a.urgency_mem]
    refine List.flatMap_congr fun p _ => ?_
    simp [bandSelection, fairQuota_nil_left]
  by_cases hlnil : l = []
  · subst hlnil
    rw [if_neg (by simpa using hsnil), if_pos List.isEmpty_nil,
      take_eq_flatMap_band hs hps fun a _ => a.urgency_mem]
    refine List.flatMap_congr fun p _ => ?_
    simp [bandSelection, fairQuota_nil_right]
  · rw [if_neg (by simpa using hsnil), if_neg (by simpa using hlnil)]
    exact mergeBands_eq hs hl hps (fun a _ => a.urgency_mem) (fun a _ => a.urgency_mem)
      (Nat.le_refl _)

/-- 列を `limit` で切ってから選んでも、切る前の列から選ぶのと同じである。 -/
theorem laneSelection_take (hs : KeySorted PromptRow.urgency s)
    (hl : KeySorted PromptRow.urgency l) :
    laneSelection (s.take n) (l.take n) n = laneSelection s l n := by
  unfold laneSelection
  refine List.flatMap_congr fun p _ => ?_
  unfold bandSelection
  rw [band_take hs, band_take hl, length_below_take hs, length_below_take hl]
  generalize (below PromptRow.urgency p s).length = cs
  generalize (below PromptRow.urgency p l).length = cl
  have hslots : n - (min n cs + min n cl) = n - (cs + cl) := by omega
  rw [hslots, fairQuota_take (by omega) (by omega)]

end Merge

/-- 二つの列の頭から合わせたものは、全部の行から帯ごとに選んだものである。 -/
theorem mergeTwoLanePeeks_queryLane (s l : List PromptRow) (n : Nat) :
    mergeTwoLanePeeks (queryLane s n) (queryLane l n) n
      = laneSelection (sortLane s) (sortLane l) n := by
  unfold queryLane
  rw [mergeTwoLanePeeks_eq (keySorted_sortLane.sublist (List.take_sublist _ _))
    (keySorted_sortLane.sublist (List.take_sublist _ _)),
    laneSelection_take keySorted_sortLane keySorted_sortLane]

/-!
## `peek_for_targets` の約束

* `PeekChoice` — どの行を選ぶか
* `PeekContract` — 選んだ行が、優先順位と番号の順に並ぶことを加えたもの
* `PeekInIdOrder` — 片方の列にしか行の無い帯で、読まれる順が番号の順と食い違わない

選び方はいつも約束どおりで、並びが約束どおりになるのは `PeekInIdOrder` のときに限る。
-/

namespace PromptDb

variable (db : PromptDb) (now : Time) (targets : List String) (session : Option String)
  (limit : Nat)

/-- 選べる行の全部。 -/
def peekEligible : List PromptRow := db.rows.filter (db.peekable now targets session)

/-- 急ぎの帯の行が残した枠。 -/
def bandSlots (p : NotificationPriority) : Nat :=
  limit - (below PromptRow.urgency p.toNat (db.peekEligible now targets session)).length

/-- どの行を選ぶかの約束。 -/
structure PeekChoice (chosen : List PromptRow) : Prop where
  distinct : (chosen.map PromptRow.id).Nodup
  eligible : ∀ r ∈ chosen, r ∈ db.peekEligible now targets session
  count : chosen.length = min limit (db.peekEligible now targets session).length
  /-- 急ぎの帯の行を残して、急がない帯の行を選ばない。 -/
  urgentFirst : ∀ r ∈ chosen, ∀ x ∈ db.peekEligible now targets session,
    x.priority.toNat < r.priority.toNat → x ∈ chosen
  sessionReserve : ∀ p : NotificationPriority,
    min ((db.bandSlots now targets session limit p + 1) / 2)
        (band PromptRow.urgency p.toNat (db.sessionLane now targets session)).length
      ≤ (chosen.filter fun r =>
          r.priority = p ∧ r ∈ db.sessionLane now targets session).length
  legacyReserve : ∀ p : NotificationPriority,
    min (db.bandSlots now targets session limit p / 2)
        (band PromptRow.urgency p.toNat (db.legacyLane now targets session)).length
      ≤ (chosen.filter fun r =>
          r.priority = p ∧ r ∈ db.legacyLane now targets session).length
  /-- 宛先の `k` 番目の行を残して、同じ列の同じ帯から `k + 1` 番目の行を選ばない。 -/
  roundRobin : ∀ lane ∈ [db.sessionLane now targets session, db.legacyLane now targets session],
    ∀ r ∈ chosen, r ∈ lane → ∀ x ∈ lane, x.priority = r.priority →
      targetRank lane x < targetRank lane r → x ∈ chosen

/-- 優先順位、番号の順に並ぶことを加えた約束。 -/
structure PeekContract (chosen : List PromptRow) : Prop
    extends PeekChoice db now targets session limit chosen where
  ordered : chosen.Pairwise fun a b =>
    a.priority.toNat < b.priority.toNat ∨ a.priority.toNat = b.priority.toNat ∧ a.id < b.id

end PromptDb

/-- 枠に入る行の中では、読まれる順が番号の順と食い違わない。 -/
def InIdOrder (lane : List PromptRow) (p slots : Nat) : Prop :=
  ∀ x ∈ band PromptRow.urgency p lane, ∀ y ∈ band PromptRow.urgency p lane,
    targetRank lane x < targetRank lane y → y.id < x.id →
      slots ≤ countBefore (ReadBefore lane) (band PromptRow.urgency p lane) y

instance (lane : List PromptRow) (p slots : Nat) : Decidable (InIdOrder lane p slots) := by
  unfold InIdOrder
  infer_instance

/-- 片方の列にしか行の無い帯は、番号の順に読まれる。 -/
def PromptDb.PeekInIdOrder (db : PromptDb) (now : Time) (targets : List String)
    (session : Option String) (limit : Nat) : Prop :=
  ∀ p : NotificationPriority,
    (band PromptRow.urgency p.toNat (db.legacyLane now targets session) = [] →
      InIdOrder (db.sessionLane now targets session) p.toNat
        (db.bandSlots now targets session limit p))
    ∧ (band PromptRow.urgency p.toNat (db.sessionLane now targets session) = [] →
      InIdOrder (db.legacyLane now targets session) p.toNat
        (db.bandSlots now targets session limit p))

/-! ## 読まれる順 -/

section ReadOrder

variable {rows : List PromptRow} {p m : Nat}

/-- 前に読まれる行は、後の行より多くの行を前に持たない。 -/
theorem countBefore_le {l : List PromptRow} {x y : PromptRow} (h : ReadBefore rows x y) :
    countBefore (ReadBefore rows) l x ≤ countBefore (ReadBefore rows) l y := by
  refine (List.monotone_filter_right l fun z hz => ?_).length_le
  have hz := of_decide_eq_true hz
  refine decide_eq_true ?_
  unfold ReadBefore at *
  omega

/-- 前に読まれる行は、後の行が取られるなら取られる。 -/
theorem mem_take_of_readBefore {l : List PromptRow} (hl : l.Pairwise (ReadBefore rows))
    {x y : PromptRow} (hx : x ∈ l) (hy : y ∈ l) (hxy : ReadBefore rows x y) (h : y ∈ l.take m) :
    x ∈ l.take m := by
  have hlt := (mem_take_iff_countBefore ReadBefore.asymm hl hy).mp h
  exact (mem_take_iff_countBefore ReadBefore.asymm hl hx).mpr
    (Nat.lt_of_le_of_lt (countBefore_le hxy) hlt)

/-- 帯の頭が番号の順に並ぶ条件。 -/
theorem take_band_pairwise_iff (hids : (rows.map PromptRow.id).Nodup) :
    ((band PromptRow.urgency p (sortLane rows)).take m).Pairwise (fun a b => a.id < b.id)
      ↔ InIdOrder rows p m := by
  have hsorted := band_sortLane_pairwise hids p
  have hperm : (band PromptRow.urgency p (sortLane rows)).Perm (band PromptRow.urgency p rows) :=
    band_perm sortLane_perm
  generalize band PromptRow.urgency p (sortLane rows) = l at hsorted hperm
  have hinj := List.inj_on_of_nodup_map hids
  constructor
  · intro hasc x hx y hy hrank hid
    have hx := hperm.mem_iff.mpr hx
    have hy := hperm.mem_iff.mpr hy
    rw [← countBefore_perm hperm]
    by_contra hslots
    have hty := (mem_take_iff_countBefore ReadBefore.asymm hsorted hy).mpr (Nat.lt_of_not_le hslots)
    have htx := mem_take_of_readBefore hsorted hx hy (.inl hrank) hty
    -- 並びのどちらが先でも、番号は読まれる順に従う。
    have hboth := (hsorted.sublist (List.take_sublist m l)).and hasc
    have hsymm : Std.Symm fun a b : PromptRow =>
        (ReadBefore rows a b ∧ a.id < b.id) ∨ ReadBefore rows b a ∧ b.id < a.id :=
      ⟨fun a b h => h.symm⟩
    have hne : x ≠ y := fun he => Nat.lt_irrefl _ (he ▸ hrank)
    have hpair : (l.take m).Pairwise fun a b =>
        (ReadBefore rows a b ∧ a.id < b.id) ∨ ReadBefore rows b a ∧ b.id < a.id :=
      hboth.imp Or.inl
    rcases hpair.forall htx hty hne with ⟨-, hlt⟩ | ⟨hyx, -⟩
    · omega
    · exact ReadBefore.asymm x y (.inl hrank) hyx
  · intro h
    refine List.Pairwise.imp_of_mem ?_ (hsorted.sublist (List.take_sublist m l))
    intro a b ha hb hab
    rcases hab with hrank | ⟨-, hid⟩
    · by_contra hid
      have hla := List.mem_of_mem_take ha
      have hlb := List.mem_of_mem_take hb
      have hma := (mem_band.mp (hperm.mem_iff.mp hla)).1
      have hmb := (mem_band.mp (hperm.mem_iff.mp hlb)).1
      have hne : a.id ≠ b.id := fun he => by
        have heq := hinj hma hmb he
        subst heq
        exact Nat.lt_irrefl _ hrank
      have hslots := h a (hperm.mem_iff.mp hla) b (hperm.mem_iff.mp hlb) hrank (by omega)
      rw [← countBefore_perm hperm] at hslots
      have hlt := (mem_take_iff_countBefore ReadBefore.asymm hsorted hlb).mp hb
      omega
    · exact hid

/-- 一つの列の帯の頭と、その列に無い行から選んだなら、前に読まれる行は選んである。 -/
theorem mem_of_targetRank_lt {chosen other : List PromptRow} (hids : (rows.map PromptRow.id).Nodup)
    (hchosen : ∀ y, y ∈ chosen ↔ y ∈ (band PromptRow.urgency p (sortLane rows)).take m ∨ y ∈ other)
    (hother : ∀ y ∈ other, y ∉ rows) {r x : PromptRow} (hr : r ∈ chosen) (hr' : r ∈ rows)
    (hx : x ∈ rows) (hrp : r.urgency = p) (hxp : x.urgency = p)
    (hlt : targetRank rows x < targetRank rows r) : x ∈ chosen := by
  have hmem : ∀ y ∈ rows, y.urgency = p → y ∈ band PromptRow.urgency p (sortLane rows) :=
    fun y hy hyp => mem_band.mpr ⟨sortLane_perm.mem_iff.mpr hy, hyp⟩
  have htake := ((hchosen r).mp hr).resolve_right fun h => hother r h hr'
  exact (hchosen x).mpr (.inl (mem_take_of_readBefore (band_sortLane_pairwise hids p)
    (hmem x hx hxp) (hmem r hr' hrp) (.inl hlt) htake))

end ReadOrder

/-! ## 選ばれた行 -/

section Selection

variable {s l : List PromptRow} {n p : Nat}

theorem mem_of_mem_bandSelection {r : PromptRow} (h : r ∈ bandSelection s l n p) :
    (r ∈ s ∨ r ∈ l) ∧ r.urgency = p := by
  rcases mem_of_mem_fairQuota h with h | h
  · exact ⟨.inl (mem_band.mp h).1, (mem_band.mp h).2⟩
  · exact ⟨.inr (mem_band.mp h).1, (mem_band.mp h).2⟩

theorem urgency_of_mem_bandSelection (q : Nat) (r : PromptRow) (h : r ∈ bandSelection s l n q) :
    r.urgency = q :=
  (mem_of_mem_bandSelection h).2

theorem band_laneSelection (p : NotificationPriority) :
    band PromptRow.urgency p.toNat (laneSelection s l n) = bandSelection s l n p.toNat :=
  band_flatMap (by decide) urgency_of_mem_bandSelection (by cases p <;> decide)

theorem keySorted_laneSelection : KeySorted PromptRow.urgency (laneSelection s l n) :=
  keySorted_flatMap (by decide) urgency_of_mem_bandSelection

theorem mem_laneSelection {r : PromptRow} :
    r ∈ laneSelection s l n ↔ r ∈ bandSelection s l n r.urgency := by
  show _ ↔ r ∈ bandSelection s l n r.priority.toNat
  rw [← band_laneSelection r.priority, mem_band]
  exact (and_iff_left rfl).symm

/-- 選ぶ行数は、取れるだけの行数である。 -/
theorem length_laneSelection :
    (laneSelection s l n).length = min n (s.length + l.length) := by
  -- 一つの列に並べて頭から取ったときと、帯ごとの行数が同じである。
  have htotal : Std.Total fun a b : PromptRow => a.urgency ≤ b.urgency :=
    ⟨fun a b => Nat.le_total a.urgency b.urgency⟩
  have htrans : IsTrans PromptRow fun a b => a.urgency ≤ b.urgency := ⟨fun _ _ _ => Nat.le_trans⟩
  have hsorted : KeySorted PromptRow.urgency
      ((s ++ l).insertionSort fun a b => a.urgency ≤ b.urgency) :=
    List.pairwise_insertionSort _ _
  have hperm : ((s ++ l).insertionSort fun a b => a.urgency ≤ b.urgency).Perm (s ++ l) :=
    List.perm_insertionSort _ _
  have htake := congrArg List.length (take_eq_flatMap_band (m := n) hsorted
    (show [0, 1, 2].Pairwise (· < ·) by decide) fun a _ => a.urgency_mem)
  rw [List.length_take, hperm.length_eq, List.length_append, List.length_flatMap] at htake
  rw [htake, laneSelection, List.length_flatMap]
  refine congrArg List.sum (List.map_congr_left fun p _ => ?_)
  rw [bandSelection, length_fairQuota, List.length_take, (band_perm hperm).length_eq,
    (below_perm hperm).length_eq, band_append, List.length_append, below_append,
    List.length_append]

theorem bandSelection_perm :
    ∃ a b, (bandSelection s l n p).Perm
        ((band PromptRow.urgency p s).take a ++ (band PromptRow.urgency p l).take b)
      ∧ min ((n - ((below PromptRow.urgency p s).length
          + (below PromptRow.urgency p l).length) + 1) / 2) (band PromptRow.urgency p s).length ≤ a
      ∧ min ((n - ((below PromptRow.urgency p s).length
          + (below PromptRow.urgency p l).length)) / 2) (band PromptRow.urgency p l).length ≤ b :=
  ⟨_, _, fairQuota_perm _ _ _, (shares _ _ _).2.1, (shares _ _ _).2.2⟩

theorem nodup_laneSelection (hsl : (s ++ l).Nodup) : (laneSelection s l n).Nodup := by
  have hps : [0, 1, 2].Pairwise (· < ·) := by decide
  refine List.pairwise_flatMap.mpr ⟨fun p _ => ?_, hps.imp fun hlt a ha b hb he => ?_⟩
  · obtain ⟨a, b, hperm, -, -⟩ := @bandSelection_perm s l n p
    refine hperm.nodup_iff.mpr (hsl.sublist ?_)
    exact ((List.take_sublist _ _).trans List.filter_sublist).append
      ((List.take_sublist _ _).trans List.filter_sublist)
  · have ha := (mem_of_mem_bandSelection ha).2
    have hb := (mem_of_mem_bandSelection hb).2
    rw [he] at ha
    omega

/-- 急がない帯から選んだなら、急ぎの帯の行は全部選んである。 -/
theorem mem_laneSelection_of_urgent {r x : PromptRow} (hr : r ∈ laneSelection s l n)
    (hx : x ∈ s ∨ x ∈ l) (hlt : x.urgency < r.urgency) : x ∈ laneSelection s l n := by
  have hr := mem_laneSelection.mp hr
  rw [mem_laneSelection]
  -- 急がない帯に枠があるのは、急ぎの帯が全部入ったときである。
  have hpos := List.length_pos_of_mem hr
  rw [bandSelection, length_fairQuota] at hpos
  have hfs := @length_below_add_band_le _ PromptRow.urgency s _ _ hlt
  have hfl := @length_below_add_band_le _ PromptRow.urgency l _ _ hlt
  obtain ⟨hsum, -, -⟩ := shares (n - ((below PromptRow.urgency x.urgency s).length
      + (below PromptRow.urgency x.urgency l).length))
    (band PromptRow.urgency x.urgency s).length (band PromptRow.urgency x.urgency l).length
  refine (fairQuota_perm _ _ _).mem_iff.mpr ?_
  rw [List.take_of_length_le, List.take_of_length_le, List.mem_append, mem_band, mem_band]
  · exact hx.imp (fun h => ⟨h, rfl⟩) fun h => ⟨h, rfl⟩
  · unfold sessionShare at hsum
    unfold legacyShare sessionShare at *
    omega
  · unfold legacyShare sessionShare at *
    omega

end Selection

/-! ## 二つの列 -/

namespace PromptDb

section Lanes

variable {db : PromptDb} {now : Time} {targets : List String} {session : Option String}
  {limit : Nat}

/-- 選べる行は、どちらか一方の列に入る。 -/
theorem lanes_perm :
    (db.sessionLane now targets session ++ db.legacyLane now targets session).Perm
      (db.peekEligible now targets session) := by
  have hsession : db.sessionLane now targets session
      = (db.peekEligible now targets session).filter fun r =>
          session.isNone || r.factorySession = session := by
    rw [peekEligible, List.filter_filter]
    exact List.filter_congr fun r _ => Bool.and_comm _ _
  have hlegacy : db.legacyLane now targets session
      = (db.peekEligible now targets session).filter fun r =>
          !(session.isNone || r.factorySession = session) := by
    rw [peekEligible, List.filter_filter]
    refine List.filter_congr fun r _ => ?_
    cases hp : db.peekable now targets session r with
    | false => simp
    | true =>
      have hlane : (session.isNone || r.factorySession.isNone || r.factorySession = session)
          = true := by
        simp only [peekable, Bool.and_eq_true] at hp
        exact hp.2
      cases session with
      | none => rfl
      | some s =>
        cases hf : r.factorySession with
        | none => simp
        | some f =>
          rw [hf] at hlane
          simpa using hlane
  rw [hsession, hlegacy]
  exact List.filter_append_perm _ _

theorem peekEligible_ids_nodup : ((db.peekEligible now targets session).map PromptRow.id).Nodup :=
  db.prompts.nodup.sublist (List.filter_sublist.map _)

theorem lanes_ids_nodup :
    ((db.sessionLane now targets session ++ db.legacyLane now targets session).map
      PromptRow.id).Nodup :=
  (lanes_perm.map _).nodup_iff.mpr peekEligible_ids_nodup

theorem sessionLane_ids_nodup : ((db.sessionLane now targets session).map PromptRow.id).Nodup :=
  lanes_ids_nodup.sublist ((List.sublist_append_left _ _).map _)

theorem legacyLane_ids_nodup : ((db.legacyLane now targets session).map PromptRow.id).Nodup :=
  lanes_ids_nodup.sublist ((List.sublist_append_right _ _).map _)

/-- 返る行は、切る前の二つの列から帯ごとに選んだものである。 -/
theorem peekForTargets_eq (htargets : targets ≠ []) :
    db.peekForTargets now targets session limit
      = .ok (laneSelection (sortLane (db.sessionLane now targets session))
          (sortLane (db.legacyLane now targets session)) limit) := by
  unfold peekForTargets
  rw [ensure, if_pos htargets]
  show (if limit = 0 then _ else _) = _
  by_cases hlimit : limit = 0
  · subst hlimit
    have hnil : ∀ s l : List PromptRow, laneSelection s l 0 = [] := fun s l =>
      List.eq_nil_of_length_eq_zero (length_laneSelection.trans (Nat.zero_min _))
    rw [if_pos rfl, hnil]
  · rw [if_neg hlimit]
    cases session with
    | none =>
      have hlegacy : queryLane (db.legacyLane now targets none) limit = [] := by
        simp [legacyLane, queryLane, sortLane]
      have hmerge : mergeTwoLanePeeks (queryLane (db.sessionLane now targets none) limit) [] limit
          = queryLane (db.sessionLane now targets none) limit := by
        unfold mergeTwoLanePeeks
        rw [if_neg hlimit]
        split
        · next hempty => rw [List.isEmpty_iff.mp hempty, List.take_nil]
        · rw [if_pos List.isEmpty_nil, queryLane, List.take_take, Nat.min_self]
      rw [← mergeTwoLanePeeks_queryLane, hlegacy, hmerge]
    | some s => rw [← mergeTwoLanePeeks_queryLane]

/-! ## 約束 -/

theorem bandSlots_eq (p : NotificationPriority) :
    db.bandSlots now targets session limit p
      = limit
        - ((below PromptRow.urgency p.toNat
              (sortLane (db.sessionLane now targets session))).length
          + (below PromptRow.urgency p.toNat
              (sortLane (db.legacyLane now targets session))).length) := by
  rw [bandSlots, ← (below_perm lanes_perm).length_eq, below_append, List.length_append,
    (below_perm sortLane_perm).length_eq, (below_perm sortLane_perm).length_eq]

/-- 選んだ行が `chosen` の帯のうち、一つの列にあるもの。 -/
theorem filter_lane_laneSelection {s l lane : List PromptRow} {n : Nat}
    (p : NotificationPriority) :
    ((laneSelection s l n).filter fun r => r.priority = p ∧ r ∈ lane)
      = (bandSelection s l n p.toNat).filter fun r => r ∈ lane := by
  rw [← band_laneSelection, band, List.filter_filter]
  refine List.filter_congr fun r _ => ?_
  rw [Bool.decide_and, Bool.and_comm]
  congr 1
  exact decide_eq_decide.mpr NotificationPriority.toNat_inj.symm

/-- 列の帯から選ぶ行は、その列に取り置いた枠を下回らない。 -/
theorem le_length_filter_lane {lane chosen other : List PromptRow} {n a p : Nat}
    (hperm : chosen.Perm ((band PromptRow.urgency p (sortLane lane)).take a ++ other))
    (ha : min n (band PromptRow.urgency p (sortLane lane)).length ≤ a) :
    min n (band PromptRow.urgency p lane).length ≤ (chosen.filter fun r => r ∈ lane).length := by
  have hself : ((band PromptRow.urgency p (sortLane lane)).take a).filter (fun r => r ∈ lane)
      = (band PromptRow.urgency p (sortLane lane)).take a :=
    List.filter_eq_self.mpr fun r hr => decide_eq_true
      (sortLane_perm.mem_iff.mp (mem_band.mp (List.mem_of_mem_take hr)).1)
  rw [(hperm.filter _).length_eq, List.filter_append, List.length_append, hself, List.length_take,
    ← (band_perm sortLane_perm).length_eq]
  omega

/-- 選び方の約束は、いつも成り立つ。 -/
theorem peek_choice :
    db.PeekChoice now targets session limit
      (laneSelection (sortLane (db.sessionLane now targets session))
        (sortLane (db.legacyLane now targets session)) limit) := by
  have hids := @lanes_ids_nodup db now targets session
  have hdisj : ∀ r ∈ db.sessionLane now targets session,
      r ∉ db.legacyLane now targets session :=
    fun r hs hl => (List.nodup_append.mp hids.of_map).2.2 r hs r hl rfl
  have helig : ∀ r, r ∈ db.peekEligible now targets session
      ↔ r ∈ sortLane (db.sessionLane now targets session)
        ∨ r ∈ sortLane (db.legacyLane now targets session) := fun r => by
    rw [← lanes_perm.mem_iff, List.mem_append, sortLane_perm.mem_iff, sortLane_perm.mem_iff]
  have hmem : ∀ r ∈ laneSelection (sortLane (db.sessionLane now targets session))
      (sortLane (db.legacyLane now targets session)) limit,
      r ∈ db.peekEligible now targets session := fun r hr =>
    (helig r).mpr (mem_of_mem_bandSelection (mem_laneSelection.mp hr)).1
  have hnodup : (sortLane (db.sessionLane now targets session)
      ++ sortLane (db.legacyLane now targets session)).Nodup :=
    (sortLane_perm.append sortLane_perm).nodup_iff.mpr hids.of_map
  constructor
  case distinct =>
    exact (nodup_laneSelection hnodup).map_on fun a ha b hb he =>
      List.inj_on_of_nodup_map peekEligible_ids_nodup (hmem a ha) (hmem b hb) he
  case eligible => exact hmem
  case count =>
    rw [length_laneSelection, sortLane_perm.length_eq, sortLane_perm.length_eq,
      ← List.length_append, lanes_perm.length_eq]
  case urgentFirst =>
    intro r hr x hx hlt
    exact mem_laneSelection_of_urgent hr ((helig x).mp hx) hlt
  case sessionReserve =>
    intro p
    obtain ⟨a, b, hperm, ha, -⟩ := @bandSelection_perm
      (sortLane (db.sessionLane now targets session))
      (sortLane (db.legacyLane now targets session)) limit p.toNat
    rw [filter_lane_laneSelection, bandSlots_eq]
    exact le_length_filter_lane hperm ha
  case legacyReserve =>
    intro p
    obtain ⟨a, b, hperm, -, hb⟩ := @bandSelection_perm
      (sortLane (db.sessionLane now targets session))
      (sortLane (db.legacyLane now targets session)) limit p.toNat
    rw [filter_lane_laneSelection, bandSlots_eq]
    exact le_length_filter_lane (hperm.trans List.perm_append_comm) hb
  case roundRobin =>
    intro lane hlane r hr hrl x hxl hprio hlt
    have hxr : x.urgency = r.urgency := congrArg NotificationPriority.toNat hprio
    rw [mem_laneSelection] at hr ⊢
    rw [hxr]
    obtain ⟨a, b, hperm, -, -⟩ := @bandSelection_perm
      (sortLane (db.sessionLane now targets session))
      (sortLane (db.legacyLane now targets session)) limit r.urgency
    rcases List.mem_cons.mp hlane with rfl | hlane
    · refine mem_of_targetRank_lt sessionLane_ids_nodup (fun y => hperm.mem_iff.trans List.mem_append) ?_ hr hrl
        hxl rfl hxr hlt
      exact fun y hy hys => hdisj y hys
        (sortLane_perm.mem_iff.mp (mem_band.mp (List.mem_of_mem_take hy)).1)
    · obtain rfl := List.mem_singleton.mp hlane
      refine mem_of_targetRank_lt legacyLane_ids_nodup
        (fun y => (hperm.trans List.perm_append_comm).mem_iff.trans List.mem_append) ?_ hr hrl
        hxl rfl hxr hlt
      exact fun y hy hyl => hdisj y
        (sortLane_perm.mem_iff.mp (mem_band.mp (List.mem_of_mem_take hy)).1) hyl

/-- 選んだ行が優先順位と番号の順に並ぶ条件。 -/
theorem laneSelection_ordered_iff :
    ((laneSelection (sortLane (db.sessionLane now targets session))
        (sortLane (db.legacyLane now targets session)) limit).Pairwise fun a b =>
          a.priority.toNat < b.priority.toNat
            ∨ a.priority.toNat = b.priority.toNat ∧ a.id < b.id)
      ↔ db.PeekInIdOrder now targets session limit := by
  have hdistinct := (@peek_choice db now targets session limit).distinct
  refine (pairwise_key_iff keySorted_laneSelection).trans ?_
  -- 帯ごとに、両方の列に行があれば番号の順で、片方だけなら読まれる順の頭である。
  have hband : ∀ p : NotificationPriority,
      (band PromptRow.urgency p.toNat
          (laneSelection (sortLane (db.sessionLane now targets session))
            (sortLane (db.legacyLane now targets session)) limit)).Pairwise
          (fun a b => a.id < b.id)
        ↔ (band PromptRow.urgency p.toNat (db.legacyLane now targets session) = [] →
            InIdOrder (db.sessionLane now targets session) p.toNat
              (db.bandSlots now targets session limit p))
          ∧ (band PromptRow.urgency p.toNat (db.sessionLane now targets session) = [] →
            InIdOrder (db.legacyLane now targets session) p.toNat
              (db.bandSlots now targets session limit p)) := by
    intro p
    have hpermS := @band_perm _ PromptRow.urgency _ p.toNat _
      (@sortLane_perm (db.sessionLane now targets session))
    have hpermL := @band_perm _ PromptRow.urgency _ p.toNat _
      (@sortLane_perm (db.legacyLane now targets session))
    have hempty : ∀ lane : List PromptRow, band PromptRow.urgency p.toNat lane = [] →
        InIdOrder lane p.toNat (db.bandSlots now targets session limit p) := by
      intro lane hnil x hx
      rw [hnil] at hx
      exact absurd hx List.not_mem_nil
    by_cases hs : band PromptRow.urgency p.toNat (db.sessionLane now targets session) = []
    · have hs' := (hpermS.trans (List.Perm.of_eq hs)).eq_nil
      rw [band_laneSelection, bandSelection, hs', fairQuota_nil_left,
        ← bandSlots_eq, take_band_pairwise_iff legacyLane_ids_nodup]
      exact ⟨fun h => ⟨fun _ => hempty _ hs, fun _ => h⟩, fun h => h.2 hs⟩
    · by_cases hl : band PromptRow.urgency p.toNat (db.legacyLane now targets session) = []
      · have hl' := (hpermL.trans (List.Perm.of_eq hl)).eq_nil
        rw [band_laneSelection, bandSelection, hl', fairQuota_nil_right,
          ← bandSlots_eq, take_band_pairwise_iff sessionLane_ids_nodup]
        exact ⟨fun h => ⟨fun _ => h, fun h' => absurd h' hs⟩, fun h => h.1 hl⟩
      · refine iff_of_true ?_ ⟨fun h => absurd h hl, fun h => absurd h hs⟩
        have hne := (List.pairwise_map.mp hdistinct).sublist
          (@List.filter_sublist _ (fun a : PromptRow => a.urgency = p.toNat) _)
        have hle := @fairQuota_pairwise
          (band PromptRow.urgency p.toNat (sortLane (db.sessionLane now targets session)))
          (band PromptRow.urgency p.toNat (sortLane (db.legacyLane now targets session)))
          (db.bandSlots now targets session limit p)
          (fun h => hs (hpermS.symm.trans (List.Perm.of_eq h)).eq_nil)
          (fun h => hl (hpermL.symm.trans (List.Perm.of_eq h)).eq_nil)
        rw [bandSlots_eq, ← bandSelection, ← band_laneSelection] at hle
        exact (hle.and hne).imp fun h => Nat.lt_of_le_of_ne h.1 h.2
  constructor
  · exact fun h p => (hband p).mp (h p.toNat)
  · intro h p
    by_cases hp : p ∈ [0, 1, 2]
    · have hcases : ∃ q : NotificationPriority, q.toNat = p := by
        simp only [List.mem_cons, List.not_mem_nil, or_false] at hp
        rcases hp with rfl | rfl | rfl
        · exact ⟨.critical, rfl⟩
        · exact ⟨.high, rfl⟩
        · exact ⟨.normal, rfl⟩
      obtain ⟨q, rfl⟩ := hcases
      exact (hband q).mpr (h q)
    · rw [band_eq_nil fun (a : PromptRow) _ (he : a.urgency = p) => hp (he ▸ a.urgency_mem)]
      exact List.Pairwise.nil

/-- 宛先があれば選んで返す。選び方は約束どおりで、並びまで約束どおりになるのは `PeekInIdOrder` のときに限る。 -/
theorem peek_contract_iff (htargets : targets ≠ []) :
    ∃ chosen, db.peekForTargets now targets session limit = .ok chosen
      ∧ db.PeekChoice now targets session limit chosen
      ∧ (db.PeekContract now targets session limit chosen
        ↔ db.PeekInIdOrder now targets session limit) := by
  refine ⟨_, peekForTargets_eq htargets, peek_choice, ?_⟩
  constructor
  · exact fun h => laneSelection_ordered_iff.mp h.ordered
  · exact fun h => ⟨peek_choice, laneSelection_ordered_iff.mpr h⟩

end Lanes

/-- session `"s"` から宛先への伝言。 -/
def backlogPrompt (target : String) (session : Option String) : NewPrompt :=
  { source := "supervisor", target, prompt := "hello", createdAt := 0, factorySession := session }

/-- `"a"` への二行の後に `"b"` への行が来て、その後に古い伝言がある。 -/
def twoLaneBacklog : PromptDb :=
  [backlogPrompt "a" (some "s"), backlogPrompt "a" (some "s"), backlogPrompt "b" (some "s"),
    backlogPrompt "b" none].foldl insert empty

/-- 上から古い伝言を除いたもの。 -/
def oneLaneBacklog : PromptDb :=
  [backlogPrompt "a" (some "s"), backlogPrompt "a" (some "s"), backlogPrompt "b" (some "s")].foldl
    insert empty

theorem peek_contract_iff_twoLane :
    ∃ chosen, twoLaneBacklog.peekForTargets 0 ["a", "b"] (some "s") 4 = .ok chosen
      ∧ twoLaneBacklog.PeekContract 0 ["a", "b"] (some "s") 4 chosen := by
  obtain ⟨chosen, hok, -, hiff⟩ := @peek_contract_iff twoLaneBacklog 0 ["a", "b"] (some "s") 4
    (by decide)
  refine ⟨chosen, hok, hiff.mpr fun p => ?_⟩
  cases p <;> decide

/-- 片方の列にしか行の無い帯は、宛先ごとの順番のまま返る。 -/
theorem one_lane_band_not_fifo :
    ∃ chosen, oneLaneBacklog.peekForTargets 0 ["a", "b"] (some "s") 3 = .ok chosen
      ∧ chosen.map PromptRow.id = [1, 3, 2]
      ∧ ¬oneLaneBacklog.PeekContract 0 ["a", "b"] (some "s") 3 chosen := by
  refine ⟨_, peekForTargets_eq (by decide), by decide, fun h => ?_⟩
  exact absurd h.ordered (by decide)

end PromptDb

end Cassy
