import Mathlib.Data.List.Basic
import Mathlib.Tactic.Common

/-!
# 一つずつ照合する

列の中の区切りを、要素を一つずつ受け取りながら探す。持つのは、区切りの先頭から何個まで合っているかだけである。

* `cutAt` — 列の全体から、区切りが最初に現れるところを探す
* `advance` — 一つ受け取った後に合っている数
* `seek` — 一つずつ受け取って、区切りが揃ったところで止まる

区切りの頭が区切りの中に二度現れないなら、合わなかったときに残る数は、頭が来たかどうかで決まる。このときに限って、
一つずつの照合は全体の探索と同じ場所で止まる。
-/

namespace Cassy.Infra

variable {α : Type} [DecidableEq α]

/-- 区切りが最初に現れるところで切る。 -/
def cutAt (pat : List α) : List α → Option (List α × List α)
  | [] => if pat = [] then some ([], []) else none
  | c :: cs =>
    if pat.isPrefixOf (c :: cs) then some ([], (c :: cs).drop pat.length)
    else (cutAt pat cs).map fun r => (c :: r.1, r.2)

/-- 一つ受け取った後に、先頭から合っている数。 -/
def advance (pat : List α) (p : Nat) (b : α) : Nat :=
  if pat[p]? = some b then p + 1 else if pat.head? = some b then 1 else 0

/-- 区切りが揃うまで受け取る。受け取ったものと残りを返す。 -/
def seek (pat : List α) : Nat → List α → Option (List α × List α)
  | _, [] => none
  | p, b :: s =>
    if advance pat p b = pat.length then some ([b], s)
    else (seek pat (advance pat p b) s).map fun r => (b :: r.1, r.2)

section Cut

variable {pat : List α}

theorem cutAt_eq_some {t : List α} {r : List α × List α} (h : cutAt pat t = some r) :
    t = r.1 ++ (pat ++ r.2) := by
  induction t generalizing r with
  | nil =>
    unfold cutAt at h
    split at h
    · next hnil =>
      rw [← Option.some.inj h, hnil]
      rfl
    · cases h
  | cons c cs ih =>
    unfold cutAt at h
    split at h
    · next hpre =>
      obtain ⟨z, hz⟩ := List.isPrefixOf_iff_prefix.mp hpre
      rw [← Option.some.inj h, ← hz, List.drop_left]
      rfl
    · obtain ⟨r', hr', rfl⟩ := Option.map_eq_some_iff.mp h
      rw [ih hr']
      rfl

theorem cutAt_append (hne : pat ≠ []) (s : List α) : cutAt pat (pat ++ s) = some ([], s) := by
  cases pat with
  | nil => exact absurd rfl hne
  | cons d ps =>
    have hpre : (d :: ps).isPrefixOf (d :: (ps ++ s)) = true :=
      List.isPrefixOf_iff_prefix.mpr (List.prefix_append (d :: ps) s)
    rw [List.cons_append, cutAt, if_pos hpre, ← List.cons_append, List.drop_left]

theorem cutAt_cons_of_not_prefix {c : α} {cs : List α} (h : ¬ pat <+: c :: cs) :
    cutAt pat (c :: cs) = (cutAt pat cs).map fun r => (c :: r.1, r.2) := by
  have hpre : ¬ pat.isPrefixOf (c :: cs) = true := fun hp => h (List.isPrefixOf_iff_prefix.mp hp)
  rw [cutAt, if_neg hpre]

/-- 頭の現れない列は、探索に掛からない。 -/
theorem cutAt_append_of_head {d : α} {ps : List α} {w s : List α} (hw : d ∉ w) :
    cutAt (d :: ps) (w ++ s) = (cutAt (d :: ps) s).map fun r => (w ++ r.1, r.2) := by
  induction w with
  | nil =>
    rw [List.nil_append]
    cases cutAt (d :: ps) s <;> rfl
  | cons c w ih =>
    have hc : d ≠ c := fun heq => hw (heq ▸ List.mem_cons_self)
    have hnot : ¬ d :: ps <+: c :: (w ++ s) := fun hpre => hc (List.cons_prefix_cons.mp hpre).1
    rw [List.cons_append, cutAt_cons_of_not_prefix hnot, ih fun h => hw (List.mem_cons_of_mem c h),
      Option.map_map]
    rfl

end Cut

section Seek

variable {d : α} {ps : List α}

theorem seek_ne_nil {pat s : List α} {p : Nat} {r : List α × List α} (h : seek pat p s = some r) :
    r.1 ≠ [] := by
  cases s with
  | nil => cases h
  | cons b s =>
    unfold seek at h
    split at h
    · rw [← Option.some.inj h]
      exact List.cons_ne_nil b []
    · obtain ⟨r', -, rfl⟩ := Option.map_eq_some_iff.mp h
      exact List.cons_ne_nil b r'.1

theorem advance_le (p : Nat) (b : α) (hp : p < (d :: ps).length) :
    advance (d :: ps) p b ≤ (d :: ps).length := by
  unfold advance
  split
  · exact hp
  · split
    · rw [List.length_cons]
      omega
    · exact Nat.zero_le _

omit [DecidableEq α] in
theorem take_append_match {p : Nat} {b : α} (h : (d :: ps)[p]? = some b) (s : List α) :
    (d :: ps).take p ++ b :: s = (d :: ps).take (p + 1) ++ s := by
  obtain ⟨hp, hb⟩ := List.getElem?_eq_some_iff.mp h
  rw [List.take_succ_eq_append_getElem hp, hb, List.append_assoc]
  rfl

/-- 合わなければ、それまでに合っていた場所からは始まらない。 -/
theorem cutAt_take_mismatch (hd : d ∉ ps) {p : Nat} {b : α} (hp : p ≤ ps.length)
    (h : (d :: ps)[p]? ≠ some b) (s : List α) :
    cutAt (d :: ps) ((d :: ps).take p ++ b :: s)
      = (cutAt (d :: ps) (b :: s)).map fun r => ((d :: ps).take p ++ r.1, r.2) := by
  cases p with
  | zero =>
    rw [List.take_zero, List.nil_append]
    cases cutAt (d :: ps) (b :: s) <;> rfl
  | succ p =>
    have hnot : ¬ d :: ps <+: d :: (ps.take p ++ b :: s) := by
      intro hpre
      refine h ?_
      have hlen : (ps.take p).length = p := List.length_take_of_le (Nat.le_of_succ_le hp)
      obtain ⟨z, hz⟩ := (List.cons_prefix_cons.mp hpre).2
      have hget : (ps ++ z)[p]? = (ps.take p ++ b :: s)[p]? := congrArg (fun l => l[p]?) hz
      rw [List.getElem?_append_left (Nat.lt_of_succ_le hp),
        List.getElem?_append_right (Nat.le_of_eq hlen), hlen, Nat.sub_self] at hget
      exact hget
    have hw : d ∉ ps.take p := fun hmem => hd (List.mem_of_mem_take hmem)
    rw [List.take_succ_cons, List.cons_append, cutAt_cons_of_not_prefix hnot,
      cutAt_append_of_head hw, Option.map_map]
    rfl

/-- 途中まで合った列だけでは、区切りは現れない。 -/
theorem cutAt_take {p : Nat} (hp : p ≤ ps.length) : cutAt (d :: ps) ((d :: ps).take p) = none := by
  cases hcut : cutAt (d :: ps) ((d :: ps).take p) with
  | none => rfl
  | some r =>
    have hlen := congrArg List.length (cutAt_eq_some hcut)
    rw [List.length_append, List.length_append, List.length_take, List.length_cons] at hlen
    omega

/-- 切った前半と区切りの先頭 `p + 1` 個は、照合した `p + 1` 個である。 -/
theorem getElem?_of_cutAt_take {p : Nat} {b : α} {s : List α} {r : List α × List α}
    (hmatch : (d :: ps)[p]? = some b) (hlt : p + 1 ≤ ps.length)
    (hcut : cutAt (d :: ps) ((d :: ps).take (p + 1) ++ s) = some r) :
    (r.1 ++ (d :: ps))[p]? = some b := by
  have htext := cutAt_eq_some hcut
  have hleft : p < ((d :: ps).take (p + 1)).length := by
    rw [List.length_take, List.length_cons]
    omega
  have hright : p < (r.1 ++ (d :: ps)).length := by
    rw [List.length_append, List.length_cons]
    omega
  rw [← List.append_assoc] at htext
  have hpos : ((d :: ps).take (p + 1) ++ s)[p]? = ((r.1 ++ (d :: ps)) ++ r.2)[p]? :=
    congrArg (fun l => l[p]?) htext
  rw [List.getElem?_append_left hleft, List.getElem?_append_left hright,
    List.getElem?_take_of_lt (Nat.lt_succ_self p), hmatch] at hpos
  exact hpos.symm

/-- 区切りの頭で始まる列を切ると、前半と区切りもその頭で始まる。 -/
theorem cons_tail_of_cutAt {s : List α} {r : List α × List α}
    (hcut : cutAt (d :: ps) (d :: s) = some r) :
    r.1 ++ (d :: ps) = d :: (r.1 ++ (d :: ps)).tail := by
  have htext := cutAt_eq_some hcut
  cases hr : r.1 with
  | nil => rfl
  | cons x xs =>
    rw [hr, List.cons_append] at htext
    rw [(List.cons.inj htext).1]
    rfl

/--
一つずつの照合は、全体の探索と同じ場所で止まる。既に `p` 個合っていれば、その `p` 個を前に置いた列を探すのと同じである。
-/
theorem seek_eq (hd : d ∉ ps) (s : List α) (p : Nat) (hp : p ≤ ps.length) :
    seek (d :: ps) p s
      = (cutAt (d :: ps) ((d :: ps).take p ++ s)).map fun r => ((r.1 ++ (d :: ps)).drop p, r.2) := by
  induction s generalizing p with
  | nil =>
    rw [List.append_nil, cutAt_take hp]
    rfl
  | cons b s ih =>
    unfold seek
    by_cases hmatch : (d :: ps)[p]? = some b
    · have hadv : advance (d :: ps) p b = p + 1 := if_pos hmatch
      have hget := List.getElem?_eq_some_iff.mp hmatch
      rw [hadv, take_append_match hmatch]
      by_cases hlast : p + 1 = (d :: ps).length
      · have hdrop : (d :: ps).drop p = [b] := by
          rw [List.drop_eq_getElem_cons hget.1, hget.2, hlast, List.drop_length]
        rw [if_pos hlast, hlast, List.take_length, cutAt_append (List.cons_ne_nil d ps),
          Option.map_some, List.nil_append, hdrop]
      · have hlt : p + 1 ≤ ps.length := by
          rw [List.length_cons] at hlast
          omega
        rw [if_neg hlast, ih (p + 1) hlt]
        cases hcut : cutAt (d :: ps) ((d :: ps).take (p + 1) ++ s) with
        | none => rfl
        | some r =>
          obtain ⟨hlen, hval⟩ := List.getElem?_eq_some_iff.mp (getElem?_of_cutAt_take hmatch hlt hcut)
          rw [Option.map_some, Option.map_some, Option.map_some, List.drop_eq_getElem_cons hlen, hval]
    · have htake : ((d :: ps).take p).length = p := List.length_take_of_le (by
        rw [List.length_cons]
        omega)
      rw [cutAt_take_mismatch hd hp hmatch]
      by_cases hb : b = d
      · -- 頭が来た: 一つだけ合っている
        subst hb
        have hps : p ≠ 0 := by
          rintro rfl
          exact hmatch rfl
        have hadv : advance (b :: ps) p b = 1 := by
          unfold advance
          rw [if_neg hmatch, if_pos (by rfl)]
        have hshort : 1 ≠ (b :: ps).length := by
          rw [List.length_cons]
          omega
        rw [hadv, if_neg hshort, ih 1 (by omega), Option.map_map, Option.map_map]
        show Option.map _ (cutAt (b :: ps) (b :: s)) = Option.map _ (cutAt (b :: ps) (b :: s))
        cases hcut : cutAt (b :: ps) (b :: s) with
        | none => rfl
        | some r =>
          rw [Option.map_some, Option.map_some]
          dsimp only [Function.comp_apply]
          rw [List.append_assoc, List.drop_left' htake, List.drop_one, ← cons_tail_of_cutAt hcut]
      · -- 頭でもない: 何も合っていない
        have hadv : advance (d :: ps) p b = 0 := by
          unfold advance
          rw [if_neg hmatch, if_neg]
          intro hhead
          exact hb (Option.some.inj hhead).symm
        have hnot : ¬ d :: ps <+: b :: s := fun hpre => hb (List.cons_prefix_cons.mp hpre).1.symm
        have hnonempty : 0 ≠ (d :: ps).length := Nat.ne_of_lt (Nat.succ_pos ps.length)
        rw [hadv, if_neg hnonempty, ih 0 (Nat.zero_le _), cutAt_cons_of_not_prefix hnot,
          Option.map_map, Option.map_map, Option.map_map]
        show Option.map _ (cutAt (d :: ps) s) = Option.map _ (cutAt (d :: ps) s)
        cases cutAt (d :: ps) s with
        | none => rfl
        | some r =>
          rw [Option.map_some, Option.map_some]
          dsimp only [Function.comp_apply]
          rw [List.append_assoc, List.drop_left' htake]
          rfl

end Seek

end Cassy.Infra
