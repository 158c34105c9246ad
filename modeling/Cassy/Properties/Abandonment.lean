import Mathlib.Data.Nat.Digits.Defs
import Cassy.Infra.Lines
import Cassy.Prompt.Abandonment

/-!
# 知らせは枠に収まる

まとめた知らせは、包みと最も長い続きの行を付けても hook の枠に収まる。枠に収まる知らせに一件ずつ足しても、収まったままで
ある。足す側の不変量は、続きの行を除いた本文に最も長い続きの行を付けて収まることである（`Foldable`）。
-/

namespace Cassy

open Infra

/-! ## 長さ -/

theorem natText_length_le {n : Nat} (h : n ≤ u64Max) : (natText n).length ≤ 20 :=
  Nat.toDigits_length 10 n 20 (by decide) (Nat.lt_of_le_of_lt h (by decide))

theorem natText_u64Max : (natText u64Max).length = 20 := by decide

theorem noticeReserve_eq : noticeReserve = 254 := by decide +kernel

theorem omission_length (n : Nat) : (omission n).length = (natText n).length + 37 := by
  have hopen : " (".toList.length = 2 := by decide
  have hclose : " ids omitted; see `message_status`)".toList.length = 35 := by decide
  unfold omission
  rw [List.length_append, List.length_append, hopen, hclose]
  omega

theorem moreLine_length_le {n : Nat} (h : n ≤ u64Max) :
    (moreLine n).length ≤ (moreLine u64Max).length := by
  have hn := natText_length_le h
  unfold moreLine
  rw [List.length_append, List.length_append, List.length_cons, List.length_cons, natText_u64Max]
  omega

/-- 数字の列は空白でない文字で始まり、終わる。 -/
theorem not_isWhitespace_of_isDigit {c : Char} (h : c.isDigit = true) : isWhitespace c = false := by
  unfold Char.isDigit at h
  simp only [Bool.and_eq_true, decide_eq_true_eq] at h
  have hlow : 48 ≤ c.toNat := h.1
  have hhigh : c.toNat ≤ 57 := h.2
  unfold isWhitespace
  simp only [Bool.or_eq_false_iff, Bool.and_eq_false_iff, decide_eq_false_iff_not, beq_eq_false_iff_ne]
  omega

theorem natText_solid (n : Nat) : ∀ c ∈ natText n, isWhitespace c = false := fun _ hc =>
  not_isWhitespace_of_isDigit (Nat.isDigit_of_mem_toDigits (by decide) (by decide) hc)

theorem natText_ne_nil (n : Nat) : natText n ≠ [] := Nat.toDigits_ne_nil

theorem i64Text_solid (i : Int64) : ∀ c ∈ i64Text i, isWhitespace c = false := by
  intro c hc
  unfold i64Text at hc
  split at hc
  · exact natText_solid _ c hc
  · rcases List.mem_cons.mp hc with rfl | hc
    · decide
    · exact natText_solid _ c hc

theorem i64Text_ne_nil (i : Int64) : i64Text i ≠ [] := by
  unfold i64Text
  split
  · exact natText_ne_nil _
  · exact List.cons_ne_nil _ _

/-! ## 落ちる空白の無い文字列 -/

/-- 空白でない文字で始まる。 -/
def StartsSolid (t : Text) : Prop := ∃ c rest, t = c :: rest ∧ isWhitespace c = false

theorem StartsSolid.append {t : Text} (h : StartsSolid t) (y : Text) : StartsSolid (t ++ y) := by
  obtain ⟨c, rest, rfl, hc⟩ := h
  exact ⟨c, rest ++ y, rfl, hc⟩

theorem startsSolid_of_forall {t : Text} (hne : t ≠ []) (h : ∀ c ∈ t, isWhitespace c = false) :
    StartsSolid t := by
  obtain ⟨c, rest, rfl⟩ := List.exists_cons_of_ne_nil hne
  exact ⟨c, rest, rfl, h c List.mem_cons_self⟩

theorem trimStart_of_startsSolid {t : Text} (h : StartsSolid t) : trimStart t = t := by
  obtain ⟨c, rest, rfl, hc⟩ := h
  rw [trimStart, List.dropWhile_cons_of_neg (by simp [hc])]

/-- 空白でない文字で終わる列を繋げば、末尾から落ちるものは無い。 -/
theorem trimEnd_append_solid (x : Text) {y : Text} (hne : y ≠ [])
    (h : ∀ c ∈ y.getLast?, isWhitespace c = false) : trimEnd (x ++ y) = x ++ y := by
  obtain ⟨front, last, rfl⟩ := List.eq_nil_or_concat y |>.resolve_left hne
  have hlast : isWhitespace last = false := h last (by simp)
  unfold trimEnd
  rw [List.concat_eq_append, List.reverse_append, List.reverse_append, List.reverse_singleton,
    List.singleton_append, List.cons_append, List.dropWhile_cons_of_neg (by simp [hlast])]
  simp

theorem hookSurfaceCost_le (t : Text) : hookSurfaceCost t ≤ t.length + 400 :=
  Nat.add_le_add_right (length_trim_le t) 400

/-! ## まとめた知らせ -/

/-- 番号の並び。二つ目からは区切りを置く。 -/
def idList : Nat → List Int64 → Text
  | _, [] => []
  | index, id :: ids =>
    (if index = 0 then [] else ", ".toList) ++ i64Text id ++ idList (index + 1) ids

theorem idList_zero (ids : List Int64) :
    idList 0 ids = List.intercalate ", ".toList (ids.map i64Text) := by
  have hsucc : ∀ (ids : List Int64) (index : Nat),
      idList (index + 1) ids = (ids.map fun id => ", ".toList ++ i64Text id).flatten := by
    intro ids
    induction ids with
    | nil => exact fun _ => rfl
    | cons id ids ih =>
      intro index
      rw [idList, if_neg (Nat.succ_ne_zero index), ih (index + 1), List.map_cons, List.flatten_cons]
  cases ids with
  | nil => rfl
  | cons id ids =>
    rw [idList, if_pos rfl, hsucc, List.nil_append, List.map_cons]
    clear hsucc
    induction ids generalizing id with
    | nil => simp
    | cons id' ids ih =>
      rw [List.map_cons, List.flatten_cons, List.map_cons, List.intercalate_cons_cons, ← ih id',
        List.append_assoc, List.append_assoc]

/-- 省略の文。省いたものが無ければ何も書かない。 -/
def omitted (count : Nat) : Text := if count = 0 then [] else omission count

/-- 番号を足す段の不変量。残りの番号を省いても枠に収まる。 -/
structure Roomy (body : Text) (left : Nat) : Prop where
  starts : StartsSolid body
  room : body.length + (omitted left).length + noticeReserve + hookSurfaceRowOverheadChars
    ≤ hookSurfaceBudgetChars

/-- 書いたのは頭からの番号で、書かなかった番号の数を言う。 -/
theorem appendIds_spec {count : Nat} : ∀ (ids : List Int64) (index : Nat) (body : Text),
    index + ids.length = count → Roomy body ids.length →
    ∃ shown left, shown + left = ids.length
      ∧ appendIds count index body ids = body ++ idList index (ids.take shown) ++ omitted left
      ∧ (appendIds count index body ids).length + noticeReserve + hookSurfaceRowOverheadChars
        ≤ hookSurfaceBudgetChars
  | [], index, body, _, hroom =>
    ⟨0, 0, rfl, by simp [appendIds, idList, omitted], by
      have h := hroom.room
      simp only [List.length_nil, omitted, if_pos] at h
      exact h⟩
  | id :: ids, index, body, hcount, hroom => by
    rw [List.length_cons] at hcount
    have hleft : count - index - 1 = ids.length := by omega
    have hall : count - index = ids.length + 1 := by omega
    rw [appendIds, hleft, hall]
    generalize hsep : (if index = 0 then ([] : Text) else ", ".toList) = separator
    have hsolid : trim (body ++ separator ++ i64Text id) = body ++ separator ++ i64Text id := by
      have hstart := (hroom.starts.append separator).append (i64Text id)
      rw [trim, trimStart_of_startsSolid hstart]
      refine trimEnd_append_solid _ (i64Text_ne_nil id) fun c hc => ?_
      exact i64Text_solid id c (List.mem_of_getLast? hc)
    by_cases hover : hookSurfaceBudgetChars < hookSurfaceCost (body ++ separator ++ i64Text id)
        + (if ids.length = 0 then ([] : Text) else omission ids.length).length + noticeReserve
    · rw [if_pos hover]
      have h := hroom.room
      rw [List.length_cons, omitted, if_neg (Nat.succ_ne_zero _)] at h
      refine ⟨0, ids.length + 1, by rw [List.length_cons, Nat.zero_add], ?_, ?_⟩
      · rw [List.take_zero, idList, List.append_nil, omitted, if_neg (Nat.succ_ne_zero _)]
      · rw [List.length_append]
        exact h
    · rw [if_neg hover]
      have hroom' : Roomy (body ++ separator ++ i64Text id) ids.length := by
        refine ⟨(hroom.starts.append separator).append (i64Text id), ?_⟩
        unfold hookSurfaceCost at hover
        rw [hsolid] at hover
        unfold omitted
        omega
      obtain ⟨shown, left, hsum, heq, hlen⟩ := @appendIds_spec count ids (index + 1) _
        (by omega) hroom'
      refine ⟨shown + 1, left, by rw [List.length_cons]; omega, ?_, hlen⟩
      rw [heq, List.take_succ_cons, idList, hsep]
      simp only [List.append_assoc]

/-- 見出しに使える文字数。引き算は 0 で止まらない。 -/
theorem headerBudget_add {count : Nat} (h : count ≤ u64Max) :
    headerBudget count + (omission count).length + 681 = hookSurfaceBudgetChars
      ∧ 4000 ≤ headerBudget count := by
  have hids : "; ids ".utf8ByteSize = 6 := by decide
  have hmin : (i64Text Int64.minValue).length = 20 := by decide
  have hdigits := natText_length_le h
  have homit := omission_length count
  unfold headerBudget
  rw [noticeReserve_eq, hids, hmin]
  unfold hookSurfaceBudgetChars hookSurfaceRowOverheadChars
  omega

theorem startsSolid_shortHeader {count : Nat} (h : count ≤ u64Max) (targets reasons : Text) :
    StartsSolid (shortHeader count (batchHeader count targets reasons)) := by
  have hstart : StartsSolid (batchHeader count targets reasons) := by
    unfold batchHeader
    simp only [List.append_assoc]
    exact (startsSolid_of_forall (natText_ne_nil count) (natText_solid count)).append _
  unfold shortHeader
  split
  · obtain ⟨c, rest, heq, hc⟩ := hstart
    obtain ⟨n, hn⟩ : ∃ n, headerBudget count - 1 = n + 1 := ⟨headerBudget count - 2, by
      have hbudget := (headerBudget_add h).2
      omega⟩
    rw [heq, hn, List.take_succ_cons]
    exact ⟨c, rest.take n ++ ['…'], rfl, hc⟩
  · exact hstart

theorem length_shortHeader_le {count : Nat} (h : count ≤ u64Max) (header : Text) :
    (shortHeader count header).length ≤ headerBudget count := by
  have hbudget := (headerBudget_add h).2
  unfold shortHeader
  split
  next hlt =>
    rw [List.length_append, List.length_take, List.length_singleton]
    omega
  next hle => exact Nat.le_of_not_lt hle

/-- 知らせは、枠に収めた見出しと、頭からの番号と、省いた番号の数からなる。包みと最も長い続きの行を付けても枠に収まる。 -/
theorem abandonmentBatchNotice_spec {ids : List Int64} (h : ids.length ≤ u64Max)
    (targets reasons : Text) :
    ∃ shown left, shown + left = ids.length
      ∧ abandonmentBatchNotice ids targets reasons
        = shortHeader ids.length (batchHeader ids.length targets reasons) ++ "; ids ".toList
          ++ List.intercalate ", ".toList ((ids.take shown).map i64Text) ++ omitted left
      ∧ hookSurfaceCost (abandonmentUpdateNotice (abandonmentBatchNotice ids targets reasons)
        ++ largestTrailer) ≤ hookSurfaceBudgetChars := by
  have hbudget := headerBudget_add h
  have hheader := length_shortHeader_le h (batchHeader ids.length targets reasons)
  have hids : "; ids ".toList.length = 6 := by decide
  have hroom : Roomy (shortHeader ids.length (batchHeader ids.length targets reasons)
      ++ "; ids ".toList) ids.length := by
    refine ⟨(startsSolid_shortHeader h targets reasons).append _, ?_⟩
    have homit : (omitted ids.length).length ≤ (omission ids.length).length := by
      unfold omitted
      split
      · exact Nat.zero_le _
      · exact Nat.le_refl _
    rw [List.length_append, hids, noticeReserve_eq]
    unfold hookSurfaceRowOverheadChars
    omega
  obtain ⟨shown, left, hsum, heq, hlen⟩ := appendIds_spec ids 0 _ (Nat.zero_add _) hroom
  refine ⟨shown, left, hsum, ?_, ?_⟩
  · rw [← idList_zero]
    exact heq
  · refine Nat.le_trans (hookSurfaceCost_le _) ?_
    have hwrap : (abandonmentUpdateNotice (abandonmentBatchNotice ids targets reasons)
        ++ largestTrailer).length
        = (abandonmentBatchNotice ids targets reasons).length + noticeReserve := by
      unfold noticeReserve abandonmentUpdateNotice
      simp only [List.length_append, List.length_nil]
      omega
    have hbatch : (abandonmentBatchNotice ids targets reasons).length + noticeReserve
        + hookSurfaceRowOverheadChars ≤ hookSurfaceBudgetChars := hlen
    rw [hwrap]
    exact hbatch

/-! ## 足す -/

/-- 空白でない行を付けたときの長さ。 -/
theorem length_trim_append_line (x : Text) {w : Text} (hstart : StartsSolid w)
    (hend : ∀ c ∈ w.getLast?, isWhitespace c = false) :
    (trim (x ++ '\n' :: w)).length
      = (if trimStart x = [] then 0 else (trimStart x).length + 1) + w.length := by
  have hne : w ≠ [] := by
    obtain ⟨c, rest, rfl, -⟩ := hstart
    exact List.cons_ne_nil c rest
  by_cases hx : trimStart x = []
  · have hblank : Blank x := List.dropWhile_eq_nil_iff.mp hx
    have htrim : trimStart (x ++ '\n' :: w) = w := by
      have hdrop := @List.dropWhile_append_of_pos _ isWhitespace _ ('\n' :: w) hblank
      rw [trimStart, hdrop, List.dropWhile_cons_of_pos isWhitespace_newline]
      exact trimStart_of_startsSolid hstart
    have hself := trimEnd_append_solid [] hne hend
    rw [List.nil_append] at hself
    rw [if_pos hx, Nat.zero_add, trim, htrim, hself]
  · have hself := trimEnd_append_solid (trimStart x ++ ['\n']) hne hend
    rw [List.append_assoc, List.singleton_append] at hself
    rw [if_neg hx, trim, trimStart_append hx, hself, List.length_append, List.length_cons]
    omega

theorem startsSolid_moreLine (n : Nat) : StartsSolid (moreLine n) := ⟨'+', _, rfl, by decide⟩

theorem moreLine_getLast (n : Nat) : ∀ c ∈ (moreLine n).getLast?, isWhitespace c = false := by
  have hlast : abandonmentMoreSuffix.getLast? = some '.' := by decide
  intro c hc
  unfold moreLine at hc
  rw [List.getLast?_append, hlast, Option.some_or, Option.mem_some] at hc
  rw [← hc]
  decide

theorem newline_notMem_moreLine (n : Nat) : '\n' ∉ moreLine n := by
  have hsuffix : '\n' ∉ abandonmentMoreSuffix := by decide
  have hdigits : '\n' ∉ natText n := fun h => by
    have hsolid := natText_solid n _ h
    rw [isWhitespace_newline] at hsolid
    cases hsolid
  unfold moreLine
  simp only [List.cons_append, List.mem_cons, List.mem_append, not_or]
  exact ⟨by decide, hdigits, hsuffix⟩

theorem fitsHookSurface_iff {t : Text} : fitsHookSurface t = true ↔ (trim t).length ≤ 4600 := by
  unfold fitsHookSurface hookSurfaceCost hookSurfaceBudgetChars hookSurfaceRowOverheadChars
  rw [decide_eq_true_eq]
  omega

/-- 最後の行を除いても、続きの行を付けた長さは増えない。 -/
theorem length_trim_head_le {head last w : Text} (hstart : StartsSolid w)
    (hend : ∀ c ∈ w.getLast?, isWhitespace c = false) :
    (trim (head ++ '\n' :: w)).length ≤ (trim (head ++ '\n' :: last ++ '\n' :: w)).length := by
  rw [length_trim_append_line head hstart hend, length_trim_append_line _ hstart hend]
  by_cases hhead : trimStart head = []
  · rw [if_pos hhead]
    omega
  · have happend := trimStart_append hhead ('\n' :: last)
    have hne : trimStart (head ++ '\n' :: last) ≠ [] := by simp [happend]
    rw [if_neg hhead, if_neg hne, happend, List.length_append, List.length_cons]
    omega

/-- 行を付けても、落とした長さは減らない。 -/
theorem length_trim_le_append_line {x w : Text} (hstart : StartsSolid w)
    (hend : ∀ c ∈ w.getLast?, isWhitespace c = false) :
    (trim x).length ≤ (trim (x ++ '\n' :: w)).length := by
  rw [length_trim_append_line x hstart hend]
  by_cases hx : trimStart x = []
  · rw [trim, hx]
    exact Nat.zero_le _
  · have hle := length_trimEnd_le (trimStart x)
    rw [if_neg hx, trim]
    omega

/-- 読まれていない知らせの不変量。続きの行を除いた本文に、最も長い続きの行を付けても収まる。 -/
structure Foldable (prompt : Text) : Prop where
  fits : fitsHookSurface prompt = true
  body : fitsHookSurface ((splitMore prompt).1 ++ largestTrailer) = true

theorem splitMore_cases (prompt : Text) :
    (splitMore prompt).1 = prompt
      ∨ ∃ last, prompt = (splitMore prompt).1 ++ '\n' :: last := by
  unfold splitMore
  cases hsplit : rsplitOnceNewline prompt with
  | none => exact .inl rfl
  | some r =>
    obtain ⟨head, last⟩ := r
    by_cases htrailer : (['+'].isPrefixOf last && endsWith abandonmentMoreSuffix last) = true
    · simp only [if_pos htrailer]
      exact .inr ⟨last, rsplitOnceNewline_eq_some hsplit⟩
    · simp only [if_neg htrailer]
      exact .inl trivial

/-- 最も長い続きの行を付けて収まる知らせには、足していける。 -/
theorem foldable_of_fits {prompt : Text} (h : fitsHookSurface (prompt ++ largestTrailer) = true) :
    Foldable prompt := by
  rw [fitsHookSurface_iff] at h
  have hstart := startsSolid_moreLine u64Max
  have hend := moreLine_getLast u64Max
  refine ⟨fitsHookSurface_iff.mpr (Nat.le_trans (length_trim_le_append_line hstart hend) h), ?_⟩
  rcases splitMore_cases prompt with heq | ⟨last, heq⟩
  · rw [heq]
    exact fitsHookSurface_iff.mpr h
  · refine fitsHookSurface_iff.mpr (Nat.le_trans (@length_trim_head_le _ last _ hstart hend) ?_)
    rw [← heq]
    exact h

/-- 続きの行は、前の本文と数に読み戻せる。 -/
theorem splitMore_moreLine (body : Text) {n : Nat} (h : n ≤ u64Max) :
    splitMore (body ++ '\n' :: moreLine n) = (body, n) := by
  have hplus : ['+'].isPrefixOf (moreLine n) = true := rfl
  have hends : endsWith abandonmentMoreSuffix (moreLine n) = true := by
    unfold endsWith
    rw [List.isSuffixOf_iff_suffix]
    exact List.suffix_append _ _
  have hnumber : ((moreLine n).drop 1).take ((moreLine n).length - abandonmentMoreSuffix.length - 1)
      = natText n := by
    have hlen : (moreLine n).length - abandonmentMoreSuffix.length - 1 = (natText n).length := by
      unfold moreLine
      rw [List.length_append, List.length_cons]
      omega
    rw [hlen]
    exact List.take_left
  have hread : parseUnsigned u64Max (natText n) = some n := parseUnsigned_toDigits h
  unfold splitMore
  rw [rsplitOnceNewline_append body (newline_notMem_moreLine n)]
  simp only [hplus, hends, Bool.and_self, if_true, hnumber, hread, Option.getD_some]

theorem splitMore_le (prompt : Text) : (splitMore prompt).2 ≤ u64Max := by
  unfold splitMore
  split
  · split
    · next head last _ _ =>
      dsimp only
      generalize hread : parseUnsigned u64Max _ = read
      cases read with
      | none => exact Nat.zero_le _
      | some n => exact parseUnsigned_le hread
    · exact Nat.zero_le _
  · exact Nat.zero_le _

/-- 一件足しても不変量は保たれる。 -/
theorem Foldable.fold {prompt : Text} (h : Foldable prompt) (notice : Text) (messageCount : UInt64) :
    Foldable (foldAbandonmentLine prompt notice messageCount) := by
  unfold foldAbandonmentLine
  dsimp only
  split
  next hroom => exact foldable_of_fits hroom.2
  next =>
    generalize hcount : min ((splitMore prompt).2 + messageCount.toNat) u64Max = count
    have hmax : count ≤ u64Max := hcount ▸ Nat.min_le_right _ _
    refine ⟨?_, ?_⟩
    · have hbody := fitsHookSurface_iff.mp h.body
      have hlen := moreLine_length_le hmax
      unfold largestTrailer at hbody
      rw [length_trim_append_line _ (startsSolid_moreLine u64Max) (moreLine_getLast u64Max)] at hbody
      rw [fitsHookSurface_iff,
        length_trim_append_line _ (startsSolid_moreLine count) (moreLine_getLast count)]
      omega
    · rw [splitMore_moreLine _ hmax]
      exact h.body

/-- 何件足しても不変量は保たれる。 -/
theorem Foldable.foldl (notices : List (Text × UInt64)) {prompt : Text} (h : Foldable prompt) :
    Foldable (notices.foldl (fun p n => foldAbandonmentLine p n.1 n.2) prompt) := by
  induction notices generalizing prompt with
  | nil => exact h
  | cons notice notices ih => exact ih (h.fold notice.1 notice.2)

/-! ## 足した件数 -/

/-- 一件足すと、行が増えるか、続きの数がその件数だけ増える。続きの数は `u64` の上限で止まる。 -/
inductive FoldAdds (prompt notice : Text) (messageCount : UInt64) (folded : Text) : Prop where
  | line (hmore : (splitMore prompt).2 = 0)
      (hfolded : folded = (splitMore prompt).1 ++ "\nAlso: ".toList ++ notice)
  | count (hfolded : splitMore folded
      = ((splitMore prompt).1, min ((splitMore prompt).2 + messageCount.toNat) u64Max))

theorem foldAbandonmentLine_adds (prompt notice : Text) (messageCount : UInt64) :
    FoldAdds prompt notice messageCount (foldAbandonmentLine prompt notice messageCount) := by
  unfold foldAbandonmentLine
  dsimp only
  split
  next hline => exact .line hline.1 rfl
  next => exact .count (splitMore_moreLine _ (Nat.min_le_right _ _))

/-- 続きの数を言い始めた知らせには行は増えず、足した件数の和だけ数が増える。 -/
theorem splitMore_foldl (notices : List (Text × UInt64)) {prompt : Text}
    (h : 0 < (splitMore prompt).2) :
    splitMore (notices.foldl (fun p n => foldAbandonmentLine p n.1 n.2) prompt)
      = ((splitMore prompt).1,
        min ((splitMore prompt).2 + (notices.map fun n => n.2.toNat).sum) u64Max) := by
  induction notices generalizing prompt with
  | nil =>
    rw [List.map_nil, List.sum_nil, Nat.add_zero, Nat.min_eq_left (splitMore_le prompt)]
    rfl
  | cons notice notices ih =>
    rw [List.foldl_cons, List.map_cons, List.sum_cons]
    cases foldAbandonmentLine_adds prompt notice.1 notice.2 with
    | line hmore hfolded => omega
    | count hfolded =>
      have hpos : 0 < min ((splitMore prompt).2 + notice.2.toNat) u64Max :=
        Nat.lt_min.mpr ⟨Nat.lt_add_right _ h, by decide⟩
      rw [ih (by rw [hfolded]; exact hpos), hfolded]
      congr 1
      omega

/--
**まとめた知らせは枠に収まり、数を正しく言う。**

まとめた知らせは頭からの番号と残りの数を言い、包んで続きの行を付けても枠に収まる。続きの行を付けて収まる知らせには、何件足しても
枠に収まったままで、足すたびに、行が増えるか、続きの数がその件数だけ増える。
-/
theorem abandonment_notices_fit {ids : List Int64} (h : ids.length ≤ u64Max) (targets reasons : Text) :
    (∃ shown left, shown + left = ids.length
        ∧ abandonmentBatchNotice ids targets reasons
          = shortHeader ids.length (batchHeader ids.length targets reasons) ++ "; ids ".toList
            ++ List.intercalate ", ".toList ((ids.take shown).map i64Text) ++ omitted left
        ∧ hookSurfaceCost (abandonmentUpdateNotice (abandonmentBatchNotice ids targets reasons)
          ++ largestTrailer) ≤ hookSurfaceBudgetChars)
      ∧ (∀ prompt, fitsHookSurface (prompt ++ largestTrailer) = true →
        ∀ notices : List (Text × UInt64), fitsHookSurface
          (notices.foldl (fun p n => foldAbandonmentLine p n.1 n.2) prompt) = true)
      ∧ (∀ prompt notice messageCount,
        FoldAdds prompt notice messageCount (foldAbandonmentLine prompt notice messageCount))
      ∧ ∀ prompt, 0 < (splitMore prompt).2 → ∀ notices : List (Text × UInt64),
        splitMore (notices.foldl (fun p n => foldAbandonmentLine p n.1 n.2) prompt)
          = ((splitMore prompt).1,
            min ((splitMore prompt).2 + (notices.map fun n => n.2.toNat).sum) u64Max) :=
  ⟨abandonmentBatchNotice_spec h targets reasons,
    fun _ hprompt notices => (Foldable.foldl notices (foldable_of_fits hprompt)).fits,
    foldAbandonmentLine_adds, fun _ hmore notices => splitMore_foldl notices hmore⟩

theorem abandonment_notices_fit_pair :
    fitsHookSurface ([("two".toList, 1), ("three".toList, 1)].foldl
        (fun p (n : Text × UInt64) => foldAbandonmentLine p n.1 n.2) "one".toList) = true
      ∧ splitMore ([("two".toList, 1), ("three".toList, 4)].foldl
        (fun p (n : Text × UInt64) => foldAbandonmentLine p n.1 n.2)
        ("one".toList ++ '\n' :: moreLine 3)) = ("one".toList, 8) := by
  obtain ⟨-, hfits, -, hcounts⟩ :=
    @abandonment_notices_fit [1, 2] (by decide) "lead".toList "stale".toList
  have hthree : splitMore ("one".toList ++ '\n' :: moreLine 3) = ("one".toList, 3) :=
    splitMore_moreLine _ (by decide)
  refine ⟨hfits "one".toList (by decide) [("two".toList, 1), ("three".toList, 1)], ?_⟩
  rw [hcounts _ (by rw [hthree]; decide), hthree]
  decide

end Cassy
