import Cassy.Store.Timestamp

/-!
# serde の時刻

`DateTime<Utc>` は serde では RFC 3339 の形の文字列になる。`to_rfc3339` と違うのは、時差を `Z` と書くことだけである。

`chrono` の読み手は、空白や小文字の `t` や別の時差も受け付ける。ここの読み手は書き手の綴りだけを読む。時刻でない文字列は
読まない。
-/

namespace Cassy

open Infra

namespace DateTime

/-! ## 書く -/

/-- `DateTime<Utc>` の `Serialize`。 -/
def serdeText (t : DateTime) : Bytes :=
  yearText t.year
    ++ (Cassy.fields t.fields ++ (fraction t.nanosecond (autoSiDigits t.nanosecond) ++ [sep 'Z']))

/-! ## 読む -/

/-- 年。符号の無い年もある。 -/
def readYear : Bytes → Int × Bytes
  | [] => (0, [])
  | b :: bs =>
    if b = sep '-' then (-(decimalValue (readDigits bs).1 : Int), (readDigits bs).2)
    else if b = sep '+' then (decimalValue (readDigits bs).1, (readDigits bs).2)
    else (decimalValue (readDigits (b :: bs)).1, (readDigits (b :: bs)).2)

/-- 区切りと、その後の数。 -/
def readField (c : Char) : Bytes → Option (Nat × Bytes)
  | [] => none
  | b :: bs => if b = sep c then some (decimalValue (readDigits bs).1, (readDigits bs).2) else none

/-- 小数をナノ秒にする。 -/
def readFraction : Bytes → Nat
  | [] => 0
  | b :: bs =>
    if b = sep '.' then decimalValue (readDigits bs).1 * 10 ^ (9 - (readDigits bs).1.length) else 0

/-- 欄から時刻を作る。暦に無い日や時刻は作らない。60 秒は閏秒である。 -/
def ofFields (year : Int) (month day hour minute second nano : Nat) : Option DateTime :=
  let ordinal := ((monthLengths year).take (month - 1)).sum + (day - 1)
  let secs := hour * 3600 + minute * 60 + min second 59
  let frac := nano + if second = 60 then 1000000000 else 0
  if h : (-262143 ≤ year ∧ year ≤ 262142) ∧ ordinal < yearDays year ∧ secs < 86400
      ∧ frac < 2000000000 ∧ (1000000000 ≤ frac → secs % 60 = 59) then
    some { year, ordinal, secs, frac, year_range := h.1, ordinal_lt := h.2.1, secs_lt := h.2.2.1
           frac_lt := h.2.2.2.1, leap := h.2.2.2.2 }
  else none

/-- 文字列を読む。読んだ時刻を書き直して同じ文字列になるものだけを受け付ける。 -/
def parse (text : Bytes) : Option DateTime :=
  (readField '-' (readYear text).2).bind fun month =>
  (readField '-' month.2).bind fun day =>
  (readField 'T' day.2).bind fun hour =>
  (readField ':' hour.2).bind fun minute =>
  (readField ':' minute.2).bind fun second =>
  (ofFields (readYear text).1 month.1 day.1 hour.1 minute.1 second.1 (readFraction second.2)).filter
    fun t => t.serdeText = text

/-! ## 往復 -/

/-- 数字でない区切りで始まる列。 -/
theorem head_sep {c : Char} (h : isDigitByte (sep c) = false) (bs : Bytes) :
    ∀ b ∈ (sep c :: bs).head?, isDigitByte b = false := by
  intro b hb
  rw [List.head?_cons, Option.mem_some] at hb
  rwa [← hb]

/-- 区切りの後の二桁は、次の byte が数字でなければ、そのまま読まれる。 -/
theorem readField_append (c : Char) {n : Nat} (hn : n < 100) {rest : Bytes}
    (hrest : ∀ b ∈ rest.head?, isDigitByte b = false) :
    readField c (sep c :: (decimal 2 n ++ rest)) = some (n, rest) := by
  have hread := @readDigits_decimal 2 n hn rest hrest
  rw [readField, if_pos rfl, hread, @decimalValue_decimal 2 n hn]

theorem readYear_append {y : Int} (hy : -262143 ≤ y ∧ y ≤ 262142) {rest : Bytes}
    (hrest : ∀ b ∈ rest.head?, isDigitByte b = false) : readYear (yearText y ++ rest) = (y, rest) := by
  unfold yearText
  split
  next hfour =>
    have hnat : y.toNat < 10 ^ 4 := by omega
    have hread := readDigits_decimal hnat hrest
    -- 数字で始まるので、符号ではない
    have hdigit := isDigitByte_of_mem_decimal hnat
    rw [decimal] at hread hdigit ⊢
    have hhead := hdigit _ List.mem_cons_self
    rw [List.cons_append] at hread ⊢
    have hminus : UInt8.ofNat (0x30 + y.toNat / 10 ^ 3) ≠ sep '-' := by
      intro h
      rw [h] at hhead
      exact absurd hhead (by decide)
    have hplus : UInt8.ofNat (0x30 + y.toNat / 10 ^ 3) ≠ sep '+' := by
      intro h
      rw [h] at hhead
      exact absurd hhead (by decide)
    rw [readYear, if_neg hminus, if_neg hplus, hread]
    have hvalue := decimalValue_decimal hnat
    rw [decimal] at hvalue
    simp only [hvalue, Int.toNat_of_nonneg hfour.1]
  next hsigned =>
    generalize hw : (if y.natAbs < 10000 then 4 else if y.natAbs < 100000 then 5 else 6) = w
    have hnat : y.natAbs < 10 ^ w := by
      subst hw
      split
      · assumption
      · split
        · assumption
        · omega
    have hread := readDigits_decimal hnat hrest
    have hvalue := decimalValue_decimal hnat
    rw [List.cons_append, readYear]
    by_cases hneg : y < 0
    · simp only [if_pos hneg, if_true, hread, hvalue, Prod.mk.injEq, and_true]
      omega
    · have hsep : sep '+' ≠ sep '-' := by decide
      simp only [if_neg hneg, if_neg hsep, if_true, hread, hvalue, Prod.mk.injEq, and_true]
      omega

theorem readFraction_append {nano : Nat} (hnano : nano < 1000000000) :
    readFraction (fraction nano (autoSiDigits nano) ++ [sep 'Z']) = nano := by
  unfold fraction
  rcases fractionDigits_autoSi nano with ⟨hzero, hk⟩ | ⟨hne, hk, hdvd⟩
  · rw [hk, if_pos rfl, hzero]
    rfl
  · generalize autoSiDigits nano = k at hk hdvd ⊢
    obtain ⟨m, rfl⟩ := hdvd
    have hk0 : k ≠ 0 := by omega
    have hk9 : k ≤ 9 := by omega
    have hpos : 0 < 10 ^ (9 - k) := Nat.pow_pos (by decide)
    have hsplit : 10 ^ (9 - k) * 10 ^ k = 1000000000 := by
      rw [← Nat.pow_add, Nat.sub_add_cancel hk9]
    have hm : m < 10 ^ k := by
      refine Nat.lt_of_mul_lt_mul_left (a := 10 ^ (9 - k)) ?_
      rw [hsplit]
      exact hnano
    rw [if_neg hk0, Nat.mul_div_cancel_left _ hpos, List.cons_append]
    rw [readFraction, if_pos rfl, readDigits_decimal hm (head_sep (by decide) _),
      decimalValue_decimal hm, decimal_length, Nat.mul_comm]

/-- 月と日から、年の中の日が戻る。 -/
theorem sum_take_monthDay : ∀ (ls : List Nat) (d : Nat),
    (ls.take (monthDay ls d).1).sum + (monthDay ls d).2 = d
  | [], d => Nat.zero_add d
  | l :: ls, d => by
    rw [monthDay]
    by_cases hd : d < l
    · rw [if_pos hd]
      exact Nat.zero_add d
    · have ih := sum_take_monthDay ls (d - l)
      rw [if_neg hd, List.take_succ_cons, List.sum_cons]
      omega

theorem ofFields_fields (t : DateTime) :
    ofFields t.year t.month t.day t.hour t.minute t.second t.nanosecond = some t := by
  have hordinal : ((monthLengths t.year).take (t.month - 1)).sum + (t.day - 1) = t.ordinal :=
    sum_take_monthDay (monthLengths t.year) t.ordinal
  have hfrac := t.frac_lt
  have hleap := t.leap
  have hsecs : t.hour * 3600 + t.minute * 60 + min t.second 59 = t.secs := by
    unfold hour minute second
    split <;> omega
  have hnano : t.nanosecond + (if t.second = 60 then 1000000000 else 0) = t.frac := by
    unfold nanosecond second
    split
    next h =>
      rw [if_pos (by have := hleap h; omega)]
      omega
    next h =>
      rw [if_neg (by omega)]
      omega
  unfold ofFields
  simp only [hordinal, hsecs, hnano]
  rw [dif_pos ⟨t.year_range, t.ordinal_lt, t.secs_lt, t.frac_lt, t.leap⟩]

/-- 書いた時刻は読み戻され、読めるのは書かれた時刻だけである。 -/
theorem parse_eq_some_iff {text : Bytes} {t : DateTime} : parse text = some t ↔ text = t.serdeText := by
  constructor
  · intro h
    unfold parse at h
    obtain ⟨month, -, h⟩ := Option.bind_eq_some_iff.mp h
    obtain ⟨day, -, h⟩ := Option.bind_eq_some_iff.mp h
    obtain ⟨hour, -, h⟩ := Option.bind_eq_some_iff.mp h
    obtain ⟨minute, -, h⟩ := Option.bind_eq_some_iff.mp h
    obtain ⟨second, -, h⟩ := Option.bind_eq_some_iff.mp h
    exact (of_decide_eq_true (Option.filter_eq_some_iff.mp h).2).symm
  · rintro rfl
    have hshape : t.serdeText = yearText t.year ++ sep '-' :: (decimal 2 t.month
        ++ sep '-' :: (decimal 2 t.day ++ sep 'T' :: (decimal 2 t.hour
        ++ sep ':' :: (decimal 2 t.minute ++ sep ':' :: (decimal 2 t.second
        ++ (fraction t.nanosecond (autoSiDigits t.nanosecond) ++ [sep 'Z'])))))) := by
      unfold serdeText Cassy.fields fields
      simp only [List.flatMap_cons, List.flatMap_nil, List.append_assoc, List.cons_append,
        List.append_nil]
    -- 小数は `.` か、小数が無ければ `Z` で始まる
    have hend : ∀ b ∈ (fraction t.nanosecond (autoSiDigits t.nanosecond) ++ [sep 'Z']).head?,
        isDigitByte b = false := by
      unfold fraction
      split <;> exact head_sep (by decide) _
    unfold parse
    rw [hshape, readYear_append t.year_range (head_sep (by decide) _)]
    simp only
    rw [readField_append '-' t.month_lt (head_sep (by decide) _), Option.bind_some]
    simp only
    rw [readField_append '-' t.day_lt (head_sep (by decide) _), Option.bind_some]
    simp only
    rw [readField_append 'T' t.hour_lt (head_sep (by decide) _), Option.bind_some]
    simp only
    rw [readField_append ':' t.minute_lt (head_sep (by decide) _), Option.bind_some]
    simp only
    rw [readField_append ':' t.second_lt hend, Option.bind_some]
    simp only
    rw [readFraction_append t.nanosecond_lt, ofFields_fields, ← hshape]
    exact Option.filter_eq_some_iff.mpr ⟨rfl, decide_eq_true rfl⟩

/-- 空の文字列も、暦に無い日も、時刻ではない。 -/
example : parse [] = none ∧ parse "2023-02-29T00:00:00Z".toUTF8.data.toList = none := by decide

end DateTime

end Cassy
