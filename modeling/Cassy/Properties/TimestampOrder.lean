import Cassy.Store.Timestamp

/-!
# 文字列の順序は時刻の順序

四桁の年の時刻は、書いた文字列の byte の順序が時刻の順序である。年から秒までは幅が揃っており、小数は桁数が違っても、
`+` が `.` より、`.` が数字より小さいので順序を保つ。表の時刻の列を SQL が文字列のまま比べてよいのは、このためである。

四桁に収まらない年では符号が先に立ち、順序は崩れる。
-/

namespace Cassy

open Infra

/-! ## 幅の揃った列 -/

/-- 先の揃った部分で決まる。 -/
theorem append_lt_append {r s : Bytes} : ∀ {x y : Bytes}, x.length = y.length → x < y → x ++ r < y ++ s
  | [], [], _, h => absurd h (List.not_lt_nil _)
  | d :: x, e :: y, hlen, h => by
    rw [List.cons_append, List.cons_append]
    rw [List.cons_lt_cons_iff] at h ⊢
    rcases h with h | ⟨rfl, h⟩
    · exact Or.inl h
    · exact Or.inr ⟨rfl, append_lt_append (Nat.succ.inj hlen) h⟩

theorem field_length (x : Char × Nat) : (sep x.1 :: decimal 2 x.2).length = 3 := by
  rw [List.length_cons, decimal_length]

theorem fields_cons (x : Char × Nat) (l : List (Char × Nat)) :
    fields (x :: l) = (sep x.1 :: decimal 2 x.2) ++ fields l := List.flatMap_cons

theorem fields_length (l : List (Char × Nat)) : (fields l).length = 3 * l.length := by
  induction l with
  | nil => rfl
  | cons x l ih =>
    rw [fields_cons, List.length_append, field_length, ih, List.length_cons]
    omega

/-- 初めの違う数で決まる。 -/
theorem fields_lt {c : Char} {m n : Nat} (l r s : List (Char × Nat)) (hlt : m < n) (hn : n < 100) :
    fields (l ++ (c, m) :: r) < fields (l ++ (c, n) :: s) := by
  unfold fields
  rw [List.flatMap_append, List.flatMap_append]
  refine List.append_left_lt ?_
  rw [List.flatMap_cons, List.flatMap_cons]
  refine append_lt_append ?_ ?_
  · rw [List.length_cons, List.length_cons, decimal_length, decimal_length]
  · rw [List.cons_lt_cons_iff]
    exact Or.inr ⟨rfl, decimal_lt_decimal hlt hn⟩

/-! ## 月と日 -/

/-- 後の日は、後の月か、同じ月の後の日である。 -/
theorem monthDay_mono : ∀ (ls : List Nat) {d e : Nat}, d < e → (monthDay ls d).1 < (monthDay ls e).1 ∨
    (monthDay ls d).1 = (monthDay ls e).1 ∧ (monthDay ls d).2 < (monthDay ls e).2
  | [], d, e, h => Or.inr ⟨rfl, h⟩
  | l :: ls, d, e, h => by
    rw [monthDay, monthDay]
    by_cases he : e < l
    · rw [if_pos he, if_pos (Nat.lt_trans h he)]
      exact Or.inr ⟨rfl, h⟩
    · rw [if_neg he]
      by_cases hd : d < l
      · rw [if_pos hd]
        exact Or.inl (Nat.succ_pos _)
      · rw [if_neg hd]
        rcases monthDay_mono ls (show d - l < e - l by omega) with hm | ⟨hm, hday⟩
        · exact Or.inl (Nat.succ_lt_succ hm)
        · exact Or.inr ⟨congrArg Nat.succ hm, hday⟩

namespace DateTime

variable {a b : DateTime}

/-- 後の日の並びは、月か日で決まる。 -/
theorem fields_lt_of_ordinal (hyear : a.year = b.year) (h : a.ordinal < b.ordinal) :
    Cassy.fields a.fields < Cassy.fields b.fields := by
  unfold fields
  rcases monthDay_mono (monthLengths b.year) h with hmonth | ⟨hmonth, hday⟩
  · have hmonth : a.month < b.month := by
      unfold month
      rw [hyear]
      exact Nat.succ_lt_succ hmonth
    exact fields_lt [] _ _ hmonth b.month_lt
  · have hmonth : a.month = b.month := by
      unfold month
      rw [hyear, hmonth]
    have hday : a.day < b.day := by
      unfold day
      rw [hyear]
      exact Nat.succ_lt_succ hday
    rw [hmonth]
    exact fields_lt [('-', b.month)] _ _ hday b.day_lt

/-- 後の秒の並びは、時、分、秒のどれかで決まる。59 秒の前の秒に閏秒は無い。 -/
theorem fields_lt_of_secs (hyear : a.year = b.year) (hordinal : a.ordinal = b.ordinal)
    (h : a.secs < b.secs) : Cassy.fields a.fields < Cassy.fields b.fields := by
  have hmonth : a.month = b.month := by
    unfold month
    rw [hyear, hordinal]
  have hday : a.day = b.day := by
    unfold day
    rw [hyear, hordinal]
  unfold fields
  rw [hmonth, hday]
  by_cases hhour : a.hour < b.hour
  · exact fields_lt [('-', b.month), ('-', b.day)] _ _ hhour b.hour_lt
  have hhour : a.hour = b.hour := by
    unfold hour at hhour ⊢
    omega
  rw [hhour]
  by_cases hminute : a.minute < b.minute
  · exact fields_lt [('-', b.month), ('-', b.day), ('T', b.hour)] _ _ hminute b.minute_lt
  have hminute : a.minute = b.minute := by
    unfold hour at hhour
    unfold minute at hminute ⊢
    omega
  rw [hminute]
  have hsecond : a.second < b.second := by
    have hleap := a.leap
    unfold hour at hhour
    unfold minute at hminute
    unfold second
    rw [if_neg (by omega)]
    omega
  exact fields_lt [('-', b.month), ('-', b.day), ('T', b.hour), (':', b.minute)] [] [] hsecond
    b.second_lt

/-- 同じ秒の中では、閏秒であるかどうかか、秒より下で決まる。 -/
theorem fields_of_frac (hyear : a.year = b.year) (hordinal : a.ordinal = b.ordinal)
    (hsecs : a.secs = b.secs) (h : a.frac < b.frac) :
    Cassy.fields a.fields < Cassy.fields b.fields
      ∨ a.fields = b.fields ∧ a.nanosecond < b.nanosecond := by
  have hmonth : a.month = b.month := by
    unfold month
    rw [hyear, hordinal]
  have hday : a.day = b.day := by
    unfold day
    rw [hyear, hordinal]
  have hhour : a.hour = b.hour := by
    unfold hour
    rw [hsecs]
  have hminute : a.minute = b.minute := by
    unfold minute
    rw [hsecs]
  have hfrac := b.frac_lt
  unfold fields
  rw [hmonth, hday, hhour, hminute]
  by_cases hleap : a.frac < 1000000000 ∧ 1000000000 ≤ b.frac
  · have hsecond : a.second < b.second := by
      unfold second
      rw [if_neg (Nat.not_le.mpr hleap.1), if_pos hleap.2, hsecs]
      exact Nat.lt_succ_self _
    exact Or.inl (fields_lt [('-', b.month), ('-', b.day), ('T', b.hour), (':', b.minute)] [] []
      hsecond b.second_lt)
  · have hsecond : a.second = b.second := by
      unfold second
      rw [hsecs]
      by_cases ha : 1000000000 ≤ a.frac
      · rw [if_pos ha, if_pos (Nat.le_trans ha (Nat.le_of_lt h))]
      · rw [if_neg ha, if_neg (by omega)]
    rw [hsecond]
    refine Or.inr ⟨rfl, ?_⟩
    unfold nanosecond
    omega

/-- 同じ年では、月から秒までの並びか、秒より下で決まる。 -/
theorem fields_of_earlier (hyear : a.year = b.year) (h : a < b) :
    Cassy.fields a.fields < Cassy.fields b.fields
      ∨ a.fields = b.fields ∧ a.nanosecond < b.nanosecond := by
  rcases h with h | ⟨-, h | ⟨hordinal, h | ⟨hsecs, h⟩⟩⟩
  · exact absurd hyear (Int.ne_of_lt h)
  · exact Or.inl (fields_lt_of_ordinal hyear h)
  · exact Or.inl (fields_lt_of_secs hyear hordinal h)
  · exact fields_of_frac hyear hordinal hsecs h

/-- どちらの時刻が先かは決まる。 -/
theorem lt_or_eq_or_gt (a b : DateTime) : a < b ∨ a = b ∨ b < a := by
  rcases Int.lt_trichotomy a.year b.year with hyear | hyear | hyear
  · exact Or.inl (Or.inl hyear)
  · rcases Nat.lt_trichotomy a.ordinal b.ordinal with hordinal | hordinal | hordinal
    · exact Or.inl (Or.inr ⟨hyear, Or.inl hordinal⟩)
    · rcases Nat.lt_trichotomy a.secs b.secs with hsecs | hsecs | hsecs
      · exact Or.inl (Or.inr ⟨hyear, Or.inr ⟨hordinal, Or.inl hsecs⟩⟩)
      · rcases Nat.lt_trichotomy a.frac b.frac with hfrac | hfrac | hfrac
        · exact Or.inl (Or.inr ⟨hyear, Or.inr ⟨hordinal, Or.inr ⟨hsecs, hfrac⟩⟩⟩)
        · exact Or.inr (Or.inl (DateTime.ext hyear hordinal hsecs hfrac))
        · exact Or.inr (Or.inr (Or.inr ⟨hyear.symm, Or.inr ⟨hordinal.symm, Or.inr ⟨hsecs.symm, hfrac⟩⟩⟩))
      · exact Or.inr (Or.inr (Or.inr ⟨hyear.symm, Or.inr ⟨hordinal.symm, Or.inl hsecs⟩⟩))
    · exact Or.inr (Or.inr (Or.inr ⟨hyear.symm, Or.inl hordinal⟩))
  · exact Or.inr (Or.inr (Or.inl hyear))

/-! ## 通しのナノ秒 -/

theorem isLeapYear_iff (y : Int) : isLeapYear y = true ↔ y % 4 = 0 ∧ (y % 100 ≠ 0 ∨ y % 400 = 0) := by
  unfold isLeapYear
  rw [Bool.and_eq_true, Bool.or_eq_true, beq_iff_eq, bne_iff_ne, beq_iff_eq]

theorem yearDays_eq (y : Int) : yearDays y = if isLeapYear y then 366 else 365 := by
  unfold yearDays monthLengths
  cases isLeapYear y with
  | true => rfl
  | false => rfl

theorem daysBeforeYear_succ (y : Int) : daysBeforeYear (y + 1) = daysBeforeYear y + yearDays y := by
  have hleap := isLeapYear_iff y
  rw [yearDays_eq]
  unfold daysBeforeYear
  by_cases h : isLeapYear y = true
  · rw [if_pos h]
    have := hleap.mp h
    omega
  · rw [if_neg h]
    have := mt hleap.mpr h
    omega

theorem daysBeforeYear_mono {y z : Int} (h : y ≤ z) : daysBeforeYear y ≤ daysBeforeYear z := by
  unfold daysBeforeYear
  omega

theorem timestampNanos_lt_of_lt (ha : a.frac < 1000000000) (h : a < b) :
    a.timestampNanos < b.timestampNanos := by
  have hdays : a.year < b.year → daysBeforeYear a.year + yearDays a.year ≤ daysBeforeYear b.year := by
    intro hyear
    rw [← daysBeforeYear_succ]
    exact daysBeforeYear_mono (Int.add_one_le_of_lt hyear)
  have hordinal := a.ordinal_lt
  have hsecs := a.secs_lt
  have hfrac : (0 : Int) ≤ b.frac := Int.natCast_nonneg b.frac
  unfold timestampNanos seconds
  show (_ : Int) < _
  rcases h with h | ⟨hyear, h⟩
  · have := hdays h
    omega
  · rw [hyear]
    rcases h with h | ⟨hordinal, h | ⟨hsecs, h⟩⟩
    · omega
    · omega
    · omega

/-- 閏秒でない時刻の順序は、通しのナノ秒の順序である。 -/
theorem lt_iff_timestampNanos (ha : a.frac < 1000000000) (hb : b.frac < 1000000000) :
    a < b ↔ a.timestampNanos < b.timestampNanos := by
  constructor
  · exact timestampNanos_lt_of_lt ha
  · intro h
    rcases lt_or_eq_or_gt a b with hlt | rfl | hgt
    · exact hlt
    · exact absurd h (Int.lt_irrefl _)
    · exact absurd h (Int.lt_asymm (timestampNanos_lt_of_lt hb hgt))

end DateTime

/-! ## 小数 -/

/-- 小数の桁数が違っても、秒より下の順序は保たれる。 -/
theorem fraction_lt {m n k l : Nat} (hm : FractionDigits m k) (hn : FractionDigits n l) (hlt : m < n)
    (hmax : n < 1000000000) : fraction m k ++ utcOffset < fraction n l ++ utcOffset := by
  have hn0 : n ≠ 0 := Nat.ne_of_gt (Nat.lt_of_le_of_lt (Nat.zero_le m) hlt)
  obtain ⟨-, hl, hnl⟩ := hn.resolve_left fun h => hn0 h.1
  have hl0 : l ≠ 0 := by omega
  unfold fraction
  rw [if_neg hl0]
  rcases hm with ⟨rfl, rfl⟩ | ⟨hm0, hk, hmk⟩
  · -- `+` は `.` より小さい
    exact List.cons_lt_cons_iff.mpr (Or.inl (by decide))
  · have hk0 : k ≠ 0 := by omega
    have hk9 : k ≤ 9 := by omega
    have hl9 : l ≤ 9 := by omega
    rw [if_neg hk0]
    obtain ⟨p, rfl⟩ := hmk
    obtain ⟨q, rfl⟩ := hnl
    have hpos : ∀ j, 0 < 10 ^ j := fun j => Nat.pow_pos (by decide)
    have hsplit : ∀ j ≤ 9, 10 ^ (9 - j) * 10 ^ j = 1000000000 := by
      intro j hj
      rw [← Nat.pow_add, Nat.sub_add_cancel hj]
    have hp : p < 10 ^ k := by
      refine Nat.lt_of_mul_lt_mul_left (a := 10 ^ (9 - k)) ?_
      rw [hsplit k hk9]
      exact Nat.lt_trans hlt hmax
    have hq : q < 10 ^ l := by
      refine Nat.lt_of_mul_lt_mul_left (a := 10 ^ (9 - l)) ?_
      rw [hsplit l hl9]
      exact hmax
    have hdecimal := decimal_lt_decimal (w := 9) hlt hmax
    rw [Nat.mul_div_cancel_left _ (hpos _), Nat.mul_div_cancel_left _ (hpos _)]
    refine List.cons_lt_cons_iff.mpr (Or.inr ⟨rfl, ?_⟩)
    refine append_stop_lt (z := zeroDigit) (i := 9 - k) (j := 9 - l) (by decide)
      (zeroDigit_le_of_mem_decimal hp) (zeroDigit_le_of_mem_decimal hq) ?_ ?_
    · rw [decimal_length, decimal_length, Nat.add_sub_cancel' hk9, Nat.add_sub_cancel' hl9]
    · rw [← decimal_mul_pow (9 - k) hp, ← decimal_mul_pow (9 - l) hq, Nat.add_sub_cancel' hk9,
        Nat.add_sub_cancel' hl9]
      exact hdecimal

/-! ## 文字列の順序 -/

section Order

variable {write : DateTime → Bytes} {a b : DateTime}

/-- 先の時刻の文字列は小さい。 -/
theorem write_lt_of_lt (hw : Rfc3339 write) (ha : a.FourDigitYear) (hb : b.FourDigitYear) (h : a < b) :
    write a < write b := by
  obtain ⟨k, hk, hwa⟩ := hw.form a ha
  obtain ⟨l, hl, hwb⟩ := hw.form b hb
  rw [hwa, hwb]
  by_cases hyear : a.year < b.year
  · have hb4 : b.year.toNat < 10 ^ 4 := by
      have := hb.2
      omega
    have hlt : a.year.toNat < b.year.toNat := by
      have := ha.1
      omega
    exact append_lt_append (by rw [decimal_length, decimal_length]) (decimal_lt_decimal hlt hb4)
  have hyear : a.year = b.year := by
    rcases h with h | ⟨h, -⟩
    · exact absurd h hyear
    · exact h
  rw [hyear]
  refine List.append_left_lt ?_
  rcases DateTime.fields_of_earlier hyear h with hfields | ⟨hfields, hnano⟩
  · exact append_lt_append (by rw [fields_length, fields_length]; rfl) hfields
  · rw [hfields]
    exact List.append_left_lt (fraction_lt hk hl hnano b.nanosecond_lt)

theorem write_lt_iff (hw : Rfc3339 write) (ha : a.FourDigitYear) (hb : b.FourDigitYear) :
    write a < write b ↔ a < b := by
  constructor
  · intro h
    rcases DateTime.lt_or_eq_or_gt a b with hlt | rfl | hgt
    · exact hlt
    · exact absurd h (List.lt_irrefl _)
    · exact absurd h (List.lt_asymm (write_lt_of_lt hw hb ha hgt))
  · exact write_lt_of_lt hw ha hb

/-! ## SQL の述語 -/

variable {c : DateTime}

theorem leaseExpired_iff (hw : Rfc3339 write) (ha : a.FourDigitYear) (hb : b.FourDigitYear) :
    leaseExpired write a b = true ↔ a < b := by
  unfold leaseExpired
  rw [decide_eq_true_eq]
  exact write_lt_iff hw ha hb

/-- 登録の時刻は、後の方へだけ進む。 -/
theorem advanceRegisteredAt_eq (hw : Rfc3339 write) (ha : a.FourDigitYear) (hb : b.FourDigitYear) :
    advanceRegisteredAt write a b = write (if a < b then b else a) := by
  unfold advanceRegisteredAt sqlMax
  by_cases h : a < b
  · rw [if_pos h, if_pos ((write_lt_iff hw ha hb).mpr h)]
  · rw [if_neg h, if_neg fun hlt => h ((write_lt_iff hw ha hb).mp hlt)]

theorem deadlinePassed_iff (hw : Rfc3339 write) (ha : a.FourDigitYear) (hb : b.FourDigitYear)
    (hc : c.FourDigitYear) : deadlinePassed write a b c = true ↔ a < c ∧ c ≤ b := by
  unfold deadlinePassed
  rw [Bool.and_eq_true, decide_eq_true_eq, decide_eq_true_eq]
  exact and_congr (write_lt_iff hw ha hc) (not_congr (write_lt_iff hw hb hc))

/--
文字列の順序は時刻の順序である。表の述語はどれも時刻についての判定になる。

閏秒の外では、時刻の順序は通しのナノ秒の順序である。
-/
theorem text_order_is_time_order (hw : Rfc3339 write) (ha : a.FourDigitYear) (hb : b.FourDigitYear) :
    (write a ≤ write b ↔ a ≤ b)
      ∧ (a.frac < 1000000000 → b.frac < 1000000000 →
        (write a ≤ write b ↔ a.timestampNanos ≤ b.timestampNanos))
      ∧ (leaseExpired write a b = true ↔ a < b)
      ∧ advanceRegisteredAt write a b = write (if a < b then b else a)
      ∧ ∀ c : DateTime, c.FourDigitYear → (deadlinePassed write a b c = true ↔ a < c ∧ c ≤ b) :=
  ⟨not_congr (write_lt_iff hw hb ha),
    fun hfa hfb => not_congr ((write_lt_iff hw hb ha).trans (DateTime.lt_iff_timestampNanos hfb hfa))
      |>.trans Int.not_lt,
    leaseExpired_iff hw ha hb, advanceRegisteredAt_eq hw ha hb,
    fun _ hc => deadlinePassed_iff hw ha hb hc⟩

end Order

/-- 3 桁の小数と 6 桁の小数。 -/
theorem text_order_is_time_order_mixed :
    let a : DateTime := ⟨2024, 59, 86399, 500000000, by decide, by decide, by decide, by decide, by decide⟩
    let b : DateTime := ⟨2024, 59, 86399, 500001000, by decide, by decide, by decide, by decide, by decide⟩
    (toRfc3339 a ≤ toRfc3339 b ↔ a ≤ b)
      ∧ (toRfc3339 a ≤ toRfc3339 b ↔ a.timestampNanos ≤ b.timestampNanos)
      ∧ (leaseExpired toRfc3339 a b = true ↔ a < b)
      ∧ advanceRegisteredAt toRfc3339 a b = toRfc3339 (if a < b then b else a)
      ∧ (deadlinePassed toRfc3339 a b b = true ↔ a < b ∧ b ≤ b) := by
  intro a b
  have h := @text_order_is_time_order toRfc3339 a b rfc3339_toRfc3339 (by decide) (by decide)
  exact ⟨h.1, h.2.1 (by decide) (by decide), h.2.2.1, h.2.2.2.1, h.2.2.2.2 b (by decide)⟩

/-- 10000 年の始めは、9999 年の終わりより小さい文字列になる。 -/
theorem five_digit_year_sorts_first :
    let a : DateTime := ⟨9999, 364, 86399, 0, by decide, by decide, by decide, by decide, by decide⟩
    let b : DateTime := ⟨10000, 0, 0, 0, by decide, by decide, by decide, by decide, by decide⟩
    a ≤ b ∧ ¬toRfc3339 a ≤ toRfc3339 b := by
  decide

end Cassy
