import Cassy.Infra.Codec

/-!
# 桁の揃った十進の数

幅を決めて 0 で埋めた十進の数は、byte の列としての順序が数の順序である。末尾の 0 を落とした数も、直後に数字より小さい
byte が来れば、同じ順序になる。小数の桁数が違う二つの時刻の文字列は、これで比べられる。書いた数は、数字の続く限りを読めば
元に戻る。
-/

namespace Cassy.Infra

/-- `'0'`。 -/
abbrev zeroDigit : UInt8 := 0x30

/-- `{:0w}`。`w` 桁に収まる数の、大きい桁からの数字。 -/
def decimal : Nat → Nat → Bytes
  | 0, _ => []
  | w + 1, n => UInt8.ofNat (0x30 + n / 10 ^ w) :: decimal w (n % 10 ^ w)

@[simp] theorem decimal_length : ∀ w n : Nat, (decimal w n).length = w
  | 0, _ => rfl
  | w + 1, n => congrArg Nat.succ (decimal_length w (n % 10 ^ w))

theorem div_pow_lt_ten {w n : Nat} (h : n < 10 ^ (w + 1)) : n / 10 ^ w < 10 := by
  refine Nat.div_lt_of_lt_mul ?_
  rwa [← Nat.pow_succ]

theorem toNat_digit {d : Nat} (h : d < 10) : (UInt8.ofNat (0x30 + d)).toNat = 0x30 + d :=
  UInt8.toNat_ofNat_of_lt' (show 0x30 + d < 256 by omega)

/-- どの桁も数字である。 -/
theorem zeroDigit_le_of_mem_decimal : ∀ {w n : Nat}, n < 10 ^ w → ∀ d ∈ decimal w n, zeroDigit ≤ d
  | 0, _, _, _, hd => by cases hd
  | w + 1, n, h, d, hd => by
    rcases List.mem_cons.mp hd with rfl | hd
    · show (0x30 : Nat) ≤ (UInt8.ofNat (0x30 + n / 10 ^ w)).toNat
      rw [toNat_digit (div_pow_lt_ten h)]
      exact Nat.le_add_right _ _
    · exact zeroDigit_le_of_mem_decimal (Nat.mod_lt _ (Nat.pow_pos (by decide))) d hd

/-- 数の順序は byte の順序である。 -/
theorem decimal_lt_decimal : ∀ {w a b : Nat}, a < b → b < 10 ^ w → decimal w a < decimal w b
  | 0, a, b, hlt, hb => by
    rw [Nat.pow_zero] at hb
    omega
  | w + 1, a, b, hlt, hb => by
    have ha : a < 10 ^ (w + 1) := Nat.lt_trans hlt hb
    have hle : a / 10 ^ w ≤ b / 10 ^ w := Nat.div_le_div_right (Nat.le_of_lt hlt)
    rw [decimal, decimal, List.cons_lt_cons_iff]
    rcases Nat.lt_or_eq_of_le hle with hdigit | hdigit
    · left
      show (UInt8.ofNat (0x30 + a / 10 ^ w)).toNat < (UInt8.ofNat (0x30 + b / 10 ^ w)).toNat
      rw [toNat_digit (div_pow_lt_ten ha), toNat_digit (div_pow_lt_ten hb)]
      exact Nat.add_lt_add_left hdigit _
    · right
      rw [hdigit]
      refine ⟨rfl, decimal_lt_decimal ?_ (Nat.mod_lt _ (Nat.pow_pos (by decide)))⟩
      have hda := Nat.div_add_mod a (10 ^ w)
      have hdb := Nat.div_add_mod b (10 ^ w)
      rw [hdigit] at hda
      omega

theorem decimal_zero (w : Nat) : decimal w 0 = List.replicate w zeroDigit := by
  induction w with
  | zero => rfl
  | succ w ih =>
    rw [decimal, Nat.zero_div, Nat.zero_mod, ih]
    rfl

/-- 末尾の 0 の桁。 -/
theorem decimal_mul_pow (k : Nat) : ∀ {w m : Nat}, m < 10 ^ w →
    decimal (w + k) (10 ^ k * m) = decimal w m ++ List.replicate k zeroDigit
  | 0, m, hm => by
    rw [Nat.lt_one_iff.mp hm, Nat.mul_zero, Nat.zero_add, decimal_zero]
    rfl
  | w + 1, m, hm => by
    have hpow : 10 ^ (w + k) = 10 ^ k * 10 ^ w := by rw [Nat.add_comm, Nat.pow_add]
    have hpos : 0 < 10 ^ k := Nat.pow_pos (by decide)
    have ih := @decimal_mul_pow k w (m % 10 ^ w) (Nat.mod_lt _ (Nat.pow_pos (by decide)))
    rw [Nat.succ_add, decimal, decimal, hpow, Nat.mul_div_mul_left _ _ hpos, Nat.mul_mod_mul_left, ih]
    rfl

/-! ## 末尾の 0 を落とす -/

theorem not_lt_replicate {z : UInt8} : ∀ {l : Bytes} {j : Nat}, (∀ d ∈ l, z ≤ d) → l.length = j →
    ¬l < List.replicate j z
  | [], j, _, hlen => by
    subst hlen
    exact List.not_lt_nil _
  | d :: l, j, hz, hlen => by
    subst hlen
    rw [List.length_cons, List.replicate_succ, List.cons_lt_cons_iff]
    rintro (hlt | ⟨-, hlt⟩)
    · exact UInt8.not_lt.mpr (hz d List.mem_cons_self) hlt
    · exact not_lt_replicate (fun e he => hz e (List.mem_cons_of_mem d he)) rfl hlt

/-- 0 で埋めた順序は、埋めずに、数字より小さい byte を続けた順序である。 -/
theorem append_stop_lt {z stop : UInt8} {r s : Bytes} (hstop : stop < z) : ∀ {x y : Bytes} {i j : Nat},
    (∀ d ∈ x, z ≤ d) → (∀ d ∈ y, z ≤ d) → x.length + i = y.length + j →
    x ++ List.replicate i z < y ++ List.replicate j z → x ++ stop :: r < y ++ stop :: s
  | x, [], i, j, hx, _, hlen, hlt => by
    refine absurd hlt (not_lt_replicate ?_ ?_)
    · intro d hd
      rcases List.mem_append.mp hd with hd | hd
      · exact hx d hd
      · rw [List.eq_of_mem_replicate hd]
        exact UInt8.le_refl z
    · rw [List.length_append, List.length_replicate, hlen]
      exact Nat.zero_add j
  | [], e :: y, _, _, _, hy, _, _ => by
    refine List.cons_lt_cons_iff.mpr (Or.inl ?_)
    exact UInt8.lt_of_lt_of_le hstop (hy e List.mem_cons_self)
  | d :: x, e :: y, i, j, hx, hy, hlen, hlt => by
    rw [List.cons_append, List.cons_append, List.cons_lt_cons_iff] at hlt ⊢
    rcases hlt with hlt | ⟨rfl, hlt⟩
    · exact Or.inl hlt
    · refine Or.inr ⟨rfl, append_stop_lt hstop (fun c hc => hx c (List.mem_cons_of_mem d hc))
        (fun c hc => hy c (List.mem_cons_of_mem d hc)) ?_ hlt⟩
      rw [List.length_cons, List.length_cons] at hlen
      omega

/-! ## 数字の列を読む -/

/-- 数字の byte。 -/
def isDigitByte (b : UInt8) : Bool := zeroDigit ≤ b && b ≤ 0x39

/-- 先頭の数字の列と、残り。 -/
def readDigits (bs : Bytes) : Bytes × Bytes := (bs.takeWhile isDigitByte, bs.dropWhile isDigitByte)

/-- 数字の列の値。 -/
def decimalValue (ds : Bytes) : Nat := ds.foldl (fun n d => 10 * n + (d.toNat - 0x30)) 0

theorem isDigitByte_of_mem_decimal : ∀ {w n : Nat}, n < 10 ^ w → ∀ d ∈ decimal w n, isDigitByte d = true
  | 0, _, _, _, hd => by cases hd
  | w + 1, n, h, d, hd => by
    rcases List.mem_cons.mp hd with rfl | hd
    · have hdigit := div_pow_lt_ten h
      have hval := toNat_digit hdigit
      unfold isDigitByte
      simp only [Bool.and_eq_true, decide_eq_true_eq, UInt8.le_iff_toNat_le, hval]
      exact ⟨Nat.le_add_right 0x30 _, Nat.le_of_lt_succ (Nat.add_lt_add_left hdigit 0x30)⟩
    · exact isDigitByte_of_mem_decimal (Nat.mod_lt _ (Nat.pow_pos (by decide))) d hd

/-- 書いた数字は、次の byte が数字でなければ、そこまで読まれる。 -/
theorem readDigits_decimal {w n : Nat} (hn : n < 10 ^ w) {rest : Bytes}
    (hrest : ∀ b ∈ rest.head?, isDigitByte b = false) :
    readDigits (decimal w n ++ rest) = (decimal w n, rest) := by
  have hdigits := isDigitByte_of_mem_decimal hn
  have hstop : rest.takeWhile isDigitByte = [] ∧ rest.dropWhile isDigitByte = rest := by
    cases rest with
    | nil => exact ⟨rfl, rfl⟩
    | cons b rest => simp [hrest b rfl]
  unfold readDigits
  rw [List.takeWhile_append_of_pos hdigits, List.dropWhile_append_of_pos hdigits, hstop.1, hstop.2,
    List.append_nil]

theorem decimalValue_decimal {w n : Nat} (hn : n < 10 ^ w) : decimalValue (decimal w n) = n := by
  -- 読みかけの値は、残りの桁の分だけ左にずれる
  have hfold : ∀ (w n a : Nat), n < 10 ^ w →
      (decimal w n).foldl (fun n d => 10 * n + (d.toNat - 0x30)) a = a * 10 ^ w + n := by
    intro w
    induction w with
    | zero =>
      intro n a hn
      simp only [decimal, List.foldl_nil]
      omega
    | succ w ih =>
      intro n a hn
      have hsplit := Nat.div_add_mod n (10 ^ w)
      rw [decimal, List.foldl_cons, ih _ _ (Nat.mod_lt _ (Nat.pow_pos (by decide))),
        toNat_digit (div_pow_lt_ten hn), Nat.add_sub_cancel_left, Nat.pow_succ']
      calc (10 * a + n / 10 ^ w) * 10 ^ w + n % 10 ^ w
          = a * (10 * 10 ^ w) + (10 ^ w * (n / 10 ^ w) + n % 10 ^ w) := by
            rw [Nat.add_mul, Nat.mul_comm 10 a, Nat.mul_assoc, Nat.mul_comm (n / 10 ^ w), Nat.add_assoc]
        _ = a * (10 * 10 ^ w) + n := by rw [hsplit]
  have h := hfold w n 0 hn
  rwa [Nat.zero_mul, Nat.zero_add] at h

end Cassy.Infra
