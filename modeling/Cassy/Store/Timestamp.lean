import Cassy.Infra.Decimal
import Cassy.Store.Types

/-!
# 時刻の文字列

表の時刻の列は、`chrono` の `to_rfc3339` の書いた文字列である。SQL の述語はそれを byte の列として比べる。

`to_rfc3339` は外の部品であり、四桁の年について `Rfc3339` の形で書くことだけを使う。`toRfc3339` はその一つの書き手で、四桁に
収まらない年には符号を付ける。
-/

namespace Cassy

open Infra

/-! ## 暦 -/

def isLeapYear (y : Int) : Bool := y % 4 == 0 && (y % 100 != 0 || y % 400 == 0)

def monthLengths (y : Int) : List Nat :=
  [31, if isLeapYear y then 29 else 28, 31, 30, 31, 30, 31, 31, 30, 31, 30, 31]

def yearDays (y : Int) : Nat := (monthLengths y).sum

/-- 年の中の日の、月と月の中の日。どちらも 0 から数える。 -/
def monthDay : List Nat → Nat → Nat × Nat
  | [], d => (0, d)
  | l :: ls, d => if d < l then (0, d) else ((monthDay ls (d - l)).1 + 1, (monthDay ls (d - l)).2)

theorem monthDay_lt : ∀ {ls : List Nat} {d : Nat}, d < ls.sum → (∀ l ∈ ls, l < 99) →
    (monthDay ls d).1 < ls.length ∧ (monthDay ls d).2 < 99
  | [], d, h, _ => absurd h (Nat.not_lt_zero d)
  | l :: ls, d, h, hls => by
    rw [monthDay]
    by_cases hd : d < l
    · rw [if_pos hd]
      exact ⟨Nat.succ_pos _, Nat.lt_trans hd (hls l List.mem_cons_self)⟩
    · rw [if_neg hd]
      rw [List.sum_cons] at h
      obtain ⟨hm, hday⟩ := monthDay_lt (show d - l < ls.sum by omega)
        fun k hk => hls k (List.mem_cons_of_mem l hk)
      exact ⟨Nat.succ_lt_succ hm, hday⟩

/-- `DateTime<Utc>`。閏秒は、59 秒の `frac` が `10 ^ 9` 以上であることで表される。 -/
@[ext] structure DateTime where
  year : Int
  /-- 年の中の日。0 から数える。 -/
  ordinal : Nat
  secs : Nat
  frac : Nat
  year_range : -262143 ≤ year ∧ year ≤ 262142
  ordinal_lt : ordinal < yearDays year
  secs_lt : secs < 86400
  frac_lt : frac < 2000000000
  leap : 1000000000 ≤ frac → secs % 60 = 59
  deriving DecidableEq

namespace DateTime

/-- 時刻の順序。`NaiveDateTime` の欄の辞書式である。 -/
def Earlier (a b : DateTime) : Prop :=
  a.year < b.year ∨ a.year = b.year ∧ (a.ordinal < b.ordinal ∨ a.ordinal = b.ordinal ∧
    (a.secs < b.secs ∨ a.secs = b.secs ∧ a.frac < b.frac))

instance : LT DateTime := ⟨Earlier⟩

instance : LE DateTime := ⟨fun a b => ¬b < a⟩

instance (a b : DateTime) : Decidable (a < b) := by
  unfold_projs
  unfold Earlier
  infer_instance

instance (a b : DateTime) : Decidable (a ≤ b) := inferInstanceAs (Decidable (¬b < a))

/-- 年の始めまでの日の数。 -/
def daysBeforeYear (y : Int) : Int := 365 * y + (y - 1) / 4 - (y - 1) / 100 + (y - 1) / 400

/-- `timestamp_nanos`。1970 年の始めから数える。 -/
def timestampNanos (t : DateTime) : Time :=
  seconds ((daysBeforeYear t.year - 719527 + t.ordinal) * 86400 + t.secs) + t.frac

/-! ## 文字列 -/

def month (t : DateTime) : Nat := (monthDay (monthLengths t.year) t.ordinal).1 + 1

def day (t : DateTime) : Nat := (monthDay (monthLengths t.year) t.ordinal).2 + 1

def hour (t : DateTime) : Nat := t.secs / 3600

def minute (t : DateTime) : Nat := t.secs / 60 % 60

/-- 閏秒は 60 秒と書かれる。 -/
def second (t : DateTime) : Nat := t.secs % 60 + if 1000000000 ≤ t.frac then 1 else 0

def nanosecond (t : DateTime) : Nat := t.frac % 1000000000

/-! ### 二桁に収まること -/

theorem monthLengths_lt (y : Int) : ∀ l ∈ monthLengths y, l < 99 := by
  unfold monthLengths
  cases isLeapYear y with
  | true => decide
  | false => decide

theorem month_lt (t : DateTime) : t.month < 100 := by
  have h := (monthDay_lt t.ordinal_lt (monthLengths_lt t.year)).1
  have hlen : (monthLengths t.year).length = 12 := rfl
  unfold month
  omega

theorem day_lt (t : DateTime) : t.day < 100 := by
  have h := (monthDay_lt t.ordinal_lt (monthLengths_lt t.year)).2
  unfold day
  omega

theorem hour_lt (t : DateTime) : t.hour < 100 := by
  have h := t.secs_lt
  unfold hour
  omega

theorem minute_lt (t : DateTime) : t.minute < 100 := by
  unfold minute
  omega

theorem second_lt (t : DateTime) : t.second < 100 := by
  unfold second
  split
  · omega
  · omega

theorem nanosecond_lt (t : DateTime) : t.nanosecond < 1000000000 := Nat.mod_lt _ (by decide)

end DateTime

/-- 区切りの文字。 -/
def sep (c : Char) : UInt8 := UInt8.ofNat c.toNat

/-- 区切りと二桁の数の並び。 -/
def fields (l : List (Char × Nat)) : Bytes := l.flatMap fun x => sep x.1 :: decimal 2 x.2

/-- 月から秒まで。 -/
def DateTime.fields (t : DateTime) : List (Char × Nat) :=
  [('-', t.month), ('-', t.day), ('T', t.hour), (':', t.minute), (':', t.second)]

/-- `+00:00`。 -/
def utcOffset : Bytes := sep '+' :: (decimal 2 0 ++ sep ':' :: decimal 2 0)

/-- 小数の桁数。秒ちょうどには無く、そうでなければ 3、6、9 桁のどれかで、値を落とさない。 -/
def FractionDigits (nano : Nat) (k : Nat) : Prop :=
  (nano = 0 ∧ k = 0) ∨ (nano ≠ 0 ∧ (k = 3 ∨ k = 6 ∨ k = 9) ∧ 10 ^ (9 - k) ∣ nano)

/-- `k` 桁の小数。 -/
def fraction (nano k : Nat) : Bytes :=
  if k = 0 then [] else sep '.' :: decimal k (nano / 10 ^ (9 - k))

/-- 年が四桁に収まる。 -/
def DateTime.FourDigitYear (t : DateTime) : Prop := 0 ≤ t.year ∧ t.year ≤ 9999

instance (t : DateTime) : Decidable t.FourDigitYear := inferInstanceAs (Decidable (_ ∧ _))

/-- RFC 3339 の形で時刻を書く。 -/
structure Rfc3339 (write : DateTime → Bytes) : Prop where
  form : ∀ t : DateTime, t.FourDigitYear → ∃ k, FractionDigits t.nanosecond k
    ∧ write t = decimal 4 t.year.toNat ++ (fields t.fields ++ (fraction t.nanosecond k ++ utcOffset))

/-- 四桁に収まらない年は、符号を付けて、少なくとも四桁で書かれる。 -/
def yearText (y : Int) : Bytes :=
  if 0 ≤ y ∧ y ≤ 9999 then decimal 4 y.toNat
  else
    sep (if y < 0 then '-' else '+')
      :: decimal (if y.natAbs < 10000 then 4 else if y.natAbs < 100000 then 5 else 6) y.natAbs

/-- `SecondsFormat::AutoSi` の桁数。 -/
def autoSiDigits (nano : Nat) : Nat :=
  if nano = 0 then 0 else if nano % 1000000 = 0 then 3 else if nano % 1000 = 0 then 6 else 9

/-- `to_rfc3339`。 -/
def toRfc3339 (t : DateTime) : Bytes :=
  yearText t.year
    ++ (fields t.fields ++ (fraction t.nanosecond (autoSiDigits t.nanosecond) ++ utcOffset))

theorem fractionDigits_autoSi (nano : Nat) : FractionDigits nano (autoSiDigits nano) := by
  unfold FractionDigits autoSiDigits
  by_cases hzero : nano = 0
  · rw [if_pos hzero]
    exact Or.inl ⟨hzero, rfl⟩
  · rw [if_neg hzero]
    refine Or.inr ⟨hzero, ?_⟩
    by_cases hmilli : nano % 1000000 = 0
    · rw [if_pos hmilli]
      exact ⟨Or.inl rfl, Nat.dvd_of_mod_eq_zero hmilli⟩
    · rw [if_neg hmilli]
      by_cases hmicro : nano % 1000 = 0
      · rw [if_pos hmicro]
        exact ⟨Or.inr (Or.inl rfl), Nat.dvd_of_mod_eq_zero hmicro⟩
      · rw [if_neg hmicro]
        exact ⟨Or.inr (Or.inr rfl), Nat.one_dvd nano⟩

theorem rfc3339_toRfc3339 : Rfc3339 toRfc3339 where
  form t ht := by
    have hyear : yearText t.year = decimal 4 t.year.toNat := if_pos ht
    refine ⟨_, fractionDigits_autoSi t.nanosecond, ?_⟩
    unfold toRfc3339
    rw [hyear]

example : toRfc3339 ⟨2024, 59, 86399, 500000000, by decide, by decide, by decide, by decide, by decide⟩
    = "2024-02-29T23:59:59.500+00:00".toUTF8.data.toList := by decide

example : (DateTime.mk 2024 59 86399 0 (by decide) (by decide) (by decide) (by decide) (by decide)).timestampNanos
    = 1709251199000000000 := by decide

/-! ## SQL の述語 -/

/-- `MAX(a, b)`。 -/
def sqlMax (a b : Bytes) : Bytes := if a < b then b else a

/-- `lease_reclaim_expired_leases` の `expires_at < ?`。 -/
def leaseExpired (write : DateTime → Bytes) (expiresAt now : DateTime) : Bool :=
  decide (write expiresAt < write now)

/-- `agent_update` の `registered_at = MAX(registered_at, ?16)`。 -/
def advanceRegisteredAt (write : DateTime → Bytes) (stored given : DateTime) : Bytes :=
  sqlMax (write stored) (write given)

/-- `expired_verification_dispatches` の `deadline_at > ?1 AND deadline_at <= ?2`。 -/
def deadlinePassed (write : DateTime → Bytes) (since now deadline : DateTime) : Bool :=
  decide (write since < write deadline) && decide (write deadline ≤ write now)

end Cassy
