import Mathlib.Algebra.Ring.Int.Defs
import Mathlib.Algebra.Ring.Nat
import Mathlib.Data.List.Nodup
import Mathlib.Tactic.Common
import Cassy.Infra.Result

/-!
# JSON の値と読み書き

`serde_json::Value` と、型ごとの書き方・読み方の組 `Codec`。

## 構造体

構造体は field の並び `Fields` を経て object になる。`skip_serializing_if` で落ちる field は
`none` を持ち、object には現れない。読む側は名前で引くので、必要なのは
「名前が重複しなければ、引いた値は書いた値である」（`get?_ofFields`）だけである。

## `null`

`Option<T>` を読むとき、`null` は field が無いのと同じに扱われる。だから `null` に書かれる値は
`Option` の field では読み戻せない。`RoundTrips` が「`null` に書かれない」を含むのはこのためである。
-/

namespace Cassy.Infra

/-- `serde_json::Number`。`f64` は有限の値の bit 列で持つ。 -/
inductive JsonNumber where
  | posInt (n : UInt64)
  | negInt (n : Int) (h : -2 ^ 63 ≤ n ∧ n < 0)
  | float (bits : UInt64)
  deriving DecidableEq, Repr

/-- `serde_json::Value`。 -/
inductive Json where
  | null
  | bool (b : Bool)
  | number (n : JsonNumber)
  | string (s : String)
  | array (items : List Json)
  | object (members : List (String × Json))
  deriving Repr

namespace Json

mutual

def decEq : ∀ a b : Json, Decidable (a = b)
  | .null, b => match b with
    | .null => .isTrue rfl
    | .bool _ | .number _ | .string _ | .array _ | .object _ => .isFalse nofun
  | .bool x, b => match b with
    | .bool y => decidable_of_iff (x = y) (by simp)
    | .null | .number _ | .string _ | .array _ | .object _ => .isFalse nofun
  | .number x, b => match b with
    | .number y => decidable_of_iff (x = y) (by simp)
    | .null | .bool _ | .string _ | .array _ | .object _ => .isFalse nofun
  | .string x, b => match b with
    | .string y => decidable_of_iff (x = y) (by simp)
    | .null | .bool _ | .number _ | .array _ | .object _ => .isFalse nofun
  | .array xs, b => match b with
    | .array ys => match decEqItems xs ys with
      | .isTrue h => .isTrue (by rw [h])
      | .isFalse h => .isFalse (by simpa using h)
    | .null | .bool _ | .number _ | .string _ | .object _ => .isFalse nofun
  | .object xs, b => match b with
    | .object ys => match decEqMembers xs ys with
      | .isTrue h => .isTrue (by rw [h])
      | .isFalse h => .isFalse (by simpa using h)
    | .null | .bool _ | .number _ | .string _ | .array _ => .isFalse nofun
termination_by structural a => a

def decEqItems : ∀ xs ys : List Json, Decidable (xs = ys)
  | [], [] => .isTrue rfl
  | [], _ :: _ => .isFalse nofun
  | _ :: _, [] => .isFalse nofun
  | x :: xs, y :: ys => match decEq x y, decEqItems xs ys with
    | .isTrue h, .isTrue h' => .isTrue (by rw [h, h'])
    | .isFalse h, _ => .isFalse fun e => h (List.cons.inj e).1
    | _, .isFalse h => .isFalse fun e => h (List.cons.inj e).2
termination_by structural xs => xs

def decEqMembers : ∀ xs ys : List (String × Json), Decidable (xs = ys)
  | [], [] => .isTrue rfl
  | [], _ :: _ => .isFalse nofun
  | _ :: _, [] => .isFalse nofun
  | x :: xs, y :: ys => match decEqMember x y, decEqMembers xs ys with
    | .isTrue h, .isTrue h' => .isTrue (by rw [h, h'])
    | .isFalse h, _ => .isFalse fun e => h (List.cons.inj e).1
    | _, .isFalse h => .isFalse fun e => h (List.cons.inj e).2
termination_by structural xs => xs

def decEqMember : ∀ x y : String × Json, Decidable (x = y)
  | (k, v), (k', v') => match decEq v v' with
    | .isTrue h => decidable_of_iff (k = k') (by simp [h])
    | .isFalse h => .isFalse (by simp [h])
termination_by structural x => x

end

instance : DecidableEq Json := decEq

/-- `f64` の `==`。`0` と `-0` は等しい。 -/
def sameFloat (x y : UInt64) : Bool := x = y ∨ (x <<< 1 = 0 ∧ y <<< 1 = 0)

/-- `Number` の `==`。 -/
def sameNumber : JsonNumber → JsonNumber → Bool
  | .float x, .float y => sameFloat x y
  | m, n => m = n

mutual

/-- `Value` の `==`。object は並びを問わない。 -/
def same : Json → Json → Bool
  | .null, .null => true
  | .bool x, .bool y => x = y
  | .number x, .number y => sameNumber x y
  | .string x, .string y => x = y
  | .array xs, .array ys => sameItems xs ys
  | .object xs, .object ys => xs.length = ys.length && sameMembers xs ys
  | _, _ => false
termination_by structural a => a

def sameItems : List Json → List Json → Bool
  | [], [] => true
  | x :: xs, y :: ys => same x y && sameItems xs ys
  | _, _ => false
termination_by structural xs => xs

def sameMembers : List (String × Json) → List (String × Json) → Bool
  | [], _ => true
  | x :: xs, ys => sameMember x ys && sameMembers xs ys
termination_by structural xs => xs

def sameMember : String × Json → List (String × Json) → Bool
  | (k, v), ys => match ys.lookup k with
    | some w => same v w
    | none => false
termination_by structural x => x

end

end Json

/-- `serde::de::Error` の作り方。 -/
inductive DeError where
  | invalidType
  | invalidValue
  | unknownVariant (variant : String)
  | missingField (name : String)
  | unknownField (name : String)
  | custom (message : String)
  deriving DecidableEq, Repr

/-- 値の書き方と読み方の組。 -/
structure Codec (α : Type) where
  ser : α → Json
  de : Json → Except DeError α

namespace Codec

variable {α : Type}

/-- 書いた値が `null` でなく、読めば元に戻る。 -/
def RoundTrips (c : Codec α) (a : α) : Prop := c.de (c.ser a) = .ok a ∧ c.ser a ≠ .null

/-- どの値も読み戻せる。 -/
def Lawful (c : Codec α) : Prop := ∀ a, c.RoundTrips a

/-! ## 基本の型 -/

/-- `Value` 自身。そのまま書き、そのまま読む。 -/
def value : Codec Json where
  ser v := v
  de v := .ok v

/-- `String`。 -/
def string : Codec String where
  ser := .string
  de
    | .string s => .ok s
    | _ => .error .invalidType

/-- `bool`。 -/
def bool : Codec Bool where
  ser := .bool
  de
    | .bool b => .ok b
    | _ => .error .invalidType

/-- `u64`。 -/
def u64 : Codec UInt64 where
  ser n := .number (.posInt n)
  de
    | .number (.posInt n) => .ok n
    | .number (.negInt _ _) => .error .invalidValue
    | _ => .error .invalidType

/-- 符号つきの整数を数にする。 -/
def signed (n : Int) (h : -2 ^ 63 ≤ n ∧ n < 2 ^ 63) : JsonNumber :=
  if hn : 0 ≤ n then .posInt (UInt64.ofNat n.toNat) else .negInt n ⟨h.1, by omega⟩

/-- 数を、範囲を確かめて整数として読む。 -/
def readSigned (lo hi : Int) : Json → Except DeError Int
  | .number (.posInt n) =>
    if (n.toNat : Int) < hi then .ok n.toNat else .error .invalidValue
  | .number (.negInt n _) => if lo ≤ n then .ok n else .error .invalidValue
  | _ => .error .invalidType

/-- `i32`。 -/
def i32 : Codec Int32 where
  ser n := .number (signed n.toInt ⟨by have := n.le_toInt; omega, by have := n.toInt_lt; omega⟩)
  de v := (readSigned (-2 ^ 31) (2 ^ 31) v).map Int32.ofInt

/-- 値を持たない列挙型。`name` が書く名前、`ofName` が読める名前である。 -/
def variant (name : α → String) (ofName : String → Option α) : Codec α where
  ser a := .string (name a)
  de
    | .string s => okOr (ofName s) (.unknownVariant s)
    | _ => .error .invalidType

/-- `Vec<T>`。 -/
def list (c : Codec α) : Codec (List α) where
  ser xs := .array (xs.map c.ser)
  de
    | .array vs => vs.mapM c.de
    | _ => .error .invalidType

/-! ## 構造体 -/

end Codec

/-- 構造体の field。値の無いものは書かれない。 -/
abbrev Fields := List (String × Option Json)

/-- object の中身。 -/
abbrev Members := List (String × Json)

/-- 書かれる field だけを残す。 -/
def Fields.members (fs : Fields) : Members := fs.filterMap fun f => f.2.map (f.1, ·)

/-- object を読む。 -/
def Json.members : Json → Except DeError Members
  | .object m => .ok m
  | _ => .error .invalidType

namespace Codec

variable {α : Type} (c : Codec α) (m : Members) (k : String)

/-- 既定値の無い field。 -/
def required : Except DeError α :=
  match m.lookup k with
  | none => .error (.missingField k)
  | some v => c.de v

/-- `#[serde(default)]` の field。 -/
def withDefault (d : α) : Except DeError α :=
  match m.lookup k with
  | none => .ok d
  | some v => c.de v

/-- `Option<T>` の field。無くても `null` でも `None` になる。 -/
def optional : Except DeError (Option α) :=
  match m.lookup k with
  | none | some .null => .ok none
  | some v => (c.de v).map some

/-- `skip_serializing_if` の無い `Option<T>` の field。`None` は `null` に書かれる。 -/
def nullable : Option α → Json
  | none => .null
  | some a => c.ser a

/-- 構造体。知らない名前の field は読み飛ばす。 -/
def record (fields : α → Fields) (read : Members → Except DeError α) : Codec α where
  ser a := .object (Fields.members (fields a))
  de v := v.members >>= read

end Codec

/-- `skip_serializing_if = "std::ops::Not::not"`。 -/
def skipFalse (b : Bool) : Option Json := if b then some (.bool true) else none

/-- `skip_serializing_if = "Vec::is_empty"`。 -/
def skipEmpty {α : Type} (c : Codec α) (xs : List α) : Option Json :=
  if xs.isEmpty then none else some (c.list.ser xs)

/-! ## 引く -/

/-- 名前が重複しなければ、引いた値は書いた値である。 -/
theorem lookup_members {fs : Fields} (hn : (fs.map Prod.fst).Nodup) {k : String}
    {v : Option Json} (h : (k, v) ∈ fs) : (Fields.members fs).lookup k = v := by
  induction fs with
  | nil => simp at h
  | cons f fs ih =>
    obtain ⟨k', v'⟩ := f
    rw [List.map_cons, List.nodup_cons] at hn
    rcases List.mem_cons.mp h with he | hmem
    · obtain ⟨rfl, rfl⟩ := Prod.mk.inj he
      cases v with
      | some v => simp [Fields.members]
      | none =>
        -- 後ろに同じ名前は無いので、引いても見つからない
        have hnone : (Fields.members fs).lookup k = none := by
          rw [List.lookup_eq_none_iff]
          rintro ⟨k'', v''⟩ hm
          simp only [Fields.members, List.mem_filterMap, Option.map_eq_some_iff, Prod.mk.injEq]
            at hm
          obtain ⟨f, hf, w, -, rfl, -⟩ := hm
          have hne : k ≠ f.1 := fun he => hn.1 (List.mem_map.mpr ⟨f, hf, he.symm⟩)
          simpa using hne
        simpa [Fields.members] using hnone
    · have hne : k ≠ k' := fun he =>
        hn.1 (List.mem_map.mpr ⟨(k, v), hmem, by simp [he]⟩)
      have hb : (k == k') = false := by simpa using hne
      cases v' with
      | none => simpa [Fields.members] using ih hn.2 hmem
      | some v' =>
        have := ih hn.2 hmem
        simp only [Fields.members] at this ⊢
        simp [List.lookup_cons, hb, this]

/-- 位置で指した field を引く。 -/
theorem lookup_members_of_getElem? {fs : Fields} (hn : (fs.map Prod.fst).Nodup) (i : Nat)
    {k : String} {v : Option Json} (h : fs[i]? = some (k, v)) :
    (Fields.members fs).lookup k = v :=
  lookup_members hn (List.mem_of_getElem? h)

namespace Codec

variable {α β : Type} {c : Codec α} {m : Members} {k : String}

theorem required_bind {f : α → Except DeError β} {a : α} (h : m.lookup k = some (c.ser a))
    (hc : c.Lawful) : (c.required m k >>= f) = f a := by
  rw [required, h]
  exact congrArg (· >>= f) (hc a).1

theorem withDefault_bind {f : α → Except DeError β} {a d : α} (h : m.lookup k = some (c.ser a))
    (hc : c.Lawful) : (c.withDefault m k d >>= f) = f a := by
  rw [withDefault, h]
  exact congrArg (· >>= f) (hc a).1

theorem optional_bind {f : Option α → Except DeError β} {o : Option α}
    (h : m.lookup k = o.map c.ser) (hc : c.Lawful) : (c.optional m k >>= f) = f o := by
  rw [optional, h]
  cases o with
  | none => rfl
  | some a =>
    obtain ⟨hd, hn⟩ := hc a
    simp only [Option.map_some, hd]
    rfl

theorem nullable_bind {f : Option α → Except DeError β} {o : Option α}
    (h : m.lookup k = some (c.nullable o)) (hc : c.Lawful) : (c.optional m k >>= f) = f o := by
  cases o with
  | none => rw [optional, h]; rfl
  | some a => exact optional_bind h hc

theorem skipFalse_bind {f : Bool → Except DeError β} {b : Bool} (h : m.lookup k = skipFalse b) :
    (bool.withDefault m k false >>= f) = f b := by
  rw [withDefault, h]
  cases b <;> rfl

theorem skipEmpty_bind {f : List α → Except DeError β} {xs : List α}
    (h : m.lookup k = skipEmpty c xs) (hc : c.list.Lawful) :
    (c.list.withDefault m k [] >>= f) = f xs := by
  rw [withDefault, h]
  cases xs with
  | nil => rfl
  | cons x xs => exact congrArg (· >>= f) (hc (x :: xs)).1

/-! ## 読み戻せる型 -/

theorem string_lawful : string.Lawful := fun _ => ⟨rfl, nofun⟩

theorem u64_lawful : u64.Lawful := fun _ => ⟨rfl, nofun⟩

theorem readSigned_signed {lo hi n : Int} (h : -2 ^ 63 ≤ n ∧ n < 2 ^ 63) (hlo : lo ≤ n)
    (hhi : n < hi) : readSigned lo hi (.number (signed n h)) = .ok n := by
  unfold signed
  split
  · next hn =>
    have hnat : (UInt64.ofNat n.toNat).toNat = n.toNat := by
      rw [UInt64.toNat_ofNat']
      omega
    rw [readSigned, hnat, Int.toNat_of_nonneg hn, if_pos hhi]
  · rw [readSigned, if_pos hlo]

theorem i32_lawful : i32.Lawful := by
  intro n
  refine ⟨?_, nofun⟩
  have hlo := n.le_toInt
  have hhi := n.toInt_lt
  show (readSigned _ _ (.number (signed n.toInt _))).map Int32.ofInt = .ok n
  rw [readSigned_signed _ hlo hhi]
  simp [Except.map]

theorem variant_lawful {name : α → String} {ofName : String → Option α}
    (h : ∀ a, ofName (name a) = some a) : (variant name ofName).Lawful := by
  intro a
  refine ⟨?_, nofun⟩
  show okOr (ofName (name a)) _ = .ok a
  rw [h a, okOr_some]

/--
構造体が読み戻せること。

`h` に渡る `get` は、書いた field を位置で指して引けることである。
-/
theorem record_roundTrips {fields : α → Fields} {read : Members → Except DeError α} {a : α}
    (hn : ((fields a).map Prod.fst).Nodup)
    (h : ∀ m : Members, (∀ (i : Nat) k v, (fields a)[i]? = some (k, v) → m.lookup k = v) →
      read m = .ok a) : (record fields read).RoundTrips a :=
  ⟨h _ fun i _ _ hi => lookup_members_of_getElem? hn i hi, nofun⟩

theorem list_lawful (hc : c.Lawful) : c.list.Lawful := by
  intro xs
  refine ⟨?_, nofun⟩
  show (xs.map c.ser).mapM c.de = .ok xs
  induction xs with
  | nil => rfl
  | cons x xs ih => rw [List.map_cons, List.mapM_cons, (hc x).1, ok_bind, ih]; rfl

end Codec

end Cassy.Infra
