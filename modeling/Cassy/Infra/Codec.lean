import Mathlib.Data.List.Basic
import Mathlib.Data.Vector.Basic
import Mathlib.Tactic.Common

/-!
# byte の列への符号

値を byte の列に書き、列の先頭から読み戻す。読み戻しは余りの列も返すので、符号は並べて使える。

* `leBytes`、`ofLe` — little endian の数
* `slice` — `data[a..b]`
* `ByteCodec` — 書く関数と読む関数の組。書いたものの後に何が続いても、読めば元の値と余りになる

長さを先に書く符号は、長さが 64 bit に収まるときにだけ読み戻せる。そこで性質は、符号の長さが `2 ^ 64` 未満の値に
ついてのものとする。
-/

namespace Cassy.Infra

abbrev Bytes := List UInt8

/-! ## 数 -/

/-- `to_le_bytes`。`w` byte に収まらない桁は落ちる。 -/
def leBytes : Nat → Nat → Bytes
  | 0, _ => []
  | w + 1, n => UInt8.ofNat n :: leBytes w (n / 256)

/-- `from_le_bytes`。 -/
def ofLe : Bytes → Nat
  | [] => 0
  | b :: bs => b.toNat + 256 * ofLe bs

@[simp] theorem leBytes_length : ∀ (w n : Nat), (leBytes w n).length = w
  | 0, _ => rfl
  | w + 1, n => congrArg Nat.succ (leBytes_length w (n / 256))

theorem ofLe_leBytes : ∀ (w n : Nat), ofLe (leBytes w n) = n % 256 ^ w
  | 0, n => (Nat.mod_one n).symm
  | w + 1, n => by
    have hb : (UInt8.ofNat n).toNat = n % 256 := UInt8.toNat_ofNat'
    rw [leBytes, ofLe, ofLe_leBytes w, hb, Nat.pow_succ', Nat.mod_mul]

theorem ofLe_leBytes_of_lt {w n : Nat} (h : n < 256 ^ w) : ofLe (leBytes w n) = n := by
  rw [ofLe_leBytes, Nat.mod_eq_of_lt h]

/-! ## 切り出し -/

/-- `data[a..b]`。 -/
def slice (data : Bytes) (a b : Nat) : Bytes := (data.drop a).take (b - a)

/-- 前後のある列の切り出し。 -/
theorem slice_mid {pre mid post : Bytes} {a b : Nat} (ha : pre.length = a) (hb : a + mid.length = b) :
    slice (pre ++ (mid ++ post)) a b = mid := by
  subst ha hb
  unfold slice
  rw [List.drop_left, Nat.add_sub_cancel_left, List.take_left]

/-! ## 符号 -/

/-- 書く関数と読む関数の組。 -/
structure ByteCodec (α : Type) where
  enc : α → Bytes
  dec : Bytes → Option (α × Bytes)
  dec_enc : ∀ a rest, (enc a).length < 2 ^ 64 → dec (enc a ++ rest) = some (a, rest)

namespace ByteCodec

variable {α β : Type}

/-- `w` byte の数。 -/
def fixed (w : Nat) (toNat : α → Nat) (ofNat : Nat → α) (h : ∀ a, ofNat (toNat a % 256 ^ w) = a) :
    ByteCodec α where
  enc a := leBytes w (toNat a)
  dec bs := if bs.length < w then none else some (ofNat (ofLe (bs.take w)), bs.drop w)
  dec_enc a rest _ := by
    have hlen : (leBytes w (toNat a)).length = w := leBytes_length w (toNat a)
    rw [if_neg (by rw [List.length_append, hlen]; exact Nat.not_lt.mpr (Nat.le_add_right w _)),
      List.take_left' hlen, List.drop_left' hlen, ofLe_leBytes, h]

def uint16 : ByteCodec UInt16 :=
  fixed 2 UInt16.toNat UInt16.ofNat fun a => by
    rw [Nat.mod_eq_of_lt (show a.toNat < 256 ^ 2 from a.toNat_lt), UInt16.ofNat_toNat]

def uint32 : ByteCodec UInt32 :=
  fixed 4 UInt32.toNat UInt32.ofNat fun a => by
    rw [Nat.mod_eq_of_lt (show a.toNat < 256 ^ 4 from a.toNat_lt), UInt32.ofNat_toNat]

def uint64 : ByteCodec UInt64 :=
  fixed 8 UInt64.toNat UInt64.ofNat fun a => by
    rw [Nat.mod_eq_of_lt (show a.toNat < 256 ^ 8 from a.toNat_lt), UInt64.ofNat_toNat]

/-- 長さの決まった byte の列。 -/
def array (n : Nat) : ByteCodec (List.Vector UInt8 n) where
  enc v := v.toList
  dec bs :=
    if h : n ≤ bs.length then
      some (⟨bs.take n, by rw [List.length_take, Nat.min_eq_left h]⟩, bs.drop n)
    else none
  dec_enc v rest _ := by
    have hlen : v.toList.length = n := v.toList_length
    rw [dif_pos (by rw [List.length_append, hlen]; exact Nat.le_add_right n _)]
    refine congrArg some (Prod.ext (Subtype.ext ?_) ?_)
    · exact List.take_left' hlen
    · exact List.drop_left' hlen

/-- 続けて書く。 -/
def pair (c : ByteCodec α) (d : ByteCodec β) : ByteCodec (α × β) where
  enc x := c.enc x.1 ++ d.enc x.2
  dec bs := (c.dec bs).bind fun (a, bs) => (d.dec bs).map fun (b, bs) => ((a, b), bs)
  dec_enc x rest h := by
    rw [List.length_append] at h
    rw [List.append_assoc, c.dec_enc x.1 _ (Nat.lt_of_le_of_lt (Nat.le_add_right ..) h),
      Option.bind_some]
    dsimp only
    rw [d.dec_enc x.2 _ (Nat.lt_of_le_of_lt (Nat.le_add_left ..) h)]
    rfl

/-- 別の型の値として書く。 -/
def map (c : ByteCodec β) (f : α → β) (g : β → Option α) (h : ∀ a, g (f a) = some a) : ByteCodec α where
  enc a := c.enc (f a)
  dec bs := (c.dec bs).bind fun (b, bs) => (g b).map fun a => (a, bs)
  dec_enc a rest hlen := by
    rw [c.dec_enc (f a) rest hlen, Option.bind_some]
    dsimp only
    rw [h]
    rfl

theorem pair_dec_of_none {c : ByteCodec α} {d : ByteCodec β} {a : α} {bs rest : Bytes}
    (hc : c.dec bs = some (a, rest)) (hd : d.dec rest = none) : (pair c d).dec bs = none := by
  unfold pair
  dsimp only
  rw [hc, Option.bind_some]
  dsimp only
  rw [hd]
  rfl

theorem map_dec_of_none {c : ByteCodec β} {f : α → β} {g : β → Option α} {h : ∀ a, g (f a) = some a}
    {bs : Bytes} (hc : c.dec bs = none) : (map c f g h).dec bs = none := by
  unfold map
  dsimp only
  rw [hc]
  rfl

/-- 長さの付いた byte の列。 -/
def bytes : ByteCodec Bytes where
  enc bs := leBytes 8 bs.length ++ bs
  dec bs :=
    if bs.length < 8 then none
    else
      let n := ofLe (bs.take 8)
      let bs := bs.drop 8
      if bs.length < n then none else some (bs.take n, bs.drop n)
  dec_enc bs rest h := by
    rw [List.length_append, leBytes_length] at h
    have hlen : (leBytes 8 bs.length).length = 8 := leBytes_length 8 _
    have hn : ofLe (leBytes 8 bs.length) = bs.length :=
      ofLe_leBytes_of_lt (Nat.lt_of_le_of_lt (Nat.le_add_left ..) h)
    rw [if_neg (by simp), List.append_assoc, List.take_left' hlen, List.drop_left' hlen]
    dsimp only
    rw [hn, if_neg (by simp), List.take_left, List.drop_left]

/-- 長さだけで終わる列は読めない。 -/
theorem bytes_dec_leBytes {n : Nat} (hn : 0 < n) (h : n < 2 ^ 64) : bytes.dec (leBytes 8 n) = none := by
  have htake : (leBytes 8 n).take 8 = leBytes 8 n :=
    List.take_of_length_le (Nat.le_of_eq (leBytes_length 8 n))
  have hdrop : (leBytes 8 n).drop 8 = [] :=
    List.drop_of_length_le (Nat.le_of_eq (leBytes_length 8 n))
  unfold bytes
  dsimp only
  rw [if_neg (by rw [leBytes_length]; exact Nat.lt_irrefl 8), htake, hdrop,
    ofLe_leBytes_of_lt (show n < 256 ^ 8 from h)]
  exact if_pos hn

/-- 長さの付いた UTF-8 の文字列。 -/
def string : ByteCodec String :=
  bytes.map (fun s => s.toUTF8.data.toList) (fun bs => String.fromUTF8? ⟨bs.toArray⟩) fun s => by
    unfold String.fromUTF8?
    exact dif_pos s.isValidUTF8

/-- 決まった数だけ読む。 -/
def decN (c : ByteCodec α) : Nat → Bytes → Option (List α × Bytes)
  | 0, bs => some ([], bs)
  | n + 1, bs => (c.dec bs).bind fun (a, bs) => (decN c n bs).map fun (as, bs) => (a :: as, bs)

theorem decN_flatMap (c : ByteCodec α) : ∀ (as : List α) (rest : Bytes),
    (as.flatMap c.enc).length < 2 ^ 64 → c.decN as.length (as.flatMap c.enc ++ rest) = some (as, rest)
  | [], _, _ => rfl
  | a :: as, rest, h => by
    rw [List.flatMap_cons, List.length_append] at h
    rw [List.flatMap_cons, List.append_assoc, List.length_cons, decN,
      c.dec_enc a _ (Nat.lt_of_le_of_lt (Nat.le_add_right ..) h), Option.bind_some]
    dsimp only
    rw [decN_flatMap c as rest (Nat.lt_of_le_of_lt (Nat.le_add_left ..) h)]
    rfl

theorem length_le_flatMap (c : ByteCodec α) (hpos : ∀ a, 0 < (c.enc a).length) :
    ∀ as : List α, as.length ≤ (as.flatMap c.enc).length
  | [] => Nat.le_refl 0
  | a :: as => by
    rw [List.flatMap_cons, List.length_append, List.length_cons, Nat.add_comm]
    exact Nat.add_le_add (hpos a) (length_le_flatMap c hpos as)

/-- 長さの付いた列。要素の符号は空でないものとする。 -/
def list (c : ByteCodec α) (hpos : ∀ a, 0 < (c.enc a).length) : ByteCodec (List α) where
  enc as := leBytes 8 as.length ++ as.flatMap c.enc
  dec bs := if bs.length < 8 then none else c.decN (ofLe (bs.take 8)) (bs.drop 8)
  dec_enc as rest h := by
    rw [List.length_append, leBytes_length] at h
    have hflat : (as.flatMap c.enc).length < 2 ^ 64 := Nat.lt_of_le_of_lt (Nat.le_add_left ..) h
    have hlen : (leBytes 8 as.length).length = 8 := leBytes_length 8 _
    have hn : ofLe (leBytes 8 as.length) = as.length :=
      ofLe_leBytes_of_lt (Nat.lt_of_le_of_lt (length_le_flatMap c hpos as) hflat)
    rw [if_neg (by simp), List.append_assoc, List.take_left' hlen, List.drop_left' hlen, hn,
      decN_flatMap c as rest hflat]

end ByteCodec

/-! ## 区切りの要らない符号 -/

/-- `to_be_bytes`。 -/
def beBytes (w n : Nat) : Bytes := (leBytes w n).reverse

@[simp] theorem beBytes_length (w n : Nat) : (beBytes w n).length = w := by
  unfold beBytes
  rw [List.length_reverse, leBytes_length]

theorem beBytes_inj {w m n : Nat} (hm : m < 256 ^ w) (hn : n < 256 ^ w) (h : beBytes w m = beBytes w n) :
    m = n := by
  rw [← ofLe_leBytes_of_lt hm, ← ofLe_leBytes_of_lt hn, List.reverse_inj.mp h]

/-- `p` の値の符号は、後に何が続いても値を決める。 -/
structure SelfDelimiting {α β : Type} (enc : α → List β) (p : α → Prop) : Prop where
  ne_nil : ∀ a, enc a ≠ []
  append_inj : ∀ {a b x y}, p a → p b → enc a ++ x = enc b ++ y → a = b ∧ x = y

/-- 区切りの要らない符号は、並べても読み分けられる。 -/
theorem SelfDelimiting.flatMap_inj {α β : Type} {enc : α → List β} {p : α → Prop}
    (h : SelfDelimiting enc p) {as bs : List α} (has : ∀ a ∈ as, p a) (hbs : ∀ b ∈ bs, p b)
    (heq : as.flatMap enc = bs.flatMap enc) : as = bs := by
  induction as generalizing bs with
  | nil =>
    cases bs with
    | nil => rfl
    | cons b bs => exact absurd (List.append_eq_nil_iff.mp heq.symm).1 (h.ne_nil b)
  | cons a as ih =>
    cases bs with
    | nil => exact absurd (List.append_eq_nil_iff.mp heq).1 (h.ne_nil a)
    | cons b bs =>
      rw [List.flatMap_cons, List.flatMap_cons] at heq
      obtain ⟨rfl, hrest⟩ :=
        h.append_inj (has a List.mem_cons_self) (hbs b List.mem_cons_self) heq
      rw [ih (fun c hc => has c (List.mem_cons_of_mem a hc))
        (fun c hc => hbs c (List.mem_cons_of_mem a hc)) hrest]

/-- 長さを先に書いた列は、区切りが要らない。 -/
theorem selfDelimiting_lengthPrefix {α : Type} {toBytes : α → Bytes} (w : Nat) (hw : 0 < w)
    (hinj : ∀ {a b}, toBytes a = toBytes b → a = b) :
    SelfDelimiting (fun a => beBytes w (toBytes a).length ++ toBytes a)
      fun a => (toBytes a).length < 256 ^ w where
  ne_nil a hnil := by
    have hlen := congrArg List.length hnil
    rw [List.length_append, beBytes_length, List.length_nil] at hlen
    omega
  append_inj := by
    intro a b x y ha hb heq
    rw [List.append_assoc, List.append_assoc] at heq
    obtain ⟨hlen, hrest⟩ := List.append_inj heq (by rw [beBytes_length, beBytes_length])
    obtain ⟨hbytes, hxy⟩ := List.append_inj hrest (beBytes_inj ha hb hlen)
    exact ⟨hinj hbytes, hxy⟩

end Cassy.Infra
