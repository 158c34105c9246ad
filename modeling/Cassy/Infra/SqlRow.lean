import Cassy.Infra.Result
import Cassy.Infra.Text
import Mathlib.Data.List.Dedup

/-!
# SQLite の行を読む

`SELECT` の返す行は、値の列である。読む側は列を番号で選び、型の合わない値では落ちる。番号は読む側が手で数えたものなので、
列を一つ前に足した問い合わせでは、読む側も番号を一つずつずらす。ずらし方が揃っていれば同じ値になることは、`cons` の補題が言う。

表の値は型によらず何でも入りうる。比較は三値論理で、`NULL` との比較は真にならない。
-/

namespace Cassy.Infra

/-- SQLite の値。実数と BLOB は、どの読み方でも受けない値としてまとめる。 -/
inductive SqlValue where
  | null
  | integer (n : Int)
  | text (s : String)
  | other
  deriving DecidableEq, Repr

/-- 一行の値。 -/
abbrev SqlRow := List SqlValue

/-- 行を読むときの誤り。列の番号と名前は省く。 -/
inductive RowError where
  | invalidColumnIndex
  | invalidColumnType
  | integralValueOutOfRange
  deriving DecidableEq, Repr

namespace SqlValue

/-- `v = 's'` が真か。 -/
def isText (v : SqlValue) (s : String) : Bool := v == .text s

/-- `v NOT IN (…)` が真か。`NULL` では真にならない。 -/
def notIn (v : SqlValue) (names : List String) : Bool :=
  match v with
  | null => false
  | text s => s ∉ names
  | integer _ | other => true

/-- 型の間の順序。`NULL`、数、文字列、BLOB の順である。 -/
def rank : SqlValue → Nat
  | null => 0
  | integer _ => 1
  | text _ => 2
  | other => 3

/-- `ORDER BY` の昇順。 -/
def le (v w : SqlValue) : Bool :=
  match v, w with
  | integer m, integer n => m ≤ n
  | text s, text t => s ≤ t
  | _, _ => v.rank ≤ w.rank

end SqlValue

/-! ## 列の読み出し -/

/-- 番号で選んだ値。 -/
def getValue (row : SqlRow) (i : Nat) : Except RowError SqlValue := okOr row[i]? .invalidColumnIndex

/-- `get::<_, String>`。 -/
def getText (row : SqlRow) (i : Nat) : Except RowError String := do
  match ← getValue row i with
  | .text s => pure s
  | _ => .error .invalidColumnType

/-- `get::<_, Option<String>>`。 -/
def getTextOption (row : SqlRow) (i : Nat) : Except RowError (Option String) := do
  match ← getValue row i with
  | .null => pure none
  | .text s => pure (some s)
  | _ => .error .invalidColumnType

/-- `get::<_, i32>`。 -/
def getI32 (row : SqlRow) (i : Nat) : Except RowError Int32 := do
  match ← getValue row i with
  | .integer n =>
    ensure (Int32.minValue.toInt ≤ n ∧ n ≤ Int32.maxValue.toInt) .integralValueOutOfRange
    pure (Int32.ofInt n)
  | _ => .error .invalidColumnType

section Shift

variable (v : SqlValue) (row : SqlRow) (i : Nat)

/-! 列が一つ前に足されていれば、番号を一つずらして読んだ値は同じである。 -/

theorem getText_cons : getText (v :: row) (i + 1) = getText row i := rfl

theorem getTextOption_cons : getTextOption (v :: row) (i + 1) = getTextOption row i := rfl

theorem getI32_cons : getI32 (v :: row) (i + 1) = getI32 row i := rfl

end Shift

theorem getText_of {row : SqlRow} {i : Nat} {s : String} (h : row[i]? = some (.text s)) :
    getText row i = .ok s := by
  rw [getText, getValue, h]
  rfl

theorem getText_eq_ok {row : SqlRow} {i : Nat} {s : String} :
    getText row i = .ok s ↔ row[i]? = some (.text s) := by
  constructor
  · intro h
    simp only [getText, getValue, bind_eq_ok, okOr_eq_ok] at h
    obtain ⟨v, hv, h⟩ := h
    cases v with
    | text t =>
      rw [hv, pure_eq_ok.mp h]
    | null | integer | other => exact absurd h (by simp)
  · exact getText_of

/-! ## 問い合わせ -/

section Query

variable {α β : Type}

/-- 結合した表を、内側の表の条件で選んだもの。外側の行ごとに内側の行を並べる。 -/
def joinOn (on : α → β → Bool) (l : List α) (m : List β) : List (α × β) :=
  l.flatMap fun a => (m.filter (on a)).map (Prod.mk a)

theorem mem_joinOn {on : α → β → Bool} {l : List α} {m : List β} {x : α × β} :
    x ∈ joinOn on l m ↔ x.1 ∈ l ∧ x.2 ∈ m ∧ on x.1 x.2 = true := by
  obtain ⟨a, b⟩ := x
  simp only [joinOn, List.mem_flatMap, List.mem_map, List.mem_filter, Prod.mk.injEq]
  constructor
  · rintro ⟨_, ha, _, ⟨hb, hon⟩, rfl, rfl⟩
    exact ⟨ha, hb, hon⟩
  · rintro ⟨ha, hb, hon⟩
    exact ⟨a, ha, b, ⟨hb, hon⟩, rfl, rfl⟩

theorem nodup_joinOn {on : α → β → Bool} {l : List α} {m : List β} (hl : l.Nodup)
    (hm : m.Nodup) : (joinOn on l m).Nodup := by
  rw [joinOn, List.nodup_flatMap]
  refine ⟨fun a _ => (hm.filter _).map fun _ _ h => (Prod.mk.inj h).2, ?_⟩
  refine hl.imp fun {a a'} hne x hx hx' => hne ?_
  obtain ⟨b, -, rfl⟩ := List.mem_map.mp hx
  obtain ⟨b', -, he⟩ := List.mem_map.mp hx'
  exact (Prod.mk.inj he).1.symm

/-- どちらの表を外側にして結合しても、得られる組は並びを除いて同じである。 -/
theorem joinOn_swap_perm {on : α → β → Bool} {l : List α} {m : List β} (hl : l.Nodup)
    (hm : m.Nodup) :
    (joinOn (fun b a => on a b) m l).Perm ((joinOn on l m).map Prod.swap) := by
  have hswap : Function.Injective (Prod.swap : α × β → β × α) :=
    Function.LeftInverse.injective Prod.swap_swap
  refine (List.perm_ext_iff_of_nodup (nodup_joinOn hm hl) ((nodup_joinOn hl hm).map hswap)).mpr ?_
  rintro ⟨b, a⟩
  rw [mem_joinOn, List.mem_map]
  constructor
  · rintro ⟨hb, ha, hon⟩
    exact ⟨(a, b), mem_joinOn.mpr ⟨ha, hb, hon⟩, rfl⟩
  · rintro ⟨⟨a', b'⟩, hx, he⟩
    obtain ⟨ha, hb, hon⟩ := mem_joinOn.mp hx
    obtain ⟨rfl, rfl⟩ := Prod.mk.inj he
    exact ⟨hb, ha, hon⟩

end Query

/-- 行の読み方の列が全部通るなら、結果の列になる。 -/
theorem mapM_eq_ok {ε α β : Type} {f : α → Except ε β} {g : α → β} :
    ∀ {l : List α}, (∀ a ∈ l, f a = .ok (g a)) → l.mapM f = .ok (l.map g)
  | [], _ => rfl
  | a :: l, h => by
    rw [List.mapM_cons, h a List.mem_cons_self, ok_bind,
      mapM_eq_ok fun b hb => h b (List.mem_cons_of_mem _ hb)]
    rfl

end Cassy.Infra
