import Mathlib.Order.Lattice
import Mathlib.Order.Defs.LinearOrder
import Mathlib.Tactic.Common

/-!
# `ORDER BY … LIMIT 1`

並びの先頭に立つ一行を選ぶ問い合わせの意味。同順位の行が複数あるとき、どれが返るかは SQL では決まらない。そこで、返りうるものを関係として書く。

返るものが一つに決まるのは、ほかの全部より真に前に立つ行があるときである。
-/

namespace Cassy.Infra

variable {α : Type*} {better : α → α → Bool} {rows : List α} {x : α} {o : Option α}

/-- `ORDER BY … LIMIT 1` が返しうるもの。行が無ければ `none`、あれば先に立つ行の無い行である。 -/
def MayReturn (better : α → α → Bool) (rows : List α) : Option α → Prop
  | none => rows = []
  | some x => x ∈ rows ∧ ∀ y ∈ rows, better y x = false

@[simp] theorem mayReturn_none : MayReturn better rows none ↔ rows = [] := Iff.rfl

@[simp] theorem mayReturn_some :
    MayReturn better rows (some x) ↔ x ∈ rows ∧ ∀ y ∈ rows, better y x = false := Iff.rfl

/-- 返りうるものは、行の集まりだけで決まる。 -/
theorem mayReturn_congr {rows' : List α} (h : ∀ y, y ∈ rows ↔ y ∈ rows') :
    MayReturn better rows o ↔ MayReturn better rows' o := by
  cases o with
  | none =>
    simp only [mayReturn_none, List.eq_nil_iff_forall_not_mem, h]
  | some x =>
    simp only [mayReturn_some, h]

theorem mayReturn_nil : MayReturn better [] o ↔ o = none := by
  cases o with
  | none => simp
  | some x => simp

/-- 行を写してから選ぶのと、選んでから写すのは同じである。 -/
theorem mayReturn_map {β : Type*} {g : β → α} {rows : List β} :
    MayReturn better (rows.map g) o
      ↔ ∃ o', MayReturn (fun x y => better (g x) (g y)) rows o' ∧ o'.map g = o := by
  constructor
  · intro h
    cases o with
    | none => exact ⟨none, List.map_eq_nil_iff.mp h, rfl⟩
    | some a =>
      obtain ⟨ha, hmax⟩ := h
      obtain ⟨x, hx, rfl⟩ := List.mem_map.mp ha
      exact ⟨some x, ⟨hx, fun y hy => hmax _ (List.mem_map.mpr ⟨y, hy, rfl⟩)⟩, rfl⟩
  · rintro ⟨o', h, rfl⟩
    cases o' with
    | none => exact List.map_eq_nil_iff.mpr h
    | some x =>
      refine ⟨List.mem_map.mpr ⟨x, h.1, rfl⟩, fun a ha => ?_⟩
      obtain ⟨y, hy, rfl⟩ := List.mem_map.mp ha
      exact h.2 y hy

/-- ほかの全部より前に立つ行があれば、それだけが返る。 -/
theorem mayReturn_iff_of_best (hx : x ∈ rows) (hself : better x x = false)
    (hbest : ∀ y ∈ rows, y ≠ x → better x y = true ∧ better y x = false) :
    MayReturn better rows o ↔ o = some x := by
  constructor
  · intro h
    cases o with
    | none =>
      rw [mayReturn_none.mp h] at hx
      exact absurd hx List.not_mem_nil
    | some y =>
      obtain ⟨hy, hmax⟩ := h
      by_cases hyx : y = x
      · rw [hyx]
      · have htrue := (hbest y hy hyx).1
        rw [hmax x hx] at htrue
        exact absurd htrue (by decide)
  · rintro rfl
    refine ⟨hx, fun y hy => ?_⟩
    by_cases hyx : y = x
    · rw [hyx]
      exact hself
    · exact (hbest y hy hyx).2

/-- 先に立つかを決める比較が、同順位を許す順序になっている。 -/
structure StrictWeak (better : α → α → Bool) : Prop where
  asymm : ∀ {a b}, better a b = true → better b a = false
  negTrans : ∀ {a b c}, better a b = false → better b c = false → better a c = false

theorem StrictWeak.irrefl (h : StrictWeak better) (a : α) : better a a = false := by
  cases haa : better a a with
  | false => rfl
  | true => exact haa ▸ h.asymm haa

/-- 鍵の降順。 -/
theorem strictWeak_of_key {κ : Type*} [LinearOrder κ] (key : α → κ) :
    StrictWeak fun a b => decide (key b < key a) where
  asymm h := decide_eq_false (lt_asymm (of_decide_eq_true h))
  negTrans hab hbc := decide_eq_false <| not_lt_of_ge <|
    le_trans (not_lt.mp (of_decide_eq_false hab)) (not_lt.mp (of_decide_eq_false hbc))

/-- 問い合わせがいつも同じ一行を返すのは、その行がほかの全部より真に前に立つときに限る。 -/
theorem best_of_mayReturn_iff {β : Type*} {f : α → β} (hw : StrictWeak better) {b : β}
    (h : ∀ o, MayReturn better rows o → o.map f = some b)
    (hx : MayReturn better rows (some x)) :
    f x = b ∧ ∀ y ∈ rows, f y ≠ b → better x y = true := by
  have hfx : f x = b := Option.some.inj (h _ hx)
  refine ⟨hfx, fun y hy hne => ?_⟩
  cases hxy : better x y with
  | true => rfl
  | false =>
    -- 同順位なら `y` も返りうる
    have hyret : MayReturn better rows (some y) :=
      ⟨hy, fun z hz => hw.negTrans (hx.2 z hz) hxy⟩
    exact absurd (Option.some.inj (h _ hyret)) hne

end Cassy.Infra
