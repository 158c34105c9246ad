import Mathlib.Logic.Relation
import Mathlib.Data.List.Nodup
import Mathlib.Data.List.Dedup
import Mathlib.Data.Finset.Card
import Mathlib.Tactic.Common

/-!
# 有限の辺の列の上の到達可能性

`WITH RECURSIVE … UNION …` は、既に得た頂点の集合に一歩先を足すことを、
増えなくなるまで続ける。それを辺の列の上の飽和として書き、
`Relation.ReflTransGen` と一致することを示す。

辺が `n` 本なら新しい頂点は `n` 個しか現れないので、`n` 回で止まる。
-/

namespace Cassy.Infra

variable {ν : Type}
variable {edges edges' : List (ν × ν)}

/-- 辺の列が定める関係。 -/
def EdgeRel (edges : List (ν × ν)) (a b : ν) : Prop := (a, b) ∈ edges

/-- 有向閉路が無い。自己辺も閉路である。 -/
def Acyclic (edges : List (ν × ν)) : Prop := ∀ a, ¬ Relation.TransGen (EdgeRel edges) a a

section Saturation

variable [DecidableEq ν]

/-- 一歩先を足す。既にある頂点は足さない（`UNION`）。 -/
def expand (edges : List (ν × ν)) (seen : List ν) : List ν :=
  seen ++ ((edges.filter fun e => e.1 ∈ seen ∧ e.2 ∉ seen).map Prod.snd).dedup

/-- `n` 回だけ広げる。 -/
def saturate (edges : List (ν × ν)) : Nat → List ν → List ν
  | 0, seen => seen
  | n + 1, seen => saturate edges n (expand edges seen)

/-- `a` から辺を 0 本以上辿って着く頂点。 -/
def reachable (edges : List (ν × ν)) (a : ν) : List ν := saturate edges edges.length [a]

theorem mem_expand {seen : List ν} {b : ν} :
    b ∈ expand edges seen ↔ b ∈ seen ∨ ∃ a ∈ seen, (a, b) ∈ edges := by
  simp only [expand, List.mem_append, List.mem_dedup, List.mem_map, List.mem_filter,
    decide_eq_true_eq, Prod.exists, exists_eq_right]
  constructor
  · rintro (h | ⟨a, he, ha, -⟩)
    · exact Or.inl h
    · exact Or.inr ⟨a, ha, he⟩
  · rintro (h | ⟨a, ha, he⟩)
    · exact Or.inl h
    · by_cases hb : b ∈ seen
      · exact Or.inl hb
      · exact Or.inr ⟨a, he, ha, hb⟩

theorem mem_saturate_of_mem {b : ν} :
    ∀ {n : Nat} {seen : List ν}, b ∈ seen → b ∈ saturate edges n seen
  | 0, _, h => h
  | n + 1, _, h => mem_saturate_of_mem (n := n) (mem_expand.mpr (Or.inl h))

/-- 飽和で得た頂点は、出発点から辿れる。 -/
theorem reaches_of_mem_saturate {b : ν} :
    ∀ {n : Nat} {seen : List ν}, b ∈ saturate edges n seen →
      ∃ a ∈ seen, Relation.ReflTransGen (EdgeRel edges) a b
  | 0, _, h => ⟨b, h, .refl⟩
  | n + 1, seen, h => by
    obtain ⟨a, ha, hab⟩ := reaches_of_mem_saturate (n := n) h
    rcases mem_expand.mp ha with ha | ⟨a', ha', he⟩
    · exact ⟨a, ha, hab⟩
    · exact ⟨a', ha', .head he hab⟩

omit [DecidableEq ν] in
/-- もう広がらない集合は、辿れる頂点をすべて含む。 -/
theorem mem_of_closed {seen : List ν} (hc : ∀ a b, a ∈ seen → (a, b) ∈ edges → b ∈ seen) {a b : ν}
    (ha : a ∈ seen) (h : Relation.ReflTransGen (EdgeRel edges) a b) : b ∈ seen := by
  induction h with
  | refl => exact ha
  | tail _ he ih => exact hc _ _ ih he

/--
広げる回数の見積もり。

`seen` にまだ入っていない辺の終点の個数を測度にする。広がるたびに 1 以上減り、
0 になれば閉じている。
-/
theorem saturate_closed (edges : List (ν × ν)) :
    ∀ (n : Nat) (seen : List ν),
      ((edges.map Prod.snd).toFinset \ seen.toFinset).card ≤ n →
      ∀ a b, a ∈ saturate edges n seen → (a, b) ∈ edges → b ∈ saturate edges n seen := by
  intro n
  induction n with
  | zero =>
    intro seen hcard a b _ he
    have hempty : (edges.map Prod.snd).toFinset \ seen.toFinset = ∅ :=
      Finset.card_eq_zero.mp (Nat.le_zero.mp hcard)
    have hsub := Finset.sdiff_eq_empty_iff_subset.mp hempty
    have hb : b ∈ (edges.map Prod.snd).toFinset :=
      List.mem_toFinset.mpr (List.mem_map.mpr ⟨(a, b), he, rfl⟩)
    exact List.mem_toFinset.mp (hsub hb)
  | succ n ih =>
    intro seen hcard a b ha he
    by_cases hclosed : ∀ x y, x ∈ seen → (x, y) ∈ edges → y ∈ seen
    · -- 既に閉じているので、何度広げても同じ頂点しか出てこない
      obtain ⟨c, hc, hca⟩ := reaches_of_mem_saturate (n := n + 1) ha
      exact mem_saturate_of_mem (n := n + 1) (hclosed a b (mem_of_closed hclosed hc hca) he)
    · push Not at hclosed
      obtain ⟨x, y, hx, hxy, hy⟩ := hclosed
      refine ih (expand edges seen) ?_ a b ha he
      have hlt : ((edges.map Prod.snd).toFinset \ (expand edges seen).toFinset).card
          < ((edges.map Prod.snd).toFinset \ seen.toFinset).card := by
        refine Finset.card_lt_card (Finset.ssubset_iff_of_subset ?_ |>.mpr ⟨y, ?_, ?_⟩)
        · intro z hz
          simp only [Finset.mem_sdiff, List.mem_toFinset] at hz ⊢
          exact ⟨hz.1, fun hs => hz.2 (mem_expand.mpr (Or.inl hs))⟩
        · simp only [Finset.mem_sdiff, List.mem_toFinset]
          exact ⟨List.mem_map.mpr ⟨(x, y), hxy, rfl⟩, hy⟩
        · simp only [Finset.mem_sdiff, List.mem_toFinset, not_and, not_not]
          exact fun _ => mem_expand.mpr (Or.inr ⟨x, hx, hxy⟩)
      omega

/-- **飽和は到達可能性である。** -/
theorem mem_reachable_iff {a b : ν} :
    b ∈ reachable edges a ↔ Relation.ReflTransGen (EdgeRel edges) a b := by
  constructor
  · intro h
    obtain ⟨c, hc, hcb⟩ := reaches_of_mem_saturate h
    rw [List.mem_singleton.mp hc] at hcb
    exact hcb
  · intro h
    have hcard : ((edges.map Prod.snd).toFinset \ [a].toFinset).card ≤ edges.length := by
      calc ((edges.map Prod.snd).toFinset \ [a].toFinset).card
          ≤ (edges.map Prod.snd).toFinset.card := Finset.card_le_card Finset.sdiff_subset
        _ ≤ (edges.map Prod.snd).length := List.toFinset_card_le _
        _ = edges.length := List.length_map ..
    exact mem_of_closed (saturate_closed edges edges.length [a] hcard)
      (mem_saturate_of_mem (List.mem_singleton.mpr rfl)) h

end Saturation

/-! ## 辺を足すことと閉路 -/

/-- 辺を減らしても閉路は生まれない。 -/
theorem Acyclic.mono (h : Acyclic edges) (hsub : ∀ e ∈ edges', e ∈ edges) : Acyclic edges' :=
  fun a ha => h a (Relation.TransGen.mono (fun _ _ he => hsub _ he) _ _ ha)

/-- 一本だけ増えた辺の列の上の道は、増えた辺を通らないか、通る直前と直後に分けられる。 -/
theorem transGen_of_added {x y : ν} (hsub : ∀ e ∈ edges', e ∈ edges ∨ e = (x, y)) {a b : ν}
    (h : Relation.TransGen (EdgeRel edges') a b) :
    Relation.TransGen (EdgeRel edges) a b
      ∨ (Relation.ReflTransGen (EdgeRel edges) a x ∧ Relation.ReflTransGen (EdgeRel edges) y b) := by
  induction h with
  | single he =>
    rcases hsub _ he with he | he
    · exact Or.inl (.single he)
    · obtain ⟨rfl, rfl⟩ := Prod.mk.injEq .. ▸ he
      exact Or.inr ⟨.refl, .refl⟩
  | tail _ he ih =>
    rcases hsub _ he with he | he
    · rcases ih with ih | ⟨h1, h2⟩
      · exact Or.inl (ih.tail he)
      · exact Or.inr ⟨h1, h2.tail he⟩
    · obtain ⟨rfl, rfl⟩ := Prod.mk.injEq .. ▸ he
      rcases ih with ih | ⟨h1, _⟩
      · exact Or.inr ⟨ih.to_reflTransGen, .refl⟩
      · exact Or.inr ⟨h1, .refl⟩

/-- 終点から始点へ戻れない辺を足しても、閉路は生まれない。 -/
theorem Acyclic.add {x y : ν} (h : Acyclic edges)
    (hxy : ¬ Relation.ReflTransGen (EdgeRel edges) y x)
    (hsub : ∀ e ∈ edges', e ∈ edges ∨ e = (x, y)) : Acyclic edges' := by
  intro a ha
  rcases transGen_of_added hsub ha with ha | ⟨h1, h2⟩
  · exact h a ha
  · exact hxy (h2.trans h1)

/-- 入る辺の無い頂点から出る辺を何本足しても、閉路は生まれない。 -/
theorem Acyclic.addSource {a : ν} (h : Acyclic edges) (hin : ∀ e ∈ edges', e.2 ≠ a)
    (hsub : ∀ e ∈ edges', e ∈ edges ∨ e.1 = a) : Acyclic edges' := by
  -- `a` から始まらない道は、二歩目から先も `a` を通らない
  have hpath : ∀ {x y}, Relation.TransGen (EdgeRel edges') x y → x ≠ a →
      Relation.TransGen (EdgeRel edges) x y ∧ y ≠ a := by
    intro x y hxy hx
    induction hxy with
    | single he => exact ⟨.single ((hsub _ he).resolve_right hx), hin _ he⟩
    | tail _ he ih =>
      obtain ⟨hold, hne⟩ := ih
      exact ⟨hold.tail ((hsub _ he).resolve_right hne), hin _ he⟩
  intro x hx
  have hxa : x ≠ a := by
    obtain ⟨y, -, he⟩ := Relation.TransGen.tail'_iff.mp hx
    exact hin _ he
  exact h x (hpath hx hxa).1

/-- 終点から始点へ戻れる辺を足すと、閉路ができる。 -/
theorem not_acyclic_of_back {x y : ν} (he : (x, y) ∈ edges)
    (h : Relation.ReflTransGen (EdgeRel edges) y x) : ¬ Acyclic edges :=
  fun hac => hac x (Relation.TransGen.head' he h)

end Cassy.Infra
