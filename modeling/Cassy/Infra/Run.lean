import Mathlib.Data.List.Basic
import Mathlib.Tactic.Common

/-!
# 実行と履歴

状態の上の操作を順に実行したものを扱う。`step s a` は操作 `a` の結果と次の状態を返す。

* `run` — 実行し終えた状態
* `trace` — 各操作について、直前の状態・操作・結果を並べた履歴
* `Guarded g` — どの操作も、その直前の状態で条件 `g` を満たすこと

証明の道具は二つである。

1. `run_invariant` — 一歩で保たれる性質は実行の全体で保たれる（履歴との間の性質は `trace_invariant`）
2. `trace_pairwise` — ある出来事が残した痕跡が以後の操作で消えず、
   痕跡があれば後の出来事との間に関係が立つなら、その関係は履歴の任意の二つの間に立つ

「高々一度しか起きない」も「値が増え続ける」も後者の形に書ける。
-/

namespace Cassy.Infra

variable {σ α β : Type}

/-- 履歴の一項。操作の直前の状態と、操作と、その結果。 -/
structure Event (σ α β : Type) where
  before : σ
  op : α
  result : β

/-- 操作を順に実行した後の状態。 -/
def run (step : σ → α → β × σ) : σ → List α → σ
  | s, [] => s
  | s, a :: as => run step (step s a).2 as

/-- 操作を順に実行した履歴。 -/
def trace (step : σ → α → β × σ) : σ → List α → List (Event σ α β)
  | _, [] => []
  | s, a :: as => ⟨s, a, (step s a).1⟩ :: trace step (step s a).2 as

/-- どの操作も、その直前の状態で条件を満たす。 -/
def Guarded (step : σ → α → β × σ) (g : σ → α → Prop) : σ → List α → Prop
  | _, [] => True
  | s, a :: as => g s a ∧ Guarded step g (step s a).2 as

variable {step : σ → α → β × σ} {g : σ → α → Prop} {I : σ → Prop}

/-- 条件が決定できるなら、実行の全体についても決定できる。 -/
def decidableGuarded [∀ s a, Decidable (g s a)] :
    ∀ (s : σ) (as : List α), Decidable (Guarded step g s as)
  | _, [] => .isTrue trivial
  | s, a :: as =>
    have := decidableGuarded (step s a).2 as
    inferInstanceAs (Decidable (g s a ∧ Guarded step g (step s a).2 as))

instance [∀ s a, Decidable (g s a)] (s : σ) (as : List α) : Decidable (Guarded step g s as) :=
  decidableGuarded s as

@[simp] theorem run_nil (s : σ) : run step s [] = s := rfl

@[simp] theorem run_cons (s : σ) (a : α) (as : List α) :
    run step s (a :: as) = run step (step s a).2 as := rfl

theorem run_append : ∀ (s : σ) (as bs : List α),
    run step s (as ++ bs) = run step (run step s as) bs
  | _, [], _ => rfl
  | s, a :: as, bs => run_append (step s a).2 as bs

theorem trace_append : ∀ (s : σ) (as bs : List α),
    trace step s (as ++ bs) = trace step s as ++ trace step (run step s as) bs
  | _, [], _ => rfl
  | s, a :: as, bs => by
    rw [List.cons_append, trace, trace, trace_append, List.cons_append, run_cons]

@[simp] theorem guarded_nil (s : σ) : Guarded step g s [] := trivial

theorem guarded_append : ∀ {s : σ} {as bs : List α},
    Guarded step g s (as ++ bs) ↔ Guarded step g s as ∧ Guarded step g (run step s as) bs
  | _, [], _ => by simp
  | s, a :: as, bs => by
    rw [List.cons_append, Guarded, Guarded, guarded_append, run_cons, and_assoc]

theorem Guarded.imp {g' : σ → α → Prop} (h : ∀ s a, g s a → g' s a) :
    ∀ {s : σ} {as : List α}, Guarded step g s as → Guarded step g' s as
  | _, [], _ => trivial
  | s, a :: _, hg => ⟨h s a hg.1, hg.2.imp h⟩

/-- 条件が恒に立つなら、どの実行も `Guarded` である。 -/
theorem guarded_of_forall (h : ∀ s a, g s a) : ∀ (s : σ) (as : List α), Guarded step g s as
  | _, [] => trivial
  | s, a :: as => ⟨h s a, guarded_of_forall h (step s a).2 as⟩

/-- 操作だけの条件を、状態の条件に添える。 -/
theorem Guarded.and_all {p : α → Bool} : ∀ {s : σ} {as : List α}, Guarded step g s as →
    as.all p = true → Guarded step (fun s a => p a = true ∧ g s a) s as
  | _, [], _, _ => trivial
  | s, a :: as, hg, hp => by
    rw [List.all_cons, Bool.and_eq_true] at hp
    exact ⟨⟨hp.1, hg.1⟩, hg.2.and_all hp.2⟩

/-- 一歩で保たれる性質は、実行の全体で保たれる。 -/
theorem run_invariant (hstep : ∀ s a, I s → g s a → I (step s a).2) {s : σ} {as : List α}
    (hi : I s) (hg : Guarded step g s as) : I (run step s as) := by
  induction as generalizing s with
  | nil => exact hi
  | cons a as ih => exact ih (hstep s a hi hg.1) hg.2

/-- 条件の要らない場合。 -/
theorem run_invariant' (hstep : ∀ s a, I s → I (step s a).2) {s : σ} {as : List α} (hi : I s) :
    I (run step s as) :=
  run_invariant (fun s a h _ => hstep s a h) hi (guarded_of_forall (fun _ _ => trivial) s as)

/-- 途中のどの状態でも保たれる。 -/
theorem run_invariant_prefix (hstep : ∀ s a, I s → g s a → I (step s a).2) {s : σ}
    {as pre : List α} (hi : I s) (hg : Guarded step g s as) (hpre : pre <+: as) :
    I (run step s pre) := by
  obtain ⟨post, rfl⟩ := hpre
  exact run_invariant hstep hi (guarded_append.mp hg).1

/-- 履歴と状態の間の性質も、一歩で保たれるなら、実行の全体で保たれる。 -/
theorem trace_invariant {K : List (Event σ α β) → σ → Prop}
    (hstep : ∀ log s a, K log s → K (log ++ [⟨s, a, (step s a).1⟩]) (step s a).2) {log : List (Event σ α β)}
    {s : σ} (hk : K log s) (as : List α) : K (log ++ trace step s as) (run step s as) := by
  induction as generalizing log s with
  | nil =>
    rw [trace, List.append_nil]
    exact hk
  | cons a as ih =>
    rw [trace, List.append_cons, run_cons]
    exact ih (hstep log s a hk)

/-- 履歴の項は、そこまでの実行が作った状態での一歩である。 -/
theorem exists_split_of_mem_trace : ∀ {s : σ} {as : List α} {e : Event σ α β},
    e ∈ trace step s as →
    ∃ pre post, as = pre ++ e.op :: post ∧ e.before = run step s pre
      ∧ e.result = (step e.before e.op).1
  | _, [], _, h => by simp [trace] at h
  | s, a :: as, e, h => by
    rw [trace, List.mem_cons] at h
    rcases h with rfl | h
    · exact ⟨[], as, rfl, rfl, rfl⟩
    · obtain ⟨pre, post, has, hb, hr⟩ := exists_split_of_mem_trace h
      exact ⟨a :: pre, post, by rw [has]; rfl, hb, hr⟩

/-- どの一歩も射影を変えないなら、畳み込みの全体も変えない。 -/
theorem foldl_fixed {γ : Type} {f : σ → α → σ} {p : σ → γ} (h : ∀ s a, p (f s a) = p s) :
    ∀ (l : List α) (s : σ), p (l.foldl f s) = p s
  | [], _ => rfl
  | a :: l, s => (foldl_fixed h l (f s a)).trans (h s a)

/-- 途中で止まりうる畳み込みでも、一歩で保たれる性質は、最後まで進めば保たれる。 -/
theorem foldlM_invariant {f : σ → α → Option σ} (hstep : ∀ {s a s'}, I s → f s a = some s' → I s') :
    ∀ {l : List α} {s s' : σ}, I s → l.foldlM f s = some s' → I s'
  | [], _, _, hi, h => by
    rw [List.foldlM_nil] at h
    exact Option.some.inj h ▸ hi
  | a :: l, s, s', hi, h => by
    rw [List.foldlM_cons] at h
    obtain ⟨s₁, hs₁, hl⟩ := Option.bind_eq_some_iff.mp h
    exact foldlM_invariant hstep (hstep hi hs₁) hl

/-- 途中で止まりうる写しの結果は、どれもある要素の像である。 -/
theorem exists_of_mem_mapM {γ : Type} {f : α → Option γ} : ∀ {l : List α} {r : List γ} {y : γ},
    l.mapM f = some r → y ∈ r → ∃ x ∈ l, f x = some y
  | [], r, y, h, hy => by
    rw [List.mapM_nil] at h
    rw [← Option.some.inj h] at hy
    cases hy
  | a :: l, r, y, h, hy => by
    rw [List.mapM_cons] at h
    obtain ⟨z, hz, h⟩ := Option.bind_eq_some_iff.mp h
    obtain ⟨zs, hzs, h⟩ := Option.bind_eq_some_iff.mp h
    rw [← Option.some.inj h] at hy
    rcases List.mem_cons.mp hy with rfl | hy
    · exact ⟨a, .head _, hz⟩
    · obtain ⟨x, hx, hxy⟩ := exists_of_mem_mapM hzs hy
      exact ⟨x, .tail _ hx, hxy⟩

/-- 途中で止まらなかった写しは、どの要素の像も結果に含む。 -/
theorem exists_mem_of_mapM {γ : Type} {f : α → Option γ} : ∀ {l : List α} {r : List γ} {x : α},
    l.mapM f = some r → x ∈ l → ∃ y ∈ r, f x = some y
  | a :: l, r, x, h, hx => by
    rw [List.mapM_cons] at h
    obtain ⟨z, hz, h⟩ := Option.bind_eq_some_iff.mp h
    obtain ⟨zs, hzs, h⟩ := Option.bind_eq_some_iff.mp h
    rw [← Option.some.inj h]
    rcases List.mem_cons.mp hx with rfl | hx
    · exact ⟨z, .head _, hz⟩
    · obtain ⟨y, hy, hxy⟩ := exists_mem_of_mapM hzs hx
      exact ⟨y, .tail _ hy, hxy⟩

/-- 要素ごとに止まるかが決まる写しは、どの要素でも止まらないときに、全体を写す。 -/
theorem mapM_ite {γ : Type} {p : α → Bool} {f : α → γ} : ∀ l : List α,
    (l.mapM fun x => if p x then some (f x) else none) = if l.all p then some (l.map f) else none
  | [] => rfl
  | a :: l => by
    rw [List.mapM_cons, mapM_ite l, List.all_cons, List.map_cons]
    cases p a <;> cases l.all p <;> rfl

section Trace

variable {P : Event σ α β → σ → Prop} {R : Event σ α β → Event σ α β → Prop}

/-- 痕跡が残っていれば、後のどの出来事とも関係が立つ。 -/
theorem trace_related {e : Event σ α β} (hI : ∀ s a, I s → g s a → I (step s a).2)
    (hkeep : ∀ s a, I s → g s a → P e s → P e (step s a).2)
    (hrel : ∀ s a, I s → g s a → P e s → R e ⟨s, a, (step s a).1⟩) :
    ∀ {s : σ} {as : List α}, I s → P e s → Guarded step g s as →
      ∀ e' ∈ trace step s as, R e e'
  | _, [], _, _, _, _, h => by simp [trace] at h
  | s, a :: as, hi, hp, hg, e', h => by
    rw [trace, List.mem_cons] at h
    rcases h with rfl | h
    · exact hrel s a hi hg.1 hp
    · exact trace_related hI hkeep hrel (hI s a hi hg.1) (hkeep s a hi hg.1 hp) hg.2 e' h

/--
履歴の任意の二つの間に関係が立つ。

`hnew` が出来事の残す痕跡、`hkeep` がそれが消えないこと、`hrel` が痕跡から関係を引くことで
ある。先頭の出来事について `trace_related` を使い、残りは帰納法による。
-/
theorem trace_pairwise (hI : ∀ s a, I s → g s a → I (step s a).2)
    (hnew : ∀ s a, I s → g s a → P ⟨s, a, (step s a).1⟩ (step s a).2)
    (hkeep : ∀ e s a, I s → g s a → P e s → P e (step s a).2)
    (hrel : ∀ e s a, I s → g s a → P e s → R e ⟨s, a, (step s a).1⟩) :
    ∀ {s : σ} {as : List α}, I s → Guarded step g s as → (trace step s as).Pairwise R
  | _, [], _, _ => List.Pairwise.nil
  | s, a :: as, hi, hg => by
    rw [trace, List.pairwise_cons]
    have hi' := hI s a hi hg.1
    exact ⟨trace_related hI (hkeep _) (hrel _) hi' (hnew s a hi hg.1) hg.2,
      trace_pairwise hI hnew hkeep hrel hi' hg.2⟩

end Trace

end Cassy.Infra
