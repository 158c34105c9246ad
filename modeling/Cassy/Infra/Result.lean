import Mathlib.Tactic.Common

/-!
# `Except` で書いた操作の逆算

store の操作は「検査に落ちたら `Err`、通れば結果と新しい状態」という形をしている。
`do` で書いた本体を `.ok` と等しいところから逆に読むための道具をここに置く。

* `ensure c e` — 条件 `c` が立たなければ `e` で落ちる
* `okOr o e` — `o` が `none` なら `e` で落ちる（`Option::ok_or`）

どちらも `simp` が条件の連言に直すので、操作ごとの逆算の補題は
本体を展開するだけで出る。
-/

namespace Cassy.Infra

universe u

variable {ε α β : Type u}

/-- 条件を検査する。落ちたら `e`。 -/
def ensure (c : Prop) [Decidable c] (e : ε) : Except ε PUnit :=
  if c then .ok ⟨⟩ else .error e

/-- `none` なら `e` で落ちる。 -/
def okOr (o : Option α) (e : ε) : Except ε α :=
  match o with
  | some a => .ok a
  | none => .error e

/-! ## 逆算 -/

@[simp] theorem bind_eq_ok {x : Except ε α} {f : α → Except ε β} {b : β} :
    (x >>= f) = .ok b ↔ ∃ a, x = .ok a ∧ f a = .ok b := by
  cases x <;> simp [Bind.bind, Except.bind]

@[simp] theorem pure_eq_ok {a b : α} : (pure a : Except ε α) = .ok b ↔ a = b := by
  simp [pure, Except.pure]

/-- 最後の段は落ちない。 -/
theorem bind_pure_eq_ok {x : Except ε α} {g : α → β} {b : β} :
    (x >>= fun a => pure (g a)) = .ok b ↔ ∃ a, x = .ok a ∧ g a = b := by
  simp only [bind_eq_ok, pure_eq_ok]

@[simp] theorem ensure_eq_ok {c : Prop} [Decidable c] {e : ε} {a : PUnit} :
    ensure c e = .ok a ↔ c := by
  unfold ensure
  split <;> simp_all

@[simp] theorem okOr_eq_ok {o : Option α} {e : ε} {a : α} :
    okOr o e = .ok a ↔ o = some a := by
  cases o <;> simp [okOr]

/-- 途中で落ちなかった写しは、どの要素の像も結果に含む。 -/
theorem exists_mem_of_mapM_ok {f : α → Except ε β} : ∀ {l : List α} {r : List β} {x : α},
    l.mapM f = .ok r → x ∈ l → ∃ y ∈ r, f x = .ok y
  | a :: l, r, x, h, hx => by
    rw [List.mapM_cons] at h
    simp only [bind_eq_ok, pure_eq_ok] at h
    obtain ⟨b, hb, bs, hbs, rfl⟩ := h
    rcases List.mem_cons.mp hx with rfl | hx
    · exact ⟨b, .head _, hb⟩
    · obtain ⟨y, hy, hxy⟩ := exists_mem_of_mapM_ok hbs hx
      exact ⟨y, .tail _ hy, hxy⟩

/-! ## 通る検査

検査が通ると分かっているときに、本体を先へ進める。
-/

@[simp] theorem ok_bind {a : α} {f : α → Except ε β} : (Except.ok a >>= f) = f a := rfl

theorem ensure_of {c : Prop} [Decidable c] {e : ε} (h : c) : ensure c e = .ok ⟨⟩ := if_pos h

@[simp] theorem okOr_some {a : α} {e : ε} : okOr (some a) e = .ok a := rfl

theorem exists_ok_ite {c : Prop} [Decidable c] {x y : Except ε α} (hx : ∃ a, x = .ok a)
    (hy : ∃ a, y = .ok a) : ∃ a, (if c then x else y) = .ok a := by
  split
  · exact hx
  · exact hy

/-! ## transaction

`BEGIN IMMEDIATE` の本体は「結果と新しい状態」を返すか落ちる。落ちたときは
rollback されるので、状態は元のままである。
-/

section Transaction

variable {σ : Type u}

/-- transaction を実行する。`Ok` なら commit、`Err` なら rollback。 -/
def commit (s : σ) (body : Except ε (α × σ)) : Except ε α × σ :=
  match body with
  | .ok (a, s') => (.ok a, s')
  | .error e => (.error e, s)

/-- 結果だけを写す。操作ごとに違う結果の型を一つに揃えるのに使う。 -/
def mapResult (f : α → β) (body : Except ε (α × σ)) : Except ε (β × σ) :=
  body.map fun r => (f r.1, r.2)

@[simp] theorem mapResult_eq_ok {f : α → β} {body : Except ε (α × σ)} {b : β} {s' : σ} :
    mapResult f body = .ok (b, s') ↔ ∃ a, body = .ok (a, s') ∧ f a = b := by
  cases body with
  | error e => simp [mapResult, Except.map]
  | ok r =>
    obtain ⟨a, s⟩ := r
    simp only [mapResult, Except.map, Except.ok.injEq, Prod.mk.injEq]
    constructor
    · rintro ⟨rfl, rfl⟩
      exact ⟨a, ⟨rfl, rfl⟩, rfl⟩
    · rintro ⟨a', ⟨rfl, rfl⟩, rfl⟩
      exact ⟨rfl, rfl⟩

@[simp] theorem commit_ok {s s' : σ} {a : α} :
    commit s (.ok (a, s') : Except ε (α × σ)) = (.ok a, s') := rfl

@[simp] theorem commit_error {s : σ} {e : ε} :
    commit s (.error e : Except ε (α × σ)) = (.error e, s) := rfl

/-- commit した結果が `Ok` なら、本体がその結果と状態を返している。 -/
theorem commit_fst_ok {s : σ} {body : Except ε (α × σ)} {a : α}
    (h : (commit s body).1 = .ok a) : body = .ok (a, (commit s body).2) := by
  cases body with
  | error e => simp at h
  | ok r =>
    obtain ⟨a', s'⟩ := r
    simp only [commit_ok, Except.ok.injEq] at h
    rw [commit_ok, h]

/-- `Err` で終わった transaction は状態を変えない。 -/
theorem commit_snd_of_error {s : σ} {body : Except ε (α × σ)} {e : ε}
    (h : (commit s body).1 = .error e) : (commit s body).2 = s := by
  cases body with
  | error e => rfl
  | ok r => simp [commit] at h

/--
commit の後の状態についての場合分け。

状態が変わっていないか、本体が `Ok` を返していてその状態になっているかのどちらかである。
不変条件の証明はこれで「成功した場合」だけを見ればよくなる。
-/
theorem commit_snd_cases (s : σ) (body : Except ε (α × σ)) :
    (commit s body).2 = s ∨ ∃ a s', body = .ok (a, s') ∧ (commit s body).2 = s' := by
  cases body with
  | error e => exact Or.inl rfl
  | ok r => exact Or.inr ⟨r.1, r.2, rfl, rfl⟩

end Transaction

end Cassy.Infra
