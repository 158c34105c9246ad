import Cassy.Infra.Codec
import Cassy.Infra.Result

/-!
# 落ちる計算

`usize` の足し算と引き算は範囲を越えると落ち、slice は範囲を外れると落ちる。落ちることを誤りの一つとして書けば、本体は
元の `do` のまま残る。

* `Fault` — 落ちたか、本体の誤りか
* `usizeAdd`・`usizeSub`・`usizeSlice` — 落ちるかもしれない計算
* `Iterates` — 反復子の `next` を、`None` が出るまで呼ぶ
* `takeWhile` — `Iterator::take_while`
-/

namespace Cassy.Infra

/-- 失敗。 -/
inductive Fault (ε : Type) where
  | panic
  | error (e : ε)
  deriving DecidableEq, Repr

section Arithmetic

variable {ε : Type}

def usizeAdd (a b : Nat) : Except (Fault ε) Nat :=
  if a + b < 2 ^ 64 then .ok (a + b) else .error .panic

def usizeSub (a b : Nat) : Except (Fault ε) Nat :=
  if b ≤ a then .ok (a - b) else .error .panic

def usizeSlice (data : Bytes) (a b : Nat) : Except (Fault ε) Bytes :=
  if a ≤ b ∧ b ≤ data.length then .ok (slice data a b) else .error .panic

/-- 誤りは誤りのまま運ぶ。 -/
def lift {α : Type} (x : Except ε α) : Except (Fault ε) α := x.mapError .error

/-- `w` byte の数は `256 ^ w` より小さい。 -/
theorem ofLe_lt (bs : Bytes) : ofLe bs < 256 ^ bs.length := by
  induction bs with
  | nil => exact Nat.one_pos
  | cons b bs ih =>
    have hb : b.toNat < 256 := b.toNat_lt
    rw [ofLe, List.length_cons, Nat.pow_succ]
    omega

theorem ofLe_slice_lt (data : Bytes) (a : Nat) : ofLe (slice data a (a + 4)) < 2 ^ 32 := by
  have hlen : (slice data a (a + 4)).length ≤ 4 := by
    rw [slice, List.length_take, Nat.add_sub_cancel_left]
    exact Nat.min_le_left _ _
  exact Nat.lt_of_lt_of_le (ofLe_lt _) (Nat.pow_le_pow_right (by decide) hlen)

theorem usizeAdd_of_lt {a b : Nat} (h : a + b < 2 ^ 64) :
    (usizeAdd a b : Except (Fault ε) Nat) = .ok (a + b) := if_pos h

theorem usizeAdd_of_not_lt {a b : Nat} (h : ¬ a + b < 2 ^ 64) :
    (usizeAdd a b : Except (Fault ε) Nat) = .error .panic := if_neg h

theorem usizeSub_of_le {a b : Nat} (h : b ≤ a) :
    (usizeSub a b : Except (Fault ε) Nat) = .ok (a - b) := if_pos h

theorem usizeSlice_of_le {data : Bytes} {a b : Nat} (h : a ≤ b) (h' : b ≤ data.length) :
    (usizeSlice data a b : Except (Fault ε) Bytes) = .ok (slice data a b) := if_pos ⟨h, h'⟩

theorem lift_ne_panic {α : Type} (x : Except ε α) : lift x ≠ .error .panic := by
  cases x <;> exact nofun

/-- 検査の後の計算が対応すれば、検査からの計算が対応する。 -/
theorem ensure_lift_bind {β : Type} {c : Prop} [Decidable c] {e : ε} {f : Except (Fault ε) β}
    {g : Except ε β} (h : c → f = lift g) :
    (ensure c (Fault.error e) >>= fun _ => f) = lift (ensure c e >>= fun _ => g) := by
  unfold ensure
  split
  · next hc => exact h hc
  · rfl

theorem okOr_lift_bind {α β : Type} {o : Option α} {e : ε} {f : α → Except (Fault ε) β}
    {g : α → Except ε β} (h : ∀ a, o = some a → f a = lift (g a)) :
    (okOr o (Fault.error e) >>= f) = lift (okOr o e >>= g) := by
  cases o with
  | none => rfl
  | some a => exact h a rfl

theorem lift_bind_congr {α β : Type} {x : Except ε α} {f : α → Except (Fault ε) β}
    {g : α → Except ε β} (h : ∀ a, x = .ok a → f a = lift (g a)) :
    (lift x >>= f) = lift (x >>= g) := by
  cases x with
  | error e => rfl
  | ok a => exact h a rfl

/-- 一つでも落ちる要素があり、他に誤りが無いなら、並び全体が落ちる。 -/
theorem mapM_of_panic {α β : Type} {f : α → Except (Fault ε) β} {l : List α}
    (h : ∀ x ∈ l, f x = .error .panic ∨ ∃ y, f x = .ok y) {x : α} (hx : x ∈ l)
    (hpanic : f x = .error .panic) : l.mapM f = .error .panic := by
  induction l with
  | nil => cases hx
  | cons y l ih =>
    rw [List.mapM_cons]
    rcases h y List.mem_cons_self with hy | ⟨z, hz⟩
    · rw [hy]
      rfl
    · have hmem : x ∈ l := by
        rcases List.mem_cons.mp hx with rfl | hmem
        · rw [hpanic] at hz
          cases hz
        · exact hmem
      rw [hz, ok_bind, ih (fun w hw => h w (List.mem_cons_of_mem y hw)) hmem]
      rfl

/-- 全ての要素が落ちないなら、並び全体も落ちない。 -/
theorem mapM_of_forall_ok {α β : Type} {f : α → Except (Fault ε) β} {g : α → β} {l : List α}
    (h : ∀ x ∈ l, f x = .ok (g x)) : l.mapM f = .ok (l.map g) := by
  induction l with
  | nil => rfl
  | cons x l ih =>
    rw [List.mapM_cons, h x List.mem_cons_self, ok_bind, ih fun y hy => h y (List.mem_cons_of_mem x hy)]
    rfl

end Arithmetic

/-! ## 反復 -/

section Iteration

variable {ε σ ι : Type}

/-- 終わりまで呼んで、出たもの。 -/
inductive Iterates (next : σ → Except (Fault ε) (Option ι × σ)) : σ → List ι → Prop where
  | done {s s' : σ} (h : next s = .ok (none, s')) : Iterates next s []
  | more {s s' : σ} {x : ι} {xs : List ι} (h : next s = .ok (some x, s')) (hrest : Iterates next s' xs) :
    Iterates next s (x :: xs)

/-- `TakeWhile`。 -/
structure TakeWhile (σ : Type) where
  iter : σ
  flag : Bool := false

/-- `TakeWhile::next`。条件を満たさないものが出たら、後はもう何も出さない。 -/
def TakeWhile.next (next : σ → Except (Fault ε) (Option ι × σ)) (p : ι → Bool) (s : TakeWhile σ) :
    Except (Fault ε) (Option ι × TakeWhile σ) :=
  if s.flag then .ok (none, s)
  else do
    let r ← next s.iter
    match r.1 with
    | none => .ok (none, { s with iter := r.2 })
    | some x => if p x then .ok (some x, { s with iter := r.2 }) else .ok (none, ⟨r.2, true⟩)

variable {next : σ → Except (Fault ε) (Option ι × σ)}

/-- 同じものを出し続ける反復子は終わらない。 -/
theorem not_iterates_of_loop {s : σ} {x : ι} (h : next s = .ok (some x, s)) (xs : List ι) :
    ¬ Iterates next s xs := by
  intro hruns
  induction xs with
  | nil =>
    cases hruns with
    | done hdone =>
      rw [h] at hdone
      cases hdone
  | cons y ys ih =>
    cases hruns with
    | more hmore hrest =>
      rw [h] at hmore
      cases hmore
      exact ih hrest

/-- 一つ出した後の反復。 -/
theorem Iterates.of_next {s s' : σ} {x : ι} {xs : List ι} (hruns : Iterates next s xs)
    (h : next s = .ok (some x, s')) : ∃ ys, xs = x :: ys ∧ Iterates next s' ys := by
  cases hruns with
  | done hdone =>
    rw [h] at hdone
    cases hdone
  | more hmore hrest =>
    rw [h] at hmore
    cases hmore
    exact ⟨_, rfl, hrest⟩

/-- `n` 回呼んだ後の反復子。 -/
def advanceBy (next : σ → Except (Fault ε) (Option ι × σ)) : Nat → σ → Except (Fault ε) σ
  | 0, s => .ok s
  | n + 1, s => do
    let r ← next s
    advanceBy next n r.2

/-- 一歩が不変条件を保って落ちないなら、何度呼んでも落ちない。 -/
theorem advanceBy_ne_panic {I : σ → Prop} (hstep : ∀ s, I s → ∃ r, next s = .ok r ∧ I r.2) :
    ∀ (n : Nat) (s : σ), I s → ∃ s', advanceBy next n s = .ok s' ∧ I s' := by
  intro n
  induction n with
  | zero =>
    intro s hs
    exact ⟨s, rfl, hs⟩
  | succ n ih =>
    intro s hs
    obtain ⟨r, hr, hI⟩ := hstep s hs
    obtain ⟨s', hs', hI'⟩ := ih r.2 hI
    refine ⟨s', ?_, hI'⟩
    rw [advanceBy, hr, ok_bind]
    exact hs'

variable {p : ι → Bool}

theorem TakeWhile.next_none {s s' : σ} (h : next s = .ok (none, s')) :
    TakeWhile.next next p ⟨s, false⟩ = .ok (none, ⟨s', false⟩) := by
  rw [TakeWhile.next, if_neg Bool.false_ne_true, h]
  rfl

theorem TakeWhile.next_some {s s' : σ} {x : ι} (h : next s = .ok (some x, s')) (hp : p x = true) :
    TakeWhile.next next p ⟨s, false⟩ = .ok (some x, ⟨s', false⟩) := by
  rw [TakeWhile.next, if_neg Bool.false_ne_true, h, ok_bind]
  exact if_pos hp

theorem TakeWhile.next_stop {s s' : σ} {x : ι} (h : next s = .ok (some x, s')) (hp : p x = false) :
    TakeWhile.next next p ⟨s, false⟩ = .ok (none, ⟨s', true⟩) := by
  rw [TakeWhile.next, if_neg Bool.false_ne_true, h, ok_bind]
  exact if_neg (by rw [hp]; exact Bool.false_ne_true)

/-- 全体の反復が終わるなら、条件を満たす前半だけの反復も終わる。 -/
theorem Iterates.takeWhile {s : σ} {xs : List ι} (h : Iterates next s xs) :
    Iterates (TakeWhile.next next p) ⟨s, false⟩ (xs.takeWhile p) := by
  induction h with
  | done h => exact .done (TakeWhile.next_none h)
  | @more s s' x xs h _ ih =>
    cases hp : p x with
    | false =>
      rw [List.takeWhile_cons_of_neg (by rw [hp]; exact Bool.false_ne_true)]
      exact .done (TakeWhile.next_stop h hp)
    | true =>
      rw [List.takeWhile_cons_of_pos hp]
      exact .more (TakeWhile.next_some h hp) ih

/-- 何も止めない `take_while` は、元の反復と同じである。 -/
theorem iterates_takeWhile_true {s : σ} {xs : List ι} :
    Iterates (TakeWhile.next next fun _ => true) ⟨s, false⟩ xs ↔ Iterates next s xs := by
  constructor
  · intro h
    induction xs generalizing s with
    | nil =>
      cases h with
      | @done _ t hdone =>
        cases hnext : next s with
        | error e =>
          rw [TakeWhile.next, if_neg Bool.false_ne_true, hnext] at hdone
          cases hdone
        | ok r =>
          obtain ⟨o, s'⟩ := r
          cases o with
          | none => exact .done hnext
          | some x =>
            rw [TakeWhile.next_some hnext rfl] at hdone
            cases hdone
    | cons y ys ih =>
      cases h with
      | @more _ t _ _ hmore hrest =>
        cases hnext : next s with
        | error e =>
          rw [TakeWhile.next, if_neg Bool.false_ne_true, hnext] at hmore
          cases hmore
        | ok r =>
          obtain ⟨o, s'⟩ := r
          cases o with
          | none =>
            rw [TakeWhile.next_none hnext] at hmore
            cases hmore
          | some x =>
            rw [TakeWhile.next_some hnext rfl] at hmore
            cases hmore
            exact .more hnext (ih hrest)
  · intro h
    have htake := @Iterates.takeWhile _ _ _ _ (fun _ => true) s xs h
    have hself : xs.takeWhile (fun _ => true) = xs := by
      have happend := @List.takeWhile_append_of_pos _ (fun _ => true) xs [] fun _ _ => rfl
      rwa [List.append_nil, List.takeWhile_nil, List.append_nil] at happend
    rwa [hself] at htake

end Iteration

end Cassy.Infra
