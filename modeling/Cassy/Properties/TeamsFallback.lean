import Cassy.Infra.Paragraphs
import Cassy.Prompt.Abandonment

/-!
# 二つの測り方

hook が見せられる本文かを、名指しを渡す側は Rust の `trim` と文字数で、本文を渡し直す側は SQLite の `trim` と `length` で
測る。SQLite の `trim` は四つの文字しか落とさず、`length` は最初の NUL で止まる。二つの答が同じになる条件を必要十分な
形で言う。
-/

namespace Cassy

open Infra

theorem isWhitespace_of_isSqlBlank {c : Char} (h : isSqlBlank c = true) : isWhitespace c = true := by
  unfold isSqlBlank at h
  simp only [Bool.or_eq_true, decide_eq_true_eq] at h
  rcases h with ((rfl | rfl) | rfl) | rfl
  · decide
  · decide
  · decide
  · decide

theorem trimStart_dropWhile_sqlBlank (t : Text) : trimStart (t.dropWhile isSqlBlank) = trimStart t := by
  induction t with
  | nil => rfl
  | cons c t ih =>
    by_cases hc : isSqlBlank c = true
    · rw [List.dropWhile_cons_of_pos hc, ih, trimStart, trimStart,
        List.dropWhile_cons_of_pos (isWhitespace_of_isSqlBlank hc)]
    · rw [List.dropWhile_cons_of_neg hc]

/-- SQLite の落とした後でも、Rust の落とした結果は同じである。 -/
theorem trim_sqlTrim (t : Text) : trim (sqlTrim t) = trim t := by
  have hend : trim (sqlTrim t) = trim (t.dropWhile isSqlBlank) :=
    trim_congr (trimEnd_trimEndMatches (fun _ => isWhitespace_of_isSqlBlank) _)
  rw [hend, trim, trimStart_dropWhile_sqlBlank, trim]

theorem length_trim_le_sqlTrim (t : Text) : (trim t).length ≤ (sqlTrim t).length := by
  rw [← trim_sqlTrim]
  exact length_trim_le _

/-- 最初の NUL までの長さ。 -/
theorem sqlLength_le_iff {n : Nat} : ∀ {t : Text},
    sqlLength t ≤ n ↔ nulChar ∈ t.take (n + 1) ∨ t.length ≤ n
  | [] => by simp [sqlLength]
  | c :: t => by
    unfold sqlLength
    by_cases hc : c = nulChar
    · rw [List.takeWhile_cons_of_neg (by simp [hc]), List.take_succ_cons]
      exact iff_of_true (Nat.zero_le n) (.inl (by rw [hc]; exact List.mem_cons_self))
    · rw [List.takeWhile_cons_of_pos (by simpa using hc), List.take_succ_cons, List.mem_cons,
        List.length_cons, List.length_cons]
      have hne : ¬ nulChar = c := fun h => hc h.symm
      cases n with
      | zero => simp [hne]
      | succ n =>
        have ih := @sqlLength_le_iff n t
        unfold sqlLength at ih
        rw [Nat.succ_le_succ_iff, Nat.succ_le_succ_iff, ih]
        simp [hne]

/-- Rust の `trim` だけが落とす空白の数。 -/
def hiddenBlanks (body : Text) : Nat := (sqlTrim body).length - (trim body).length

/-- 頭の 4601 文字に NUL のある本文は Rust でも枠に収まる。NUL の無い本文は、Rust だけが落とす空白で枠を越えない。 -/
def MeasuresAgree (body : Text) : Prop :=
  if nulChar ∈ (sqlTrim body).take 4601 then (trim body).length ≤ 4600
  else 4600 < (trim body).length ∨ (trim body).length + hiddenBlanks body ≤ 4600

instance (body : Text) : Decidable (MeasuresAgree body) := by
  unfold MeasuresAgree
  infer_instance

theorem sqlFitsHookSurface_iff {body : Text} :
    sqlFitsHookSurface body = true ↔ sqlLength (sqlTrim body) ≤ 4600 := by
  unfold sqlFitsHookSurface hookSurfaceBudgetChars hookSurfaceRowOverheadChars
  rw [decide_eq_true_eq]
  omega

theorem fitsHookSurface_iff_trim {body : Text} :
    fitsHookSurface body = true ↔ (trim body).length ≤ 4600 := by
  unfold fitsHookSurface hookSurfaceCost hookSurfaceBudgetChars hookSurfaceRowOverheadChars
  rw [decide_eq_true_eq]
  omega

theorem measuresAgree_iff {body : Text} :
    MeasuresAgree body ↔ (sqlFitsHookSurface body = true ↔ fitsHookSurface body = true) := by
  have hle := length_trim_le_sqlTrim body
  rw [sqlFitsHookSurface_iff, fitsHookSurface_iff_trim, sqlLength_le_iff]
  unfold MeasuresAgree hiddenBlanks
  by_cases hnul : nulChar ∈ (sqlTrim body).take 4601
  · rw [if_pos hnul]
    exact ⟨fun h => iff_of_true (.inl hnul) h, fun h => h.mp (.inl hnul)⟩
  · rw [if_neg hnul, or_iff_right hnul]
    omega

/-- 名指しで渡した、まだ見せられていない伝言は、二つの測り方が同じ答になるとき、渡し直す相手に入る。 -/
theorem mem_pointerPairs_of_fits {db : PromptDb} {julianday : Time → Int} {session : String}
    {recipients : List String} {after before : Time} {r : PromptRow} {x : SeenRow}
    (hr : r ∈ db.rows) (hx : x ∈ db.seen.rows)
    (hunread : db.pointerUnread julianday session recipients after before r x = true)
    (hfits : fitsHookSurface r.prompt.toList = true) (hagree : MeasuresAgree r.prompt.toList) :
    (r, x.recipient) ∈ db.pointerPairs julianday session recipients after before := by
  have hsql : sqlFitsHookSurface r.prompt.toList = true := (measuresAgree_iff.mp hagree).mpr hfits
  refine List.mem_flatMap.mpr ⟨r, hr, List.mem_map.mpr ⟨x, List.mem_filter.mpr ⟨hx, ?_⟩, rfl⟩⟩
  rw [hunread, hsql, Bool.and_self]

/--
本文を渡し直す側の測り方が名指しを渡す側と同じ答になる条件。

条件を満たす本文の、枠に収まるので名指しで渡した伝言は、渡し直す相手に入る。
-/
theorem sql_fits_iff (body : Text) :
    ((sqlFitsHookSurface body = true ↔ fitsHookSurface body = true) ↔ MeasuresAgree body)
      ∧ (MeasuresAgree body → fitsHookSurface body = true →
        ∀ (db : PromptDb) (julianday : Time → Int) (session : String) (recipients : List String)
          (after before : Time), ∀ r ∈ db.rows, ∀ x ∈ db.seen.rows, r.prompt.toList = body →
          db.pointerUnread julianday session recipients after before r x = true →
          (r, x.recipient) ∈ db.pointerPairs julianday session recipients after before) := by
  refine ⟨measuresAgree_iff.symm, ?_⟩
  rintro hagree hfits db julianday session recipients after before r hr x hx rfl hunread
  exact mem_pointerPairs_of_fits hr hx hunread hfits hagree

/-- 末尾の改行しない空白は Rust だけが落とし、NUL は SQL だけが数えない。 -/
theorem measures_differ :
    sqlFitsHookSurface (List.replicate 4600 'a' ++ [Char.ofNat 0xA0]) = false
      ∧ fitsHookSurface (List.replicate 4600 'a' ++ [Char.ofNat 0xA0]) = true
      ∧ sqlFitsHookSurface (nulChar :: List.replicate 4600 'a') = true
      ∧ fitsHookSurface (nulChar :: List.replicate 4600 'a') = false := by
  decide +kernel

end Cassy
