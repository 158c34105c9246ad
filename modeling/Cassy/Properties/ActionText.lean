import Cassy.Infra.Lines
import Cassy.Prompt.WorkerActions

/-!
# 起こさない印の読み方

* `quiet_append_blank_line` — 印は、最初の空行より前だけを読む
* `quiet_promptForStorage` — 区切りを伏せても、印の読み方は変わらない
-/

namespace Cassy

open Infra

theorem newline_not_mem_marker : '\n' ∉ quietMessageMarker := by decide

theorem newline_not_mem_reply : '\n' ∉ "[CAS reply:".toList := by decide

theorem isSome_stripPrefix {pat t : Text} : (stripPrefix pat t).isSome = pat.isPrefixOf t := by
  unfold stripPrefix
  cases pat.isPrefixOf t <;> rfl

theorem isSome_stripQuiet (rest : Text) :
    (stripQuiet rest).isSome = quietMessageMarker.isPrefixOf rest := by
  rw [stripQuiet, Option.isSome_map, isSome_stripPrefix]

/-- 印のある行は、印で始まるか、返事の見出しの次の行が印で始まる。 -/
theorem quiet_eq (text : Text) :
    (splitQuietMarker text).1
      = (quietMessageMarker.isPrefixOf text
        || ("[CAS reply:".toList.isPrefixOf text
          && (splitOnce ['\n'] text).any fun x => quietMessageMarker.isPrefixOf x.2)) := by
  unfold splitQuietMarker
  rw [← isSome_stripQuiet]
  cases stripQuiet text with
  | some rest => rfl
  | none =>
    cases hreply : "[CAS reply:".toList.isPrefixOf text with
    | false => rfl
    | true =>
      cases hsplit : splitOnce ['\n'] text with
      | none => rfl
      | some x =>
        obtain ⟨head, rest⟩ := x
        simp only [if_true, Option.any_some, ← isSome_stripQuiet, Option.isSome_none, Bool.false_or,
          Bool.true_and]
        cases stripQuiet rest <;> rfl

theorem isPrefixOf_append_newline {m : Text} (hm : '\n' ∉ m) (x y : Text) :
    m.isPrefixOf (x ++ '\n' :: y) = m.isPrefixOf x := by
  rw [Bool.eq_iff_iff, List.isPrefixOf_iff_prefix, List.isPrefixOf_iff_prefix,
    prefix_append_newline hm]

theorem splitOnce_newline_cons (c : Char) (t : Text) :
    splitOnce ['\n'] (c :: t)
      = if c = '\n' then some ([], t) else (splitOnce ['\n'] t).map fun r => (c :: r.1, r.2) := by
  rw [splitOnce]
  by_cases hc : c = '\n'
  · subst hc
    rfl
  · have hbeq : (('\n' : Char) == c) = false := by simpa using fun h : '\n' = c => hc h.symm
    rw [if_neg hc, if_neg (by simp [List.isPrefixOf, hbeq])]

/-- 最初の改行の後は、空行を足しても印の読み方を変えない。 -/
theorem afterNewline_append_blank_line {m : Text} (hm : '\n' ∉ m) (hne : m ≠ []) (x y : Text) :
    ((splitOnce ['\n'] (x ++ '\n' :: '\n' :: y)).any fun r => m.isPrefixOf r.2)
      = (splitOnce ['\n'] x).any fun r => m.isPrefixOf r.2 := by
  induction x with
  | nil =>
    rw [List.nil_append, splitOnce_newline_cons, if_pos rfl]
    cases m with
    | nil => exact absurd rfl hne
    | cons c m =>
      have hc : (c == '\n') = false := by simpa using fun h : c = '\n' => hm (h ▸ List.mem_cons_self)
      simp [splitOnce, List.isPrefixOf, hc]
  | cons c x ih =>
    rw [List.cons_append, splitOnce_newline_cons, splitOnce_newline_cons]
    split
    · simp only [Option.any_some]
      exact isPrefixOf_append_newline hm x _
    · rw [Option.any_map, Option.any_map]
      exact ih

/-- 印は、最初の空行より前だけを読む。 -/
theorem quiet_append_blank_line (x y : Text) :
    (splitQuietMarker (x ++ '\n' :: '\n' :: y)).1 = (splitQuietMarker x).1 := by
  rw [quiet_eq, quiet_eq, isPrefixOf_append_newline newline_not_mem_marker,
    isPrefixOf_append_newline newline_not_mem_reply,
    afterNewline_append_blank_line newline_not_mem_marker (by decide)]

/-! ## 区切りを伏せる -/

theorem promptForStorage_cons_of_ne {c : Char} (hc : c ≠ '\n') (t : Text) :
    promptForStorage (c :: t) = c :: promptForStorage t := by
  unfold promptForStorage replaceText
  rw [replaceFrom]
  have hbeq : (('\n' : Char) == c) = false := by simpa using fun h : '\n' = c => hc h.symm
  rw [if_neg (by simp [parserDelimiter, List.isPrefixOf, hbeq])]

/-- 改行で始まる文字列は、改行を一つ残して伏せられるか、改行二つで始まる。 -/
theorem promptForStorage_newline (t : Text) :
    promptForStorage ('\n' :: t) = '\n' :: promptForStorage t
      ∨ ∃ rest rest', t = '\n' :: rest ∧ promptForStorage ('\n' :: t) = '\n' :: '\n' :: rest' := by
  unfold promptForStorage replaceText
  rw [replaceFrom]
  split
  · next hpre =>
    cases t with
    | nil => simp [parserDelimiter, List.isPrefixOf] at hpre
    | cons d rest =>
      have hd : d = '\n' := by
        simp only [parserDelimiter, List.isPrefixOf, Bool.and_eq_true, beq_iff_eq] at hpre
        exact hpre.2.1.symm
      exact .inr ⟨rest, _, by rw [hd], rfl⟩
  · exact .inl rfl

theorem isPrefixOf_promptForStorage {m : Text} (hm : '\n' ∉ m) (t : Text) :
    m.isPrefixOf (promptForStorage t) = m.isPrefixOf t := by
  induction m generalizing t with
  | nil => simp
  | cons c m ih =>
    rw [List.mem_cons, not_or] at hm
    have hbeq : (c == '\n') = false := by simpa using fun h : c = '\n' => hm.1 h.symm
    cases t with
    | nil => rfl
    | cons d t =>
      by_cases hd : d = '\n'
      · subst hd
        rcases promptForStorage_newline t with h | ⟨rest, rest', -, h⟩
        · rw [h, List.isPrefixOf, List.isPrefixOf, hbeq, Bool.false_and, Bool.false_and]
        · rw [h, List.isPrefixOf, List.isPrefixOf, hbeq, Bool.false_and, Bool.false_and]
      · rw [promptForStorage_cons_of_ne hd, List.isPrefixOf, List.isPrefixOf, ih hm.2]

theorem afterNewline_promptForStorage {m : Text} (hm : '\n' ∉ m) (hne : m ≠ []) (t : Text) :
    ((splitOnce ['\n'] (promptForStorage t)).any fun r => m.isPrefixOf r.2)
      = (splitOnce ['\n'] t).any fun r => m.isPrefixOf r.2 := by
  induction t with
  | nil => rfl
  | cons c t ih =>
    by_cases hc : c = '\n'
    · subst hc
      rw [splitOnce_newline_cons, if_pos rfl]
      rcases promptForStorage_newline t with h | ⟨rest, rest', ht, h⟩
      · rw [h, splitOnce_newline_cons, if_pos rfl]
        exact isPrefixOf_promptForStorage hm t
      · rw [h, ht, splitOnce_newline_cons, if_pos rfl]
        cases m with
        | nil => exact absurd rfl hne
        | cons d m =>
          have hd : (d == '\n') = false := by
            simpa using fun he : d = '\n' => hm (he ▸ List.mem_cons_self)
          simp [List.isPrefixOf, hd]
    · rw [promptForStorage_cons_of_ne hc, splitOnce_newline_cons, splitOnce_newline_cons, if_neg hc,
        if_neg hc, Option.any_map, Option.any_map]
      exact ih

/-- 区切りを伏せても、印の読み方は変わらない。 -/
theorem quiet_promptForStorage (t : Text) :
    (splitQuietMarker (promptForStorage t)).1 = (splitQuietMarker t).1 := by
  rw [quiet_eq, quiet_eq, isPrefixOf_promptForStorage newline_not_mem_marker,
    isPrefixOf_promptForStorage newline_not_mem_reply,
    afterNewline_promptForStorage newline_not_mem_marker (by decide)]

/-- 印の無い文字列は、そのまま読まれる。 -/
theorem splitQuietMarker_of_not_quiet {text : Text} (h : (splitQuietMarker text).1 = false) :
    (splitQuietMarker text).2 = text := by
  have hcases : (splitQuietMarker text).1 = true ∨ splitQuietMarker text = (false, text) := by
    unfold splitQuietMarker
    split
    · exact .inl rfl
    · split
      · split
        · exact .inr rfl
        · split
          · exact .inl rfl
          · exact .inr rfl
      · exact .inr rfl
  rcases hcases with hquiet | heq
  · rw [h] at hquiet
    cases hquiet
  · rw [heq]

end Cassy
