import Mathlib
import Cassy.Infra.Arrange
import Cassy.Infra.Paragraphs
import Cassy.Cloud.TaskNotes
import Cassy.Properties.Projection

/-!
# 合流の収束

`merge_task_notes` が何も失わないことと、同じ notes をもう一度合流しても変わらない条件。

合流の結果は、二つの notes の塊を時刻の順に並べて繋いだものである。次の合流は、繋いだ文字列を塊に分け直す
ところから始まる。時刻で始まる塊の後ろに、それだけでは塊を始めない段落が来ると、分け直したときに前の塊へ
吸われる。
-/

namespace Cassy

open Infra

variable {parse : Text → Option Time}

/-! ## 塊の形 -/

/-- 前後に空白の無い、空でない文字列。 -/
def Trimmed (b : Text) : Prop := trim b = b ∧ b ≠ []

theorem trimmed_of_mem_noteTexts {notes b : Text} (h : b ∈ noteTexts parse notes) : Trimmed b := by
  have hspans : ∀ (pt : Text → Bool) (block : Span) (ps : List Text),
      ∀ s ∈ noteBlocksFrom pt block ps, trim s.text = s.text := by
    intro pt block ps
    induction ps generalizing block with
    | nil =>
      intro s hs
      rw [noteBlocksFrom, List.mem_singleton] at hs
      rw [hs]
      exact trim_idem _
    | cons p ps ih =>
      intro s hs
      rw [noteBlocksFrom] at hs
      split at hs
      · rcases List.mem_cons.mp hs with rfl | hs
        · exact trim_idem _
        · exact ih _ s hs
      · exact ih _ s hs
  obtain ⟨s, hs, rfl⟩ := List.mem_map.mp h
  rw [noteBlocks] at hs
  split at hs
  · simp at hs
  · rw [List.mem_filter] at hs
    exact ⟨hspans _ _ _ s hs.1, by simpa using hs.2⟩

/-- 塊は一つの段落か、時刻で始まる。 -/
theorem noteBlocksFrom_single_or_timestamped {pt : Text → Bool} {block : Span} {ps : List Text}
    {s : Span} (hs : s ∈ noteBlocksFrom pt block ps) :
    (∃ p ∈ block.text :: ps, s.text = trim p) ∨ isTimestampedNote pt s.text = true := by
  induction ps generalizing block with
  | nil =>
    rw [noteBlocksFrom, List.mem_singleton] at hs
    exact .inl ⟨block.text, List.mem_cons_self, by rw [hs]; rfl⟩
  | cons p ps ih =>
    rw [noteBlocksFrom] at hs
    split at hs
    · rcases List.mem_cons.mp hs with rfl | hs
      · exact .inl ⟨block.text, List.mem_cons_self, rfl⟩
      · obtain ⟨q, hq, heq⟩ | hts := ih hs
        · exact .inl ⟨q, List.mem_cons_of_mem _ hq, heq⟩
        · exact .inr hts
    · next hstart =>
      have hblock : isTimestampedNote pt (trim block.text) = true := by
        simp only [startsBlock, Bool.or_eq_true, not_or, Bool.not_eq_true, Bool.not_eq_false'] at hstart
        exact hstart.2
      obtain ⟨q, hq, heq⟩ | hts := ih hs
      · rcases List.mem_cons.mp hq with rfl | hq
        · right
          rw [heq]
          exact isTimestampedNote_trim_append hblock _
        · exact .inl ⟨q, List.mem_cons_of_mem _ (List.mem_cons_of_mem _ hq), heq⟩
      · exact .inr hts

/-- 来歴の段落を持たない notes の塊は、来歴ではない。 -/
theorem not_provenance_of_mem_noteTexts {notes b : Text}
    (hnotes : ∀ p ∈ splitParagraphs notes, isProvenanceParagraph p = false)
    (h : b ∈ noteTexts parse notes) : isProvenanceParagraph b = false := by
  have htrim := (trimmed_of_mem_noteTexts h).1
  obtain ⟨s, hs, rfl⟩ := List.mem_map.mp h
  rw [noteBlocks] at hs
  split at hs
  · simp at hs
  · next p ps hsplit =>
    rw [List.mem_filter] at hs
    obtain ⟨q, hq, heq⟩ | hts := noteBlocksFrom_single_or_timestamped hs.1
    · have hprov := hnotes q (by rw [hsplit]; exact hq)
      rw [heq]
      simpa only [isProvenanceParagraph, trim_idem] using hprov
    · have hhead := head?_of_isTimestampedNote hts
      have hbegin : beginServerAttested.head? ≠ some '[' ∧ beginClientAsserted.head? ≠ some '[' := by
        decide
      have hnot : ∀ m : Text, m.head? ≠ some '[' → m ≠ [] → m.isPrefixOf s.text = false := by
        intro m hm hne
        rw [← Bool.not_eq_true, List.isPrefixOf_iff_prefix]
        rintro ⟨z, hz⟩
        rw [← hz, List.head?_append_of_ne_nil _ hne] at hhead
        exact hm hhead
      rw [isProvenanceParagraph, htrim, hnot _ hbegin.1 (by decide),
        hnot _ hbegin.2 (by decide)]
      rfl

/-! ## 集めた塊 -/

/-- 塊の列に、時刻と順番を付ける。 -/
def taggedNotes (parse : Text → Option Time) (u : List Text) : List DatedNote :=
  u.zipIdx.map fun x => { timestamp := noteTimestamp parse x.1, order := x.2, note := x.1 }

@[simp] theorem taggedNotes_map_note (parse : Text → Option Time) (u : List Text) :
    (taggedNotes parse u).map DatedNote.note = u := by
  simp [taggedNotes, Function.comp_def]

theorem taggedNotes_append_singleton (u : List Text) (b : Text) :
    taggedNotes parse (u ++ [b]) = taggedNotes parse u
      ++ [{ timestamp := noteTimestamp parse b, order := (taggedNotes parse u).length, note := b }] := by
  simp [taggedNotes, List.zipIdx_append]

theorem any_taggedNotes (parse : Text → Option Time) (u : List Text) (b : Text) :
    (taggedNotes parse u).any (·.note = b) = true ↔ b ∈ u := by
  rw [← taggedNotes_map_note parse u, List.mem_map, List.any_eq_true]
  simp

/-- 何も捨てないなら、集めた塊は初めて現れた順に一つずつ並ぶ。 -/
theorem collectNotes_eq (parse : Text → Option Time) {drop : Text → Bool} {u l : List Text} (hu : u.Nodup)
    (hl : ∀ b ∈ l, Trimmed b ∧ drop b = false) :
    collectNotes parse drop (taggedNotes parse u) l = taggedNotes parse (u ++ l).eraseDups := by
  induction l generalizing u with
  | nil => rw [collectNotes, List.append_nil, eraseDups_of_nodup hu]
  | cons b l ih =>
    obtain ⟨⟨htrim, hne⟩, hdrop⟩ := hl b List.mem_cons_self
    have hrest : ∀ c ∈ l, Trimmed c ∧ drop c = false := fun c hc =>
      hl c (List.mem_cons_of_mem _ hc)
    rw [collectNotes, htrim]
    by_cases hb : b ∈ u
    · have hskip : (u ++ b :: l).eraseDups = (u ++ l).eraseDups := by
        rw [List.eraseDups_append, List.eraseDups_append, List.cons_removeAll]
        simp [hb]
      have hany := (any_taggedNotes parse u b).mpr hb
      rw [if_pos (by rw [hany, Bool.or_true]), ih hu hrest, hskip]
    · have hnodup : (u ++ [b]).Nodup := by
        rw [List.nodup_append]
        refine ⟨hu, by simp, ?_⟩
        intro c hc d hd heq
        rw [List.mem_singleton] at hd
        exact hb (hd ▸ heq ▸ hc)
      have hany : (taggedNotes parse u).any (·.note = b) = false := by
        rw [← Bool.not_eq_true, any_taggedNotes]
        exact hb
      rw [if_neg (by simp [hany, hne, hdrop])]
      simp only
      rw [← taggedNotes_append_singleton, ih hnodup hrest, List.append_assoc, List.singleton_append]

/-! ## 時刻の順 -/

/-- 並べる鍵。時刻の無いものは最後である。 -/
def timeRank : Option Time → WithTop Time
  | none => ⊤
  | some t => t

/-- 塊の鍵。 -/
def noteRank (parse : Text → Option Time) (b : Text) : WithTop Time :=
  timeRank (noteTimestamp parse b)

/-- 塊の列を時刻の順に並べる。同じ時刻の塊は元の順に残る。 -/
def arrangeNotes (parse : Text → Option Time) (u : List Text) : List Text :=
  ((taggedNotes parse u).insertionSort (fun a b => a.before b = true)).map DatedNote.note

theorem DatedNote.before_iff {a b : DatedNote} : a.before b = true ↔
    timeRank a.timestamp < timeRank b.timestamp
      ∨ timeRank a.timestamp = timeRank b.timestamp ∧ a.order ≤ b.order := by
  unfold DatedNote.before
  cases a.timestamp with
  | none =>
    cases b.timestamp with
    | none => simp [timeRank]
    | some t => simp [timeRank]
  | some s =>
    cases b.timestamp with
    | none => simp [timeRank]
    | some t => simp [timeRank]

instance : Std.Total (fun a b : DatedNote => a.before b = true) where
  total a b := by
    rw [DatedNote.before_iff, DatedNote.before_iff]
    rcases lt_trichotomy (timeRank a.timestamp) (timeRank b.timestamp) with h | h | h
    · exact .inl (.inl h)
    · rcases le_total a.order b.order with ho | ho
      · exact .inl (.inr ⟨h, ho⟩)
      · exact .inr (.inr ⟨h.symm, ho⟩)
    · exact .inr (.inl h)

instance : IsTrans DatedNote (fun a b : DatedNote => a.before b = true) where
  trans a b c := by
    rw [DatedNote.before_iff, DatedNote.before_iff, DatedNote.before_iff]
    rintro (hab | ⟨hab, ho⟩) (hbc | ⟨hbc, ho'⟩)
    · exact .inl (hab.trans hbc)
    · exact .inl (hbc ▸ hab)
    · exact .inl (hab ▸ hbc)
    · exact .inr ⟨hab.trans hbc, ho.trans ho'⟩

theorem timestamp_of_mem_taggedNotes {u : List Text} {e : DatedNote}
    (h : e ∈ taggedNotes parse u) : e.timestamp = noteTimestamp parse e.note := by
  obtain ⟨x, -, rfl⟩ := List.mem_map.mp h
  rfl

theorem arrangeNotes_perm (u : List Text) : (arrangeNotes parse u).Perm u := by
  have h := (List.perm_insertionSort (fun a b : DatedNote => a.before b = true)
    (taggedNotes parse u)).map DatedNote.note
  rwa [taggedNotes_map_note] at h

theorem arrangeNotes_pairwise (u : List Text) :
    (arrangeNotes parse u).Pairwise fun a b => noteRank parse a ≤ noteRank parse b := by
  rw [arrangeNotes, List.pairwise_map]
  refine (List.pairwise_insertionSort _ (taggedNotes parse u)).imp_of_mem ?_
  intro a b ha hb hab
  rw [List.mem_insertionSort] at ha hb
  rw [DatedNote.before_iff, timestamp_of_mem_taggedNotes ha, timestamp_of_mem_taggedNotes hb] at hab
  rcases hab with hlt | ⟨heq, -⟩
  · exact hlt.le
  · exact heq.le

/-- 並べても、同じ時刻の塊どうしの順は変わらない。 -/
theorem filter_arrangeNotes (u : List Text) (k : WithTop Time) :
    (arrangeNotes parse u).filter (noteRank parse · = k) = u.filter (noteRank parse · = k) := by
  have hnote : ∀ l : List DatedNote, (∀ e ∈ l, e.timestamp = noteTimestamp parse e.note) →
      (l.map DatedNote.note).filter (noteRank parse · = k)
        = (l.filter fun e => timeRank e.timestamp = k).map DatedNote.note := by
    intro l hl
    rw [List.filter_map]
    congr 1
    refine List.filter_congr fun e he => ?_
    rw [Function.comp_apply, decide_eq_decide, noteRank, hl e he]
  have hclass : ((taggedNotes parse u).filter fun e => timeRank e.timestamp = k).Pairwise
      fun a b => a.before b = true := by
    have horder : (taggedNotes parse u).Pairwise fun a b => a.order ≤ b.order := by
      rw [taggedNotes, List.pairwise_map]
      have hidx : (u.zipIdx.map Prod.snd).Pairwise (· ≤ ·) := by
        rw [List.zipIdx_map_snd]
        exact List.pairwise_le_range'
      exact List.pairwise_map.mp hidx
    rw [List.pairwise_filter]
    refine horder.imp ?_
    intro a b hab ha hb
    rw [decide_eq_true_eq] at ha hb
    exact DatedNote.before_iff.mpr (.inr ⟨ha.trans hb.symm, hab⟩)
  have hsorted := filter_key_insertionSort (fun e : DatedNote => timeRank e.timestamp) hclass
  rw [arrangeNotes, hnote _ (fun e he => timestamp_of_mem_taggedNotes
    ((List.mem_insertionSort _).mp he)), hsorted, ← hnote _ fun e => timestamp_of_mem_taggedNotes,
    taggedNotes_map_note]

/-- 同じ時刻の塊の順が同じなら、並べた結果も同じである。 -/
theorem arrangeNotes_congr {u v : List Text}
    (h : ∀ k, u.filter (noteRank parse · = k) = v.filter (noteRank parse · = k)) :
    arrangeNotes parse u = arrangeNotes parse v := by
  refine eq_of_filter_key_eq (noteRank parse) (arrangeNotes_pairwise u) (arrangeNotes_pairwise v) ?_
  intro k
  rw [filter_arrangeNotes, filter_arrangeNotes, h k]

theorem arrangeNotes_arrangeNotes (u : List Text) :
    arrangeNotes parse (arrangeNotes parse u) = arrangeNotes parse u :=
  arrangeNotes_congr fun k => filter_arrangeNotes u k

/-! ## 分け直し -/

theorem Trimmed.getLast?_ne {b : Text} (h : Trimmed b) : b.getLast? ≠ some '\n' := by
  intro hlast
  have hend : trimEnd b = b := by
    rw [← h.1, trim, trimEnd_idem]
  obtain ⟨x, rfl⟩ := List.getLast?_eq_some_iff.mp hlast
  have hdrop : trimEnd (x ++ ['\n']) = trimEnd x := trimEnd_append_of_blank (by decide)
  obtain ⟨w, -, hw⟩ := exists_trimEnd x
  have hlen := congrArg List.length hw
  rw [hdrop] at hend
  rw [hend] at hlen
  simp only [List.length_append, List.length_cons] at hlen
  omega

theorem splitParagraphs_joinParagraphs {b : Text} {ys : List Text}
    (h : ∀ c ∈ b :: ys, Trimmed c) :
    splitParagraphs (joinParagraphs (b :: ys)) = (b :: ys).flatMap splitParagraphs := by
  induction ys generalizing b with
  | nil => simp
  | cons c ys ih =>
    rw [joinParagraphs_cons_cons, splitParagraphs_append (h b List.mem_cons_self).getLast?_ne,
      ih fun d hd => h d (List.mem_cons_of_mem _ hd)]
    simp only [List.flatMap_cons]

/-- 塊 `b` の後ろに `ys` が続くとき、`b` の中では塊が始まらず、`b` の直後で次の塊が始まる。 -/
def Recognised (pt : Text → Bool) (b : Text) (ys : List Text) : Prop :=
  (ys ≠ [] → startsBlock pt b (joinParagraphs ys) = true)
    ∧ ∀ qs rs, qs ≠ [] → rs ≠ [] → splitParagraphs b = qs ++ rs →
      startsBlock pt (joinParagraphs qs) (joinParagraphs (rs ++ ys)) = false

/-- 塊を順に繋いだ文字列が、同じ塊に分かれる。 -/
def ReadsBack (pt : Text → Bool) (t : List Text) : Prop :=
  ∀ xs b ys, t = xs ++ b :: ys → Recognised pt b ys

/-- 塊の中の段落は、一つの塊に集まる。 -/
theorem noteBlocksFrom_glue (pt : Text → Bool) (ys : List Text) (start : Nat) (qs rs : List Text)
    (hq : qs ≠ []) (h : ∀ rs₁ rs₂, rs₂ ≠ [] → rs = rs₁ ++ rs₂ →
      startsBlock pt (joinParagraphs (qs ++ rs₁)) (joinParagraphs (rs₂ ++ ys)) = false) :
    noteBlocksFrom pt { start, text := joinParagraphs qs } (rs ++ ys.flatMap splitParagraphs)
      = noteBlocksFrom pt { start, text := joinParagraphs (qs ++ rs) }
          (ys.flatMap splitParagraphs) := by
  induction rs generalizing qs with
  | nil => rw [List.nil_append, List.append_nil]
  | cons r rs ih =>
    have hjoin : joinParagraphs (r :: rs ++ ys.flatMap splitParagraphs)
        = joinParagraphs (r :: rs ++ ys) := by
      cases ys with
      | nil => simp
      | cons c ys =>
        have hne : (c :: ys).flatMap splitParagraphs ≠ [] := by
          simp [List.flatMap_cons, splitParagraphs_ne_nil]
        rw [joinParagraphs_append (by simp) hne, joinParagraphs_flatMap,
          joinParagraphs_append (by simp) (by simp)]
    have hstart := h [] (r :: rs) (by simp) rfl
    rw [List.append_nil, ← hjoin] at hstart
    have hnext : joinParagraphs qs ++ '\n' :: '\n' :: r = joinParagraphs (qs ++ [r]) := by
      rw [joinParagraphs_append hq (by simp), joinParagraphs_singleton]
    rw [List.cons_append, noteBlocksFrom, ← List.cons_append, hstart, if_neg (by simp)]
    simp only [hnext]
    rw [ih (qs ++ [r]) (by simp) fun rs₁ rs₂ hne heq => ?_]
    · simp [List.append_assoc]
    · have := h (r :: rs₁) rs₂ hne (by rw [heq, List.cons_append])
      simpa [List.append_assoc] using this

theorem noteBlocksFrom_readsBack {pt : Text → Bool} {b : Text} {ys : List Text}
    (htrim : ∀ c ∈ b :: ys, Trimmed c) (h : ReadsBack pt (b :: ys)) (start : Nat) {q : Text}
    {qs : List Text} (hq : splitParagraphs b = q :: qs) :
    (noteBlocksFrom pt { start, text := q } (qs ++ ys.flatMap splitParagraphs)).map Span.text
      = b :: ys := by
  induction ys generalizing b start q qs with
  | nil =>
    have hin := (h [] b [] rfl).2
    have hglue := noteBlocksFrom_glue pt [] start [q] qs (by simp)
      fun rs₁ rs₂ hne heq => hin _ rs₂ (by simp) hne (by rw [hq, heq]; rfl)
    rw [joinParagraphs_singleton] at hglue
    rw [hglue, List.singleton_append, ← hq, joinParagraphs_splitParagraphs]
    simp [noteBlocksFrom, Span.trim, (htrim b List.mem_cons_self).1]
  | cons c ys ih =>
    obtain ⟨hstart, hin⟩ := h [] b (c :: ys) rfl
    have hglue := noteBlocksFrom_glue pt (c :: ys) start [q] qs (by simp)
      fun rs₁ rs₂ hne heq => hin _ rs₂ (by simp) hne (by rw [hq, heq]; rfl)
    obtain ⟨r, rs, hr⟩ := List.exists_cons_of_ne_nil (splitParagraphs_ne_nil c)
    have hrest : joinParagraphs (r :: rs ++ ys.flatMap splitParagraphs)
        = joinParagraphs (c :: ys) := by
      rw [← hr, ← List.flatMap_cons, joinParagraphs_flatMap]
    rw [joinParagraphs_singleton] at hglue
    rw [hglue, List.singleton_append, ← hq, joinParagraphs_splitParagraphs, List.flatMap_cons, hr,
      List.cons_append, noteBlocksFrom, ← List.cons_append, hrest, hstart (by simp), if_pos rfl,
      List.map_cons]
    have htail : ReadsBack pt (c :: ys) := fun xs d zs heq => h (b :: xs) d zs (by rw [heq]; rfl)
    rw [ih (fun d hd => htrim d (List.mem_cons_of_mem _ hd)) htail _ hr]
    simp [Span.trim, (htrim b List.mem_cons_self).1]

/-- 繋いだ塊を分け直すと元の塊に戻る。 -/
theorem noteTexts_joinParagraphs {t : List Text} (htrim : ∀ b ∈ t, Trimmed b)
    (h : ReadsBack (fun x => (parse x).isSome) t) : noteTexts parse (joinParagraphs t) = t := by
  cases t with
  | nil => rfl
  | cons b ys =>
    obtain ⟨q, qs, hq⟩ := List.exists_cons_of_ne_nil (splitParagraphs_ne_nil b)
    have hsplit : splitParagraphs (joinParagraphs (b :: ys))
        = q :: (qs ++ ys.flatMap splitParagraphs) := by
      rw [splitParagraphs_joinParagraphs htrim, List.flatMap_cons, hq, List.cons_append]
    have hback := noteBlocksFrom_readsBack htrim h 0 hq
    have hkeep : (noteBlocksFrom (fun x => (parse x).isSome) { start := 0, text := q }
        (qs ++ ys.flatMap splitParagraphs)).filter (fun s => !s.text.isEmpty)
        = noteBlocksFrom (fun x => (parse x).isSome) { start := 0, text := q }
          (qs ++ ys.flatMap splitParagraphs) := by
      rw [List.filter_eq_self]
      intro s hs
      have hmem : s.text ∈ b :: ys := hback ▸ List.mem_map_of_mem hs
      simpa using (htrim _ hmem).2
    rw [noteTexts, noteBlocks, hsplit]
    simp only
    rw [hkeep, hback]

/-! ## 合流の結果 -/

/-- 二つの notes の塊を一つずつ、時刻の順に並べたもの。 -/
def timelineNotes (parse : Text → Option Time) (l r : Text) : List Text :=
  arrangeNotes parse (noteTexts parse l ++ noteTexts parse r).eraseDups

/-- 手元に来歴の塊が無ければ、合流は塊を時刻の順に繋ぐ。 -/
theorem mergeTaskNotes_eq {l r : Text} (hl : ∀ b ∈ noteTexts parse l, isProvenanceParagraph b = false) :
    mergeTaskNotes parse l r = joinParagraphs (timelineNotes parse l r) := by
  have hlocal : ∀ b ∈ noteTexts parse l, Trimmed b
      ∧ ((splitParagraphs r).any isProvenanceParagraph && isProvenanceParagraph b) = false := by
    intro b hb
    exact ⟨trimmed_of_mem_noteTexts hb, by rw [hl b hb, Bool.and_false]⟩
  have hremote : ∀ b ∈ noteTexts parse r, Trimmed b ∧ (fun _ : Text => false) b = false :=
    fun b hb => ⟨trimmed_of_mem_noteTexts hb, rfl⟩
  have hfirst := collectNotes_eq parse List.nodup_nil hlocal
  rw [List.nil_append] at hfirst
  have hsecond := collectNotes_eq parse (nodup_eraseDups (noteTexts parse l)) hremote
  have hdups : ((noteTexts parse l).eraseDups ++ noteTexts parse r).eraseDups
      = (noteTexts parse l ++ noteTexts parse r).eraseDups := by
    rw [List.eraseDups_append, List.eraseDups_append, eraseDups_of_nodup (nodup_eraseDups _)]
    congr 2
    simp [List.removeAll, List.elem_eq_contains]
  rw [mergeTaskNotes]
  rw [show ([] : List DatedNote) = taggedNotes parse [] from rfl, hfirst, hsecond, hdups]
  rfl

theorem mem_timelineNotes {l r b : Text} :
    b ∈ timelineNotes parse l r ↔ b ∈ noteTexts parse l ∨ b ∈ noteTexts parse r := by
  rw [timelineNotes, (arrangeNotes_perm _).mem_iff, List.mem_eraseDups, List.mem_append]

theorem nodup_timelineNotes (l r : Text) : (timelineNotes parse l r).Nodup :=
  (arrangeNotes_perm _).nodup_iff.mpr (nodup_eraseDups _)

theorem infix_joinParagraphs {b : Text} {t : List Text} (h : b ∈ t) : b <:+: joinParagraphs t := by
  obtain ⟨xs, ys, rfl⟩ := List.append_of_mem h
  obtain ⟨rest, hrest⟩ := exists_joinParagraphs_cons b ys
  cases xs with
  | nil => exact ⟨[], rest, by rw [List.nil_append, List.nil_append, hrest]⟩
  | cons x xs =>
    rw [joinParagraphs_append (by simp) (by simp), hrest]
    exact ⟨joinParagraphs (x :: xs) ++ ['\n', '\n'], rest, by simp⟩

/-- 同じ時刻の塊について、片方の notes の並びがもう片方の並びの先頭部分である。 -/
def TiesAgree (parse : Text → Option Time) (l r : Text) : Prop :=
  ∀ k, (noteTexts parse l).eraseDups.filter (noteRank parse · = k)
      <+: (noteTexts parse r).eraseDups.filter (noteRank parse · = k)
    ∨ (noteTexts parse r).eraseDups.filter (noteRank parse · = k)
      <+: (noteTexts parse l).eraseDups.filter (noteRank parse · = k)

/-- 並べた列を後ろに繋いでも、並べる前の列を繋いだのと同じ結果になる。 -/
theorem arrangeNotes_append_arrangeNotes {u : List Text} (hu : u.Nodup) (x : List Text) :
    arrangeNotes parse (x ++ arrangeNotes parse u).eraseDups
      = arrangeNotes parse (x ++ u).eraseDups := by
  refine arrangeNotes_congr fun k => ?_
  have ht : (arrangeNotes parse u).Nodup := (arrangeNotes_perm u).nodup_iff.mpr hu
  rw [List.eraseDups_append, List.eraseDups_append, eraseDups_of_nodup (nodup_removeAll ht x),
    eraseDups_of_nodup (nodup_removeAll hu x), List.filter_append, List.filter_append,
    filter_removeAll, filter_removeAll, filter_arrangeNotes]

/-- 同じ時刻の塊の順が食い違わなければ、どちらを先に集めても並びは同じである。 -/
theorem arrangeNotes_swap {l r : Text} (h : TiesAgree parse l r) :
    arrangeNotes parse (noteTexts parse r ++ (noteTexts parse l ++ noteTexts parse r).eraseDups).eraseDups
      = timelineNotes parse l r := by
  set ls := noteTexts parse l with hls
  set rs := noteTexts parse r with hrs
  refine arrangeNotes_congr fun k => ?_
  -- 鍵を一つに決めれば、全体から除くのも、その鍵の塊から除くのも同じである。
  have hclass : ∀ xs ys : List Text, (xs.eraseDups.removeAll ys).filter (noteRank parse · = k)
      = (xs.eraseDups.filter (noteRank parse · = k)).removeAll
          (ys.eraseDups.filter (noteRank parse · = k)) := by
    intro xs ys
    rw [filter_removeAll, List.removeAll, List.removeAll]
    refine List.filter_congr fun a ha => ?_
    have hkey := (List.mem_filter.mp ha).2
    simp only [List.elem_eq_contains, List.contains_eq_mem, List.mem_filter, List.mem_eraseDups,
      hkey, and_true]
  have hnodup : ∀ xs : List Text, (xs.eraseDups.filter (noteRank parse · = k)).Nodup :=
    fun xs => (nodup_eraseDups xs).filter _
  rw [eraseDups_append_right, eraseDups_append_eq, List.filter_append, List.filter_append, hclass, hclass]
  rcases h k with hpre | hpre
  · rw [append_removeAll_extend (hnodup rs) hpre, removeAll_eq_nil hpre.subset, List.append_nil]
  · rw [append_removeAll_extend (hnodup ls) hpre, removeAll_eq_nil hpre.subset, List.append_nil]

/--
合流は塊を失わない。二つの notes の塊を時刻の順に繋いだものが同じ塊に分かれるなら、結果にもう一度どちらを
合流しても、どちら側に置いても変わらない。

遠隔の notes を持つ側が結果を受け取るときだけは、同じ時刻の塊の順も食い違っていてはならない。
-/
theorem mergeTaskNotes_converges (parse : Text → Option Time) {l r : Text}
    (hl : ∀ p ∈ splitParagraphs l, isProvenanceParagraph p = false)
    (hr : ∀ p ∈ splitParagraphs r, isProvenanceParagraph p = false) :
    (∀ b ∈ noteTexts parse l ++ noteTexts parse r, b <:+: mergeTaskNotes parse l r)
      ∧ (ReadsBack (fun x => (parse x).isSome) (timelineNotes parse l r) →
          mergeTaskNotes parse (mergeTaskNotes parse l r) l = mergeTaskNotes parse l r
          ∧ mergeTaskNotes parse (mergeTaskNotes parse l r) r = mergeTaskNotes parse l r
          ∧ mergeTaskNotes parse l (mergeTaskNotes parse l r) = mergeTaskNotes parse l r
          ∧ (TiesAgree parse l r →
            mergeTaskNotes parse r (mergeTaskNotes parse l r) = mergeTaskNotes parse l r)) := by
  have hblocksL : ∀ b ∈ noteTexts parse l, isProvenanceParagraph b = false := fun b =>
    not_provenance_of_mem_noteTexts hl
  have hblocksR : ∀ b ∈ noteTexts parse r, isProvenanceParagraph b = false := fun b =>
    not_provenance_of_mem_noteTexts hr
  have hm : mergeTaskNotes parse l r = joinParagraphs (timelineNotes parse l r) :=
    mergeTaskNotes_eq hblocksL
  refine ⟨fun b hb => ?_, fun hback => ?_⟩
  · rw [hm]
    exact infix_joinParagraphs (mem_timelineNotes.mpr (List.mem_append.mp hb))
  · have htrim : ∀ b ∈ timelineNotes parse l r, Trimmed b := by
      intro b hb
      rcases mem_timelineNotes.mp hb with hb | hb
      · exact trimmed_of_mem_noteTexts hb
      · exact trimmed_of_mem_noteTexts hb
    have hread : noteTexts parse (mergeTaskNotes parse l r) = timelineNotes parse l r := by
      rw [hm, noteTexts_joinParagraphs htrim hback]
    have hblocksM : ∀ b ∈ noteTexts parse (mergeTaskNotes parse l r),
        isProvenanceParagraph b = false := by
      intro b hb
      rw [hread] at hb
      rcases mem_timelineNotes.mp hb with hb | hb
      · exact hblocksL b hb
      · exact hblocksR b hb
    -- 結果を手元に置けば、新しい塊は無く、並びも既に時刻の順である。
    have hstored : ∀ x, noteTexts parse x ⊆ timelineNotes parse l r →
        mergeTaskNotes parse (mergeTaskNotes parse l r) x = mergeTaskNotes parse l r := by
      intro x hx
      rw [mergeTaskNotes_eq hblocksM, timelineNotes, hread,
        eraseDups_append_of_subset (nodup_timelineNotes l r) hx, hm]
      exact congrArg joinParagraphs (arrangeNotes_arrangeNotes _)
    refine ⟨hstored l fun b hb => mem_timelineNotes.mpr (.inl hb),
      hstored r fun b hb => mem_timelineNotes.mpr (.inr hb), ?_, fun hties => ?_⟩
    · rw [mergeTaskNotes_eq hblocksL, timelineNotes, hread, timelineNotes,
        arrangeNotes_append_arrangeNotes (nodup_eraseDups _), eraseDups_append_left, hm,
        timelineNotes]
    · rw [mergeTaskNotes_eq hblocksR, timelineNotes, hread, timelineNotes,
        arrangeNotes_append_arrangeNotes (nodup_eraseDups _), arrangeNotes_swap hties, hm]

/-! ## 例 -/

/-- 西暦の日付の、1970-01-01 からの日数。 -/
def daysFromCivil (y m d : Int) : Int :=
  let y := if m ≤ 2 then y - 1 else y
  let era := y / 400
  let yoe := y - era * 400
  let doy := (153 * (if m ≤ 2 then m + 9 else m - 3) + 2) / 5 + d - 1
  era * 146097 + (yoe * 365 + yoe / 4 - yoe / 100 + doy) - 719468

/-- 月の日数。 -/
def daysInMonth (y m : Int) : Int :=
  if m = 2 then if y % 4 = 0 ∧ (y % 100 ≠ 0 ∨ y % 400 = 0) then 29 else 28
  else if m = 4 ∨ m = 6 ∨ m = 9 ∨ m = 11 then 30 else 31

/-- `chrono` の読み取りのうち、桁を揃えた時刻だけを読むもの。 -/
def fixedTimestamp : Text → Option Time
  | [y₁, y₂, y₃, y₄, '-', m₁, m₂, '-', d₁, d₂, ' ', h₁, h₂, ':', n₁, n₂] =>
    if [y₁, y₂, y₃, y₄, m₁, m₂, d₁, d₂, h₁, h₂, n₁, n₂].all isAsciiDigit then
      let y : Int := digitsValue [y₁, y₂, y₃, y₄]
      let m : Int := digitsValue [m₁, m₂]
      let d : Int := digitsValue [d₁, d₂]
      let h : Int := digitsValue [h₁, h₂]
      let n : Int := digitsValue [n₁, n₂]
      if 1 ≤ m ∧ m ≤ 12 ∧ 1 ≤ d ∧ d ≤ daysInMonth y m ∧ h < 24 ∧ n < 60 then
        some (seconds (daysFromCivil y m d * 86400 + h * 3600 + n * 60))
      else none
    else none
  | _ => none

/-- 時刻で始まる一段落の塊だけなら、繋いだものは同じ塊に分かれる。 -/
theorem readsBack_of_timestamped {pt : Text → Bool} {t : List Text}
    (h : ∀ b ∈ t, isTimestampedNote pt b = true ∧ splitParagraphs b = [b]) : ReadsBack pt t := by
  rintro xs b ys rfl
  refine ⟨fun hne => ?_, fun qs rs hq hrs hsplit => ?_⟩
  · obtain ⟨c, ys, rfl⟩ := List.exists_cons_of_ne_nil hne
    obtain ⟨rest, hrest⟩ := exists_joinParagraphs_cons c ys
    have hc := (h c (by simp)).1
    rw [startsBlock, hrest, isTimestampedNote_append hc]
    rfl
  · have hlen := congrArg List.length ((h b (by simp)).2.symm.trans hsplit)
    have hqlen := List.length_pos_of_ne_nil hq
    have hrlen := List.length_pos_of_ne_nil hrs
    simp only [List.length_cons, List.length_nil, List.length_append] at hlen
    omega

theorem mergeTaskNotes_converges_two :
    let l := "[2026-08-09 10:30] local follow-up\n\n[2026-08-09 11:30] shared".toList
    let r := "[2026-08-09 09:30] remote first\n\n[2026-08-09 11:30] shared".toList
    let m := mergeTaskNotes fixedTimestamp l r
    mergeTaskNotes fixedTimestamp m l = m ∧ mergeTaskNotes fixedTimestamp m r = m
      ∧ mergeTaskNotes fixedTimestamp l m = m ∧ (∀ b ∈ noteTexts fixedTimestamp l, b <:+: m) := by
  intro l r m
  have hl : ∀ p ∈ splitParagraphs l, isProvenanceParagraph p = false := by decide
  have hr : ∀ p ∈ splitParagraphs r, isProvenanceParagraph p = false := by decide
  have hback : ReadsBack (fun x => (fixedTimestamp x).isSome) (timelineNotes fixedTimestamp l r) :=
    readsBack_of_timestamped (by decide)
  obtain ⟨hmem, hconv⟩ := mergeTaskNotes_converges fixedTimestamp hl hr
  obtain ⟨hml, hmr, hlm, -⟩ := hconv hback
  exact ⟨hml, hmr, hlm, fun b hb => hmem b (List.mem_append_left _ hb)⟩

/-- 時刻の無い前書きは合流で最後に回り、次の合流で前の塊に吸われて、本文が二度並ぶ。 -/
theorem mergeTaskNotes_repeats_preamble :
    let r := "preamble\n\n[2026-08-09 10:30] entry".toList
    let m := "[2026-08-09 10:30] entry\n\npreamble".toList
    (∀ p ∈ splitParagraphs r, isProvenanceParagraph p = false)
      ∧ mergeTaskNotes fixedTimestamp [] r = m
      ∧ mergeTaskNotes fixedTimestamp m r
        = "[2026-08-09 10:30] entry\n\npreamble\n\n[2026-08-09 10:30] entry\n\npreamble".toList
      ∧ mergeTaskNotes fixedTimestamp m r ≠ m := by
  decide

-- 分け直しで塊が変わっても、たまたま同じ文字列に落ち着くことはある。
example :
    let n := "a\n\n[2026-08-09 10:30] b\n\na\n\n[2026-08-09 10:30] b".toList
    let m := mergeTaskNotes fixedTimestamp n n
    mergeTaskNotes fixedTimestamp m n = m ∧ mergeTaskNotes fixedTimestamp n m = m
      ∧ noteTexts fixedTimestamp m ≠ timelineNotes fixedTimestamp n n := by
  decide

end Cassy
