import Cassy.Properties.Forgery

/-!
# 塊の切り出しと無効化した行

信用されない書き込みだけを受けた notes には予約行が立たない。無効化は行の頭に空白を一つ足す
だけなので、`note_blocks` が塊の頭の空白を落とすと、塊の先頭に置かれた行は予約行に戻る。

戻る行が無いのは丁度、空白を除けば予約行で始まる段落が、どれも時刻で始まる記録の途中に
あるときである（`Sheltered`）。
-/

namespace Cassy

open Infra

/-! ## 文字列の先頭の行 -/

theorem isReservedLine_append_newline (x y : Text) :
    isReservedLine (x ++ '\n' :: y) = isReservedLine x := by
  rw [Bool.eq_iff_iff, isReservedLine_iff, isReservedLine_iff]
  refine exists_congr fun m => and_congr_right fun hm => ?_
  exact prefix_append_newline (reservedMarkers_solid m hm).2.2

/-- 予約行で始まるかは、先頭の行で決まる。 -/
theorem isReservedLine_head {t l : Text} {ls : List Text} (h : splitLines t = l :: ls) :
    isReservedLine t = isReservedLine l := by
  rcases exists_of_splitLines_cons h with rfl | ⟨rest, rfl⟩
  · rfl
  · exact isReservedLine_append_newline l rest

theorem marks_eq_nil_iff {t : Text} : marks t = [] ↔ ∀ l ∈ splitLines t, isReservedLine l = false := by
  rw [List.eq_nil_iff_forall_not_mem]
  constructor
  · intro h l hl
    rw [← Bool.not_eq_true]
    exact fun hr => h _ (mem_marks.mpr ⟨by rw [isReservedLine_trimEnd]; exact hr, l, hl, rfl⟩)
  · intro h m hm
    obtain ⟨hr, l, hl, rfl⟩ := mem_marks.mp hm
    rw [isReservedLine_trimEnd, h l hl] at hr
    simp at hr

theorem not_reserved_of_marks {t : Text} (h : marks t = []) : isReservedLine t = false := by
  obtain ⟨l, ls, hl⟩ := List.exists_cons_of_ne_nil (splitLines_ne_nil t)
  rw [isReservedLine_head hl]
  exact marks_eq_nil_iff.mp h l (by rw [hl]; exact List.mem_cons_self)

theorem lines_clean_iff {t : Text} :
    (∀ l ∈ lines t, isReservedLine l = false) ↔ marks t = [] := by
  rw [List.eq_nil_iff_forall_not_mem]
  constructor
  · intro h m hm
    obtain ⟨l, hl, hr, -⟩ := exists_mem_lines_of_mem_marks hm
    rw [h l hl] at hr
    simp at hr
  · intro h l hl
    rw [← Bool.not_eq_true]
    exact fun hr => h _ (mem_marks_of_mem_lines hl hr)

/-- 予約行の無い notes の塊は、先頭が予約行でなければ予約行を持たない。 -/
theorem Placed.lines_clean_iff {notes : Text} {s : Span} (hp : Placed notes s)
    (hnotes : marks notes = []) :
    (∀ l ∈ lines s.text, isReservedLine l = false) ↔ isReservedLine s.text = false := by
  rw [Cassy.lines_clean_iff]
  refine ⟨not_reserved_of_marks, fun hhead => ?_⟩
  obtain ⟨x, y, rfl, -, -, hy⟩ := hp
  rw [← List.append_assoc, marks_append_of_blankHead hy, List.append_eq_nil_iff] at hnotes
  obtain ⟨xs, x₁, y₁, ys, -, hs, hxs⟩ := splitLines_append x s.text
  rw [marks_eq_nil_iff] at hnotes ⊢
  rw [hs]
  intro l hl
  rcases List.mem_cons.mp hl with rfl | hl
  · rw [← isReservedLine_head hs]
    exact hhead
  · exact hnotes.1 l (by rw [hxs]; simp [hl])

/-! ## 時刻で始まる記録 -/

section Entries

variable {parseTimestamp : Text → Bool}

theorem isTimestampedNote_append {x : Text} (h : isTimestampedNote parseTimestamp x = true)
    (y : Text) : isTimestampedNote parseTimestamp (x ++ y) = true := by
  unfold isTimestampedNote at h
  split at h
  · next rest =>
    split at h
    · next ts tail hsplit =>
      rw [List.cons_append, isTimestampedNote, splitBytes_append hsplit]
      exact h
    · simp at h
  · simp at h

theorem head?_of_isTimestampedNote {x : Text} (h : isTimestampedNote parseTimestamp x = true) :
    x.head? = some '[' := by
  unfold isTimestampedNote at h
  split at h
  · rfl
  · simp at h

theorem trimStart_ne_nil_of_timestamped {x : Text}
    (h : isTimestampedNote parseTimestamp (trim x) = true) : trimStart x ≠ [] := by
  intro hnil
  rw [trim, hnil, trimEnd_eq_nil_of_blank blank_nil] at h
  simp [isTimestampedNote] at h

/-- 時刻で始まる塊に段落を足しても、時刻で始まる。 -/
theorem isTimestampedNote_trim_append {x : Text}
    (h : isTimestampedNote parseTimestamp (trim x) = true) (y : Text) :
    isTimestampedNote parseTimestamp (trim (x ++ y)) = true := by
  obtain ⟨w, hw, ht⟩ := exists_trimEnd (trimStart x)
  have hpre : trim x <+: trim (x ++ y) := by
    rw [trim, trim, trimStart_append (trimStart_ne_nil_of_timestamped h), ht, List.append_assoc,
      ← ht]
    exact prefix_trimEnd_append (trimEnd_idem _) _
  obtain ⟨z, hz⟩ := hpre
  rw [← hz]
  exact isTimestampedNote_append h z

/-- 空白を除けば予約行で始まる文字列は、時刻で始まらない。 -/
theorem not_timestamped_of_reserved {p : Text} (h : isReservedLine (trimStart p) = true)
    (rest : Text) : isTimestampedNote parseTimestamp (p ++ rest) = false := by
  have hheads : ∀ m ∈ reservedMarkers, m.head?.any (· ≠ '[') = true := by decide
  obtain ⟨m, hm, hpre⟩ := isReservedLine_iff.mp h
  rw [← Bool.not_eq_true]
  intro hts
  have hhead := head?_of_isTimestampedNote hts
  cases p with
  | nil =>
    rw [show trimStart [] = [] from rfl, isReservedLine_nil] at h
    simp at h
  | cons c cs =>
    rw [List.cons_append, List.head?_cons, Option.some.injEq] at hhead
    have htrim : trimStart (c :: cs) = c :: cs := by
      rw [hhead]
      rfl
    have hbracket := hheads m hm
    rw [htrim, hhead] at hpre
    cases m with
    | nil => simp at hbracket
    | cons d ds =>
      rw [List.cons_prefix_cons] at hpre
      simp [hpre.1] at hbracket

/-! ## 戻る行の無い切り出し -/

/-- 予約行の無い残りの前では、塊が始まるかは時刻だけで決まる。 -/
theorem startsBlock_of_marks {block next : Text} (h : marks next = []) :
    startsBlock parseTimestamp block next
      = (isTimestampedNote parseTimestamp next
        || !isTimestampedNote parseTimestamp (trim block)) := by
  have hproof : (lines next).head?.any isProofLine = false := by
    rw [← Bool.not_eq_true, Option.any_eq_true]
    rintro ⟨l, hl, hr⟩
    have hclean := lines_clean_iff.mpr h l (List.mem_of_head? hl)
    rw [isReservedLine, hr] at hclean
    simp at hclean
  have hbegin : provenanceMarkers.any (·.1.isPrefixOf next) = false := by
    rw [← Bool.not_eq_true, List.any_eq_true]
    rintro ⟨m, hm, hpre⟩
    have hclean := not_reserved_of_marks h
    have hprov : isProvenanceLine next = true :=
      List.any_eq_true.mpr ⟨m, hm, by rw [hpre, Bool.true_or]⟩
    rw [isReservedLine, hprov] at hclean
    simp at hclean
  rw [startsBlock, hproof, hbegin, Bool.or_false, Bool.or_false]

/--
段落を左から見て、塊の先頭の段落がどれも予約行に戻らないこと。

`entry` は、今の塊が時刻で始まる記録かどうか。
-/
def QuietFrom (parseTimestamp : Text → Bool) (entry : Bool) : List Text → Prop
  | [] => True
  | p :: ps =>
    if isTimestampedNote parseTimestamp (joinParagraphs (p :: ps)) || !entry then
      isReservedLine (trimStart p) = false
        ∧ QuietFrom parseTimestamp (isTimestampedNote parseTimestamp (trim p)) ps
    else QuietFrom parseTimestamp entry ps

theorem isReservedLine_trim (t : Text) : isReservedLine (trim t) = isReservedLine (trimStart t) :=
  isReservedLine_trimEnd (trimStart t)

/-- 切り出した塊の先頭が予約行でないのは、段落が `QuietFrom` のときである。 -/
theorem noteBlocksFrom_quiet_iff {block : Span} {ps : List Text} (h : ∀ p ∈ ps, marks p = []) :
    (∀ s ∈ noteBlocksFrom parseTimestamp block ps, isReservedLine s.text = false)
      ↔ isReservedLine (trimStart block.text) = false
        ∧ QuietFrom parseTimestamp (isTimestampedNote parseTimestamp (trim block.text)) ps := by
  induction ps generalizing block with
  | nil => simp [noteBlocksFrom, QuietFrom, Span.trim, isReservedLine_trim]
  | cons p ps ih =>
    have hps : ∀ q ∈ ps, marks q = [] := fun q hq => h q (List.mem_cons_of_mem _ hq)
    have hnext : marks (joinParagraphs (p :: ps)) = [] := by
      rw [marks_joinParagraphs, List.flatMap_eq_nil_iff]
      exact h
    rw [noteBlocksFrom, startsBlock_of_marks hnext, QuietFrom]
    split
    · rw [List.forall_mem_cons, ih hps, Span.trim, isReservedLine_trim]
    · next hstays =>
      simp only [Bool.or_eq_true, not_or, Bool.not_eq_true, Bool.not_eq_false'] at hstays
      -- 今の塊は時刻で始まるので、段落を足しても先頭は変わらない。
      have hts := hstays.2
      have hhead : isReservedLine (trimStart (block.text ++ '\n' :: '\n' :: p))
          = isReservedLine (trimStart block.text) := by
        rw [trimStart_append (trimStart_ne_nil_of_timestamped hts), isReservedLine_append_newline]
      rw [ih hps, hhead, isTimestampedNote_trim_append hts, hts]

/-! ## 記録の途中の段落 -/

/-- `vs` のどの段落も時刻で始まらない。`rest` は `vs` の後の段落。 -/
def Untimed (parseTimestamp : Text → Bool) (vs rest : List Text) : Prop :=
  ∀ a v b, vs = a ++ v :: b →
    isTimestampedNote parseTimestamp (joinParagraphs (v :: b ++ rest)) = false

/-- `before` の中で時刻で始まる記録が、`rest` の手前まで続いている。 -/
def InEntry (parseTimestamp : Text → Bool) (before rest : List Text) : Prop :=
  ∃ us q vs, before = us ++ q :: vs ∧ isTimestampedNote parseTimestamp (trim q) = true
    ∧ Untimed parseTimestamp vs rest

/-- 空白を除けば予約行で始まる段落は、どれも時刻で始まる記録の途中にある。 -/
def Sheltered (parseTimestamp : Text → Bool) (notes : Text) : Prop :=
  ∀ before p after, splitParagraphs notes = before ++ p :: after →
    isReservedLine (trimStart p) = true → InEntry parseTimestamp before (p :: after)

theorem untimed_nil (rest : List Text) : Untimed parseTimestamp [] rest := by
  intro a v b h
  simp at h

theorem untimed_cons {v : Text} {vs rest : List Text} :
    Untimed parseTimestamp (v :: vs) rest
      ↔ isTimestampedNote parseTimestamp (joinParagraphs (v :: vs ++ rest)) = false
        ∧ Untimed parseTimestamp vs rest := by
  constructor
  · intro h
    exact ⟨h [] v vs rfl, fun a u b heq => h (v :: a) u b (by rw [heq, List.cons_append])⟩
  · rintro ⟨hv, hvs⟩ a u b heq
    cases a with
    | nil =>
      rw [List.nil_append, List.cons.injEq] at heq
      rw [← heq.1, ← heq.2]
      exact hv
    | cons a₁ as =>
      rw [List.cons_append, List.cons.injEq] at heq
      exact hvs as u b heq.2

theorem inEntry_cons {q : Text} {vs rest : List Text} :
    InEntry parseTimestamp (q :: vs) rest
      ↔ (isTimestampedNote parseTimestamp (trim q) = true ∧ Untimed parseTimestamp vs rest)
        ∨ InEntry parseTimestamp vs rest := by
  constructor
  · rintro ⟨us, q', vs', heq, hq, hvs⟩
    cases us with
    | nil =>
      rw [List.nil_append, List.cons.injEq] at heq
      obtain ⟨rfl, rfl⟩ := heq
      exact Or.inl ⟨hq, hvs⟩
    | cons u us =>
      rw [List.cons_append, List.cons.injEq] at heq
      exact Or.inr ⟨us, q', vs', heq.2, hq, hvs⟩
  · rintro (⟨hq, hvs⟩ | ⟨us, q', vs', rfl, hq, hvs⟩)
    · exact ⟨[], q, vs, rfl, hq, hvs⟩
    · exact ⟨q :: us, q', vs', rfl, hq, hvs⟩

theorem not_inEntry_nil (rest : List Text) : ¬ InEntry parseTimestamp [] rest := by
  rintro ⟨us, q, vs, h, -⟩
  simp at h

/-- 途中の段落から見た `Sheltered`。`entry` は、手前の記録が続いているかどうか。 -/
def ShelteredFrom (parseTimestamp : Text → Bool) (entry : Bool) (ps : List Text) : Prop :=
  ∀ before p after, ps = before ++ p :: after → isReservedLine (trimStart p) = true →
    (entry = true ∧ Untimed parseTimestamp before (p :: after))
      ∨ InEntry parseTimestamp before (p :: after)

/-- 先頭の段落を読み進めたときの `ShelteredFrom`。 -/
theorem shelteredFrom_cons {entry : Bool} {p : Text} {ps : List Text} :
    ShelteredFrom parseTimestamp entry (p :: ps)
      ↔ (isReservedLine (trimStart p) = true → entry = true)
        ∧ ShelteredFrom parseTimestamp
          ((entry && !isTimestampedNote parseTimestamp (joinParagraphs (p :: ps)))
            || isTimestampedNote parseTimestamp (trim p)) ps := by
  constructor
  · intro h
    refine ⟨fun hr => ?_, fun before q after heq hr => ?_⟩
    · rcases h [] p ps rfl hr with ⟨hentry, -⟩ | hin
      · exact hentry
      · exact absurd hin (not_inEntry_nil _)
    · subst heq
      rcases h (p :: before) q after rfl hr with ⟨hentry, huntimed⟩ | hin
      · rw [untimed_cons] at huntimed
        refine Or.inl ⟨?_, huntimed.2⟩
        rw [hentry, ← List.cons_append, huntimed.1]
        rfl
      · rcases inEntry_cons.mp hin with ⟨hp, huntimed⟩ | hin
        · exact Or.inl ⟨by rw [hp, Bool.or_true], huntimed⟩
        · exact Or.inr hin
  · rintro ⟨hhead, hrest⟩ before q after heq hr
    cases before with
    | nil =>
      rw [List.nil_append, List.cons.injEq] at heq
      exact Or.inl ⟨hhead (heq.1 ▸ hr), untimed_nil _⟩
    | cons b before =>
      rw [List.cons_append, List.cons.injEq] at heq
      obtain ⟨rfl, rfl⟩ := heq
      rcases hrest before q after rfl hr with ⟨hentry, huntimed⟩ | hin
      · rw [Bool.or_eq_true, Bool.and_eq_true, Bool.not_eq_true'] at hentry
        rcases hentry with ⟨hentry, hts⟩ | hp
        · exact Or.inl ⟨hentry, untimed_cons.mpr ⟨hts, huntimed⟩⟩
        · exact Or.inr (inEntry_cons.mpr (Or.inl ⟨hp, huntimed⟩))
      · exact Or.inr (inEntry_cons.mpr (Or.inr hin))

theorem quietFrom_iff {entry : Bool} {ps : List Text} :
    QuietFrom parseTimestamp entry ps ↔ ShelteredFrom parseTimestamp entry ps := by
  induction ps generalizing entry with
  | nil =>
    refine ⟨fun _ before p after h => ?_, fun _ => trivial⟩
    simp at h
  | cons p ps ih =>
    rw [shelteredFrom_cons, QuietFrom]
    split
    · next hstarts =>
      have hentry : (entry && !isTimestampedNote parseTimestamp (joinParagraphs (p :: ps))) = false := by
        cases entry with
        | false => rfl
        | true => simpa using hstarts
      -- 時刻で始まる段落は予約行に戻らないので、記録の外の段落だけを見ればよい。
      have hhead : isReservedLine (trimStart p) = false
          ↔ (isReservedLine (trimStart p) = true → entry = true) := by
        rw [← Bool.not_eq_true]
        refine ⟨fun h hr => absurd hr h, fun h hr => ?_⟩
        obtain ⟨rest, hjoin⟩ := exists_joinParagraphs_cons p ps
        rw [hjoin, not_timestamped_of_reserved hr, h hr] at hstarts
        simp at hstarts
      rw [ih, hhead, hentry, Bool.false_or]
    · next hstays =>
      simp only [Bool.or_eq_true, not_or, Bool.not_eq_true, Bool.not_eq_false'] at hstays
      rw [ih, hstays.1, hstays.2]
      simp

/-- `note_blocks` の塊に予約行が無いのは、段落が `Sheltered` のときである。 -/
theorem noteBlocks_clean_iff {notes : Text} (h : marks notes = []) :
    (∀ s ∈ noteBlocks parseTimestamp notes, ∀ l ∈ lines s.text, isReservedLine l = false)
      ↔ Sheltered parseTimestamp notes := by
  have hheads : (∀ s ∈ noteBlocks parseTimestamp notes, ∀ l ∈ lines s.text, isReservedLine l = false)
      ↔ ∀ s ∈ noteBlocks parseTimestamp notes, isReservedLine s.text = false :=
    forall₂_congr fun s hs => ((noteBlocks_layout parseTimestamp notes).1 s hs).lines_clean_iff h
  obtain ⟨p, ps, hsplit⟩ := List.exists_cons_of_ne_nil (splitParagraphs_ne_nil notes)
  have hparts : ∀ q ∈ p :: ps, marks q = [] := by
    rw [← hsplit, ← List.flatMap_eq_nil_iff, ← marks_joinParagraphs, joinParagraphs_splitParagraphs]
    exact h
  -- 空の塊は捨てられるが、空の塊は予約行を持たない。
  have hfilter : (∀ s ∈ noteBlocks parseTimestamp notes, isReservedLine s.text = false)
      ↔ ∀ s ∈ noteBlocksFrom parseTimestamp { start := 0, text := p } ps,
        isReservedLine s.text = false := by
    rw [noteBlocks, hsplit]
    refine ⟨fun h s hs => ?_, fun h s hs => h s (List.mem_filter.mp hs).1⟩
    by_cases hempty : s.text = []
    · rw [hempty]
      exact isReservedLine_nil
    · exact h s (List.mem_filter.mpr ⟨hs, by simpa using hempty⟩)
  rw [hheads, hfilter, noteBlocksFrom_quiet_iff fun q hq => hparts q (List.mem_cons_of_mem _ hq),
    quietFrom_iff, Sheltered, hsplit]
  have hstart : ShelteredFrom parseTimestamp false (p :: ps)
      ↔ ∀ before q after, p :: ps = before ++ q :: after → isReservedLine (trimStart q) = true →
        InEntry parseTimestamp before (q :: after) := by
    simp [ShelteredFrom]
  rw [← hstart, shelteredFrom_cons]
  simp

end Entries

/-! ## 信用されない書き込みだけの実行 -/

/-- 信用された追記か。 -/
def NoteOp.isTrusted : NoteOp → Bool
  | .appendTrustedNote _ _ _ => true
  | _ => false

theorem trustedNotes_eq_nil {parseTimestamp : Text → Bool} {db : ProofDb} {ops : List NoteOp}
    (h : ∀ op ∈ ops, op.isTrusted = false) (id : String) :
    trustedNotes id (trace (noteStep parseTimestamp) db ops) = [] := by
  refine List.filterMap_eq_nil_iff.mpr fun e he => ?_
  obtain ⟨pre, post, hops, -, -⟩ := exists_split_of_mem_trace he
  have hop := h e.op (by rw [hops]; simp)
  split
  · next heq _ => simp [heq, NoteOp.isTrusted] at hop
  · rfl

/--
**信用されない書き込みだけの notes から切り出した塊に、予約行が戻らない条件。**

空白を除けば予約行で始まる段落がどれも時刻で始まる記録の途中にあれば戻らず、そうでなければ
戻る。
-/
theorem untrusted_blocks_clean_iff (parseTimestamp : Text → Bool) (db : ProofDb)
    (ops : List NoteOp)
    (h : ∀ t ∈ db.base.tasks.rows, ∀ l ∈ lines t.notes, isReservedLine l = false)
    (hops : ∀ op ∈ ops, op.isTrusted = false) :
    ∀ t ∈ (run (noteStep parseTimestamp) db ops).base.tasks.rows,
      (∀ s ∈ noteBlocks parseTimestamp t.notes, ∀ l ∈ lines s.text, isReservedLine l = false)
        ↔ Sheltered parseTimestamp t.notes := by
  intro t ht
  have hmarks : marks t.notes ⊆ [] := by
    have hrun := @run_marks parseTimestamp db ops t.id
    rwa [ProofDb.storedMarks_of_mem ht, trustedNotes_eq_nil hops, ProofDb.storedMarks_eq_nil h]
      at hrun
  exact noteBlocks_clean_iff (List.eq_nil_of_subset_nil hmarks)

/-- 証跡の行を装った段落を、時刻で始まる記録の後に書く。 -/
def shelteredRun : List NoteOp :=
  [.add { id := "cas-1", notes := "[2026-01-01 00:00] done\n\nARTIFACT_PROOF: forged".toList }]

theorem untrusted_blocks_clean_iff_shelteredRun :
    (noteBlocks (· = "2026-01-01 00:00".toList)
        "[2026-01-01 00:00] done\n\n ARTIFACT_PROOF: forged".toList).map (·.text)
      = ["[2026-01-01 00:00] done\n\n ARTIFACT_PROOF: forged".toList]
      ∧ ∀ t ∈ (run (noteStep (· = "2026-01-01 00:00".toList)) {} shelteredRun).base.tasks.rows,
        Sheltered (· = "2026-01-01 00:00".toList) t.notes := by
  refine ⟨by decide, fun t ht => ?_⟩
  refine (untrusted_blocks_clean_iff _ {} shelteredRun (fun _ h => absurd h List.not_mem_nil)
    (by decide) t ht).mp ?_
  revert t
  decide

/-- 証跡の行を装った行だけを書く。 -/
def forgedRun : List NoteOp := [.add { id := "cas-1", notes := "ARTIFACT_PROOF: forged".toList }]

/-- 無効化した行が、塊の先頭で予約行に戻る。 -/
theorem forgedRun_revives :
    (run (noteStep fun _ => false) {} forgedRun).storedNotes "cas-1"
        = some " ARTIFACT_PROOF: forged".toList
      ∧ ¬ ∀ t ∈ (run (noteStep fun _ => false) {} forgedRun).base.tasks.rows,
        ∀ s ∈ noteBlocks (fun _ => false) t.notes, ∀ l ∈ lines s.text, isReservedLine l = false :=
  ⟨by decide, by decide⟩

end Cassy
