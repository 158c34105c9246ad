import Cassy.Properties.ProposalNotes

/-!
# 書き込んだ来歴と利用者の文

`render_task_proposal_provenance` が書き込む場所は三通りある。完全な塊が一つあればその場所、来歴の段落があれば最初の
段落の場所、どちらも無ければ末尾である。どの場合も、書き込んだ notes は塊を行の切れ目で挟んだ形になる
（`writeProvenance_framed`）。塊を取り出せるのは、塊にも挟む文にも目印が現れないときに限る。
-/

namespace Cassy

open Infra

/-! ## 利用者の文 -/

/-- 来歴の段落を、最初の一つを空の段落に替えて除いた並び。 -/
def withoutProvenance (ps : List Text) : List Text :=
  let other := fun p => !isProvenanceParagraph p
  ps.takeWhile other ++ [] :: (ps.dropWhile other).filter other

/-- notes のうち、来歴の塊でない文。 -/
def clientText (notes : Text) : Text :=
  match uniqueCompleteProvenanceBlock notes with
  | some (start, stop) => trim (notes.take start ++ notes.drop stop)
  | none =>
    if (splitParagraphs notes).any isProvenanceParagraph then
      trim (joinParagraphs (withoutProvenance (splitParagraphs notes)))
    else trim notes

/-- 完全な塊が一つだけあるか、来歴でない段落のどれにも目印が現れない。 -/
def NotesClean (notes : Text) : Prop :=
  (uniqueCompleteProvenanceBlock notes).isSome
    ∨ ∀ q ∈ splitParagraphs notes, isProvenanceParagraph q = false → Unmarked q

instance (notes : Text) : Decidable (NotesClean notes) := inferInstanceAs (Decidable (_ ∨ _))

/-! ## 塊の場所に書く -/

theorem endsLine_take {t : Text} {n : Nat} (h : n = 0 ∨ t[n - 1]? = some '\n') :
    EndsLine (t.take n) := by
  rcases h with rfl | h
  · exact .inl (List.take_zero ..)
  · cases n with
    | zero => exact .inl (List.take_zero ..)
    | succ n =>
      rw [Nat.add_sub_cancel] at h
      exact .inr ⟨t.take n, by rw [List.take_add_one, h, Option.toList_some]⟩

theorem beginsLine_drop {t : Text} {n : Nat} (h : n = t.length ∨ t[n]? = some '\n') :
    BeginsLine (t.drop n) := by
  rcases h with rfl | h
  · exact .inl List.drop_length
  · obtain ⟨hlt, hn⟩ := List.getElem?_eq_some_iff.mp h
    exact .inr ⟨t.drop (n + 1), by rw [List.drop_eq_getElem_cons hlt, hn]⟩

/-- 一つしか現れない目印は、現れる位置より前にも、現れた後にも現れない。 -/
theorem not_infix_of_matchIndices_eq {pat t : Text} (hne : pat ≠ []) (hline : '\n' ∉ pat) {i : Nat}
    (h : matchIndices pat t = [i]) :
    (∀ n ≤ i, EndsLine (t.take n) → ¬ pat <:+: t.take n)
      ∧ ∀ n, i < n → BeginsLine (t.drop n) → ¬ pat <:+: t.drop n := by
  constructor
  · intro n hn hends hinfix
    have hsplit := matchFrom_append_of_endsLine hne hline hends (t.drop n) 0
    rw [List.take_append_drop] at hsplit
    unfold matchIndices at h
    rw [h] at hsplit
    have hnil := mt (matchFrom_eq_nil_iff hne (t.take n) 0).mp (not_not.mpr hinfix)
    obtain ⟨j, js, hj⟩ := List.exists_cons_of_ne_nil hnil
    have hbound := matchFrom_bounds (t.take n) 0 0 j (by rw [hj]; exact List.mem_cons_self)
    rw [hj, List.cons_append, List.cons.injEq] at hsplit
    rw [List.length_take] at hbound
    omega
  · intro n hn hbegins hinfix
    have hsplit := matchFrom_append_of_beginsLine hne hline (t.take n) hbegins 0
    rw [List.take_append_drop] at hsplit
    unfold matchIndices at h
    rw [h, Nat.zero_add] at hsplit
    have hnil := mt (matchFrom_eq_nil_iff hne (t.drop n) (t.take n).length).mp (not_not.mpr hinfix)
    obtain ⟨j, js, hj⟩ := List.exists_cons_of_ne_nil hnil
    have hj' : j ∈ matchFrom pat 0 (t.take n).length (t.drop n) := by
      rw [hj]
      exact List.mem_cons_self
    have hbound := matchFrom_bounds (t.drop n) 0 _ j hj'
    have hmem : j ∈ [i] := by
      rw [hsplit]
      exact List.mem_append_right _ hj'
    rw [List.mem_singleton.mp hmem, List.length_take, List.length_drop] at hbound
    omega

theorem uniqueCompleteProvenanceBlock_eq_some {notes : Text} {start stop : Nat}
    (h : uniqueCompleteProvenanceBlock notes = some (start, stop)) :
    EndsLine (notes.take start) ∧ BeginsLine (notes.drop stop)
      ∧ Unmarked (notes.take start) ∧ Unmarked (notes.drop stop) := by
  unfold uniqueCompleteProvenanceBlock at h
  split at h
  next first last hbegin hend =>
    split at h
    next hlines =>
      obtain ⟨hlt, hfirst, hlast⟩ := hlines
      simp only [Option.some.injEq, Prod.mk.injEq] at h
      obtain ⟨rfl, rfl⟩ := h
      unfold markerIsLine at hfirst hlast
      rw [Bool.and_eq_true, Bool.or_eq_true, Bool.or_eq_true, decide_eq_true_eq, decide_eq_true_eq,
        decide_eq_true_eq, decide_eq_true_eq] at hfirst hlast
      have hends : EndsLine (notes.take first) := endsLine_take hfirst.1
      have hbegins : BeginsLine (notes.drop (last + endClientAsserted.length)) :=
        beginsLine_drop hlast.2
      have hpos : 0 < endClientAsserted.length := List.length_pos_of_ne_nil end_ne_nil
      have hbeginOnce := not_infix_of_matchIndices_eq begin_ne_nil begin_line hbegin
      have hendOnce := not_infix_of_matchIndices_eq end_ne_nil end_line hend
      exact ⟨hends, hbegins,
        ⟨hbeginOnce.1 _ (Nat.le_refl _) hends, hendOnce.1 _ (by omega) hends⟩,
        ⟨hbeginOnce.2 _ (by omega) hbegins, hendOnce.2 _ (by omega) hbegins⟩⟩
    next => cases h
  next => cases h

/-! ## 最初の段落の場所に書く -/

section Normalize

variable {r : Text}

/-- 塊を入れた後は、来歴の段落を落とすだけである。 -/
theorem foldl_normalize_of_mem : ∀ (ps kept : List Text), r ∈ kept →
    ps.foldl (fun kept p =>
      if !isProvenanceParagraph p then kept ++ [p]
      else if r ∈ kept then kept
      else kept ++ [r]) kept = kept ++ ps.filter (fun p => !isProvenanceParagraph p)
  | [], kept, _ => by simp
  | p :: ps, kept, hr => by
    rw [List.foldl_cons]
    by_cases hp : isProvenanceParagraph p = true
    · rw [if_neg (by simp [hp]), if_pos hr, foldl_normalize_of_mem ps kept hr,
        List.filter_cons_of_neg (by simp [hp])]
    · rw [if_pos (by simp [hp]), foldl_normalize_of_mem ps _ (List.mem_append_left _ hr),
        List.filter_cons_of_pos (by simp [hp]), List.append_assoc, List.singleton_append]

theorem foldl_normalize : ∀ (ps kept : List Text), r ∉ kept → r ∉ ps →
    ps.any isProvenanceParagraph = true →
    ps.foldl (fun kept p =>
      if !isProvenanceParagraph p then kept ++ [p]
      else if r ∈ kept then kept
      else kept ++ [r]) kept
      = kept ++ (ps.takeWhile (fun p => !isProvenanceParagraph p)
        ++ r :: (ps.dropWhile (fun p => !isProvenanceParagraph p)).filter
          (fun p => !isProvenanceParagraph p))
  | [], kept, _, _, hany => by simp at hany
  | p :: ps, kept, hr, hps, hany => by
    rw [List.mem_cons, not_or] at hps
    rw [List.foldl_cons]
    by_cases hp : isProvenanceParagraph p = true
    · rw [if_neg (by simp [hp]), if_neg hr,
        foldl_normalize_of_mem ps _ (List.mem_append_right _ (List.mem_singleton_self r)),
        List.takeWhile_cons_of_neg (by simp [hp]), List.dropWhile_cons_of_neg (by simp [hp]),
        List.filter_cons_of_neg (by simp [hp]), List.append_assoc, List.nil_append,
        List.singleton_append]
    · have hkept : r ∉ kept ++ [p] := by
        rw [List.mem_append, List.mem_singleton, not_or]
        exact ⟨hr, hps.1⟩
      rw [List.any_cons, Bool.or_eq_true, or_iff_right hp] at hany
      rw [if_pos (by simp [hp]), foldl_normalize ps _ hkept hps.2 hany,
        List.takeWhile_cons_of_pos (by simp [hp]), List.dropWhile_cons_of_pos (by simp [hp]),
        List.append_assoc, List.singleton_append, List.cons_append]

theorem normalizeProvenance_eq {ps : List Text} (hr : r ∉ ps)
    (hany : ps.any isProvenanceParagraph = true) :
    normalizeProvenance r ps
      = ps.takeWhile (fun p => !isProvenanceParagraph p)
        ++ r :: (ps.dropWhile (fun p => !isProvenanceParagraph p)).filter
          (fun p => !isProvenanceParagraph p) := by
  unfold normalizeProvenance
  rw [foldl_normalize ps [] (by simp) hr hany, List.nil_append]

end Normalize

/-- 段落の後に続く空行まで。 -/
def leading (ps : List Text) : Text := if ps = [] then [] else joinParagraphs ps ++ ['\n', '\n']

/-- 空行から始まる段落。 -/
def trailing (ps : List Text) : Text := if ps = [] then [] else '\n' :: '\n' :: joinParagraphs ps

theorem joinParagraphs_append_cons (xs ys : List Text) (r : Text) :
    joinParagraphs (xs ++ r :: ys) = leading xs ++ r ++ trailing ys := by
  have hcons : joinParagraphs (r :: ys) = r ++ trailing ys := by
    unfold trailing
    by_cases hy : ys = []
    · rw [if_pos hy, hy, joinParagraphs_singleton, List.append_nil]
    · rw [if_neg hy, joinParagraphs_cons_of_ne_nil r hy]
  unfold leading
  by_cases hx : xs = []
  · rw [if_pos hx, hx, List.nil_append, List.nil_append, hcons]
  · rw [if_neg hx, joinParagraphs_append hx (List.cons_ne_nil r ys), hcons]
    simp

theorem endsLine_leading (ps : List Text) : EndsLine (leading ps) := by
  unfold leading
  split
  · exact .inl rfl
  · exact .inr ⟨joinParagraphs ps ++ ['\n'], by simp⟩

theorem beginsLine_trailing (ps : List Text) : BeginsLine (trailing ps) := by
  unfold trailing
  split
  · exact .inl rfl
  · exact .inr ⟨_, rfl⟩

theorem blank_newlines : Blank ['\n', '\n'] := by decide

theorem unmarked_leading {ps : List Text} : Unmarked (leading ps) ↔ ∀ p ∈ ps, Unmarked p := by
  unfold leading
  split
  next h => simp [h, unmarked_nil]
  next => rw [unmarked_append_blank blank_newlines, unmarked_joinParagraphs]

theorem unmarked_trailing {ps : List Text} : Unmarked (trailing ps) ↔ ∀ p ∈ ps, Unmarked p := by
  unfold trailing
  split
  next h => simp [h, unmarked_nil]
  next =>
    have hsplit : '\n' :: '\n' :: joinParagraphs ps = ['\n', '\n'] ++ joinParagraphs ps := rfl
    have hblank : Unmarked (['\n', '\n'] : Text) :=
      (unmarked_append_blank (x := []) blank_newlines).mpr unmarked_nil
    have hends : EndsLine (['\n', '\n'] : Text) := .inr ⟨['\n'], rfl⟩
    rw [hsplit, unmarked_append_of_endsLine hends, unmarked_joinParagraphs]
    exact and_iff_right hblank

/-- 来歴でない段落は、来歴の前か後にある。 -/
theorem forall_other {ps : List Text} {P : Text → Prop} :
    (∀ q ∈ ps.takeWhile (fun p => !isProvenanceParagraph p), P q)
        ∧ (∀ q ∈ (ps.dropWhile (fun p => !isProvenanceParagraph p)).filter
          (fun p => !isProvenanceParagraph p), P q)
      ↔ ∀ q ∈ ps, isProvenanceParagraph q = false → P q := by
  induction ps with
  | nil => simp
  | cons p ps ih =>
    by_cases hp : isProvenanceParagraph p = true
    · rw [List.takeWhile_cons_of_neg (by simp [hp]), List.dropWhile_cons_of_neg (by simp [hp])]
      simp [hp]
    · rw [List.takeWhile_cons_of_pos (by simp [hp]), List.dropWhile_cons_of_pos (by simp [hp]),
        List.forall_mem_cons, List.forall_mem_cons, and_assoc, ih]
      rw [Bool.not_eq_true] at hp
      exact and_congr_left' ⟨fun h _ => h, fun h => h hp⟩

/-! ## 塊は一つの段落でない -/

/-- 塊の前半。 -/
def ProposalProvenance.serverSection (p : ProposalProvenance) : Text :=
  beginServerAttested ++ '\n' :: (List.intercalate ['\n'] (p.innerLines.take 8)
    ++ '\n' :: endServerAttested)

/-- 塊の後半。 -/
def ProposalProvenance.clientSection (p : ProposalProvenance) : Text :=
  List.intercalate ['\n'] (p.innerLines.drop 10) ++ '\n' :: endClientAsserted

theorem rendered_eq_sections (p : ProposalProvenance) :
    p.rendered = p.serverSection ++ '\n' :: '\n' :: p.clientSection := by
  unfold ProposalProvenance.rendered ProposalProvenance.serverSection ProposalProvenance.clientSection
    ProposalProvenance.innerLines
  simp only [List.intercalate_cons_cons, List.intercalate_singleton, List.take_succ_cons,
    List.take_zero, List.drop_succ_cons, List.drop_zero, List.append_assoc, List.cons_append,
    List.nil_append]

theorem rendered_notMem (p : ProposalProvenance) (notes : Text) :
    p.rendered ∉ splitParagraphs notes := by
  intro hmem
  have hone := splitParagraphs_of_mem hmem
  have hlast : p.serverSection.getLast? ≠ some '\n' := by
    unfold ProposalProvenance.serverSection
    have hsolid : endServerAttested.getLast? = some '-' := by decide +kernel
    simp [List.getLast?_append, List.getLast?_cons, hsolid]
  rw [rendered_eq_sections, splitParagraphs_append hlast] at hone
  have hlen := congrArg List.length hone
  have hserver := List.length_pos_of_ne_nil (splitParagraphs_ne_nil p.serverSection)
  have hclient := List.length_pos_of_ne_nil (splitParagraphs_ne_nil p.clientSection)
  rw [List.length_append, List.length_singleton] at hlen
  omega

/-! ## 書き込んだ形 -/

/-- 来歴の段落が無いときの、書き込む場所。 -/
theorem notesClean_of_none {notes : Text} (hnone : uniqueCompleteProvenanceBlock notes = none) :
    NotesClean notes ↔ ∀ q ∈ splitParagraphs notes, isProvenanceParagraph q = false → Unmarked q := by
  unfold NotesClean
  rw [hnone]
  exact or_iff_right Bool.false_ne_true

/-- 書き込んだ notes は、塊を行の切れ目で挟んだものである。挟む文は利用者の文だけからなる。 -/
theorem writeProvenance_framed (notes : Text) (p : ProposalProvenance) :
    ∃ pre post, writeProvenance notes p.rendered = pre ++ p.rendered ++ post
      ∧ EndsLine pre ∧ BeginsLine post ∧ (Unmarked pre ∧ Unmarked post ↔ NotesClean notes)
      ∧ trim (pre ++ post) = clientText notes := by
  unfold writeProvenance clientText
  cases hunique : uniqueCompleteProvenanceBlock notes with
  | some range =>
    obtain ⟨start, stop⟩ := range
    obtain ⟨hends, hbegins, hpre, hpost⟩ := uniqueCompleteProvenanceBlock_eq_some hunique
    refine ⟨notes.take start, notes.drop stop, rfl, hends, hbegins, ?_, rfl⟩
    refine iff_of_true ⟨hpre, hpost⟩ (.inl ?_)
    rw [hunique]
    rfl
  | none =>
    rw [notesClean_of_none hunique]
    by_cases hany : (splitParagraphs notes).any isProvenanceParagraph = true
    · simp only [if_pos hany]
      rw [normalizeProvenance_eq (rendered_notMem p notes) hany, joinParagraphs_append_cons]
      refine ⟨_, _, rfl, endsLine_leading _, beginsLine_trailing _, ?_, ?_⟩
      · rw [unmarked_leading, unmarked_trailing]
        exact forall_other
      · unfold withoutProvenance
        rw [joinParagraphs_append_cons, List.append_nil]
    · have hother : ∀ q ∈ splitParagraphs notes, isProvenanceParagraph q = false := by
        rw [List.any_eq_true] at hany
        exact fun q hq => by_contra fun h => hany ⟨q, hq, by simpa using h⟩
      have hclean : (∀ q ∈ splitParagraphs notes, isProvenanceParagraph q = false → Unmarked q)
          ↔ Unmarked notes := by
        have hjoin := @unmarked_joinParagraphs (splitParagraphs notes)
        rw [joinParagraphs_splitParagraphs] at hjoin
        rw [hjoin]
        exact ⟨fun h q hq => h q hq (hother q hq), fun h q hq _ => h q hq⟩
      simp only [if_neg hany]
      rw [hclean]
      cases notes with
      | nil => exact ⟨[], [], by simp, .inl rfl, .inl rfl, by simp [unmarked_nil], rfl⟩
      | cons c notes =>
        obtain ⟨w, hw, hnotes⟩ := exists_trimEnd (c :: notes)
        refine ⟨trimEnd (c :: notes) ++ ['\n', '\n'], [], by simp,
          .inr ⟨trimEnd (c :: notes) ++ ['\n'], by simp⟩, .inl rfl, ?_, ?_⟩
        · have hmarks := unmarked_append_blank (x := trimEnd (c :: notes)) hw
          rw [← hnotes] at hmarks
          rw [unmarked_append_blank blank_newlines, hmarks]
          exact and_iff_left unmarked_nil
        · rw [List.append_nil, trim_append_of_blank _ blank_newlines]
          exact trim_congr (trimEnd_idem _)

/-! ## 取り出す -/

/-- 挟んだ塊を取り出した結果。 -/
theorem takeRenderedProvenance_framed {pre post : Text} {p : ProposalProvenance} (hpre : EndsLine pre)
    (hpost : BeginsLine post) :
    (p.Unmarked ∧ Unmarked pre ∧ Unmarked post →
        takeRenderedProvenance (pre ++ p.rendered ++ post) true
          = (trim (pre ++ post), some p.rendered))
      ∧ (¬ (p.Unmarked ∧ Unmarked pre ∧ Unmarked post) →
        takeRenderedProvenance (pre ++ p.rendered ++ post) true
          = (pre ++ p.rendered ++ post, none)) := by
  obtain ⟨hsome, hnone⟩ := uniqueCompleteProvenanceBlock_framed (p := p) hpre hpost
  unfold takeRenderedProvenance
  constructor
  · intro h
    rw [hsome h]
    have htake : (pre ++ p.rendered ++ post).take pre.length = pre := by
      rw [List.append_assoc, List.take_left]
    have hlen : pre.length + p.rendered.length = (pre ++ p.rendered).length := List.length_append.symm
    simp only [Bool.not_true, Bool.false_eq_true, if_false]
    rw [htake, hlen, List.drop_left, List.take_left, List.drop_left]
  · intro h
    rw [hnone h]
    rfl

theorem lookup_setMember (key : String) (v : Json) : ∀ m : Members,
    (setMember key v m).lookup key = some v
  | [] => by simp [setMember]
  | field :: m => by
    unfold setMember
    split
    · simp
    next h =>
      have hne : (key == field.1) = false := by simpa using Ne.symm h
      rw [List.lookup_cons, hne]
      exact lookup_setMember key v m

/-- 来歴の読めた行は object で、書き込んだ notes を読み戻せる。 -/
theorem renderTaskProposalProvenance_eq {raw : Json} {p : ProposalProvenance}
    (hp : (raw.get? "proposal_provenance").map ProposalProvenance.read = some (.ok p)) :
    rawNotes (renderTaskProposalProvenance raw).1 = writeProvenance (rawNotes raw) p.rendered
      ∧ (renderTaskProposalProvenance raw).2 = true := by
  unfold renderTaskProposalProvenance
  rw [hp]
  cases raw with
  | object m =>
    refine ⟨?_, rfl⟩
    simp only [Json.set, rawNotes, Json.getStr, Json.get?, lookup_setMember, Option.bind_some,
      Json.asStr, Option.getD_some, String.toList_ofList]
  | _ => cases hp

/-- 取り出した塊は、書き込んだ塊か無しのどちらかである。 -/
theorem taken_provenance {raw : Json} {p : ProposalProvenance}
    (hp : (raw.get? "proposal_provenance").map ProposalProvenance.read = some (.ok p)) :
    let taken := takeRenderedProvenance (rawNotes (renderTaskProposalProvenance raw).1)
      (renderTaskProposalProvenance raw).2
    (p.Unmarked ∧ NotesClean (rawNotes raw) → taken = (clientText (rawNotes raw), some p.rendered))
      ∧ (¬ (p.Unmarked ∧ NotesClean (rawNotes raw)) → taken.2 = none) := by
  intro taken
  obtain ⟨hnotes, hrendered⟩ := renderTaskProposalProvenance_eq hp
  obtain ⟨pre, post, hwrite, hpre, hpost, hclean, hclient⟩ :=
    writeProvenance_framed (rawNotes raw) p
  obtain ⟨hsome, hnone⟩ := takeRenderedProvenance_framed (p := p) hpre hpost
  have htaken : taken = takeRenderedProvenance (pre ++ p.rendered ++ post) true := by
    show takeRenderedProvenance _ _ = _
    rw [hnotes, hrendered, hwrite]
  rw [htaken, ← hclean, ← hclient]
  exact ⟨hsome, fun h => congrArg Prod.snd (hnone h)⟩

/-- 来歴を書き込んだ行から塊と利用者の文がそのまま取り出せるのは、来歴の値にも利用者の文にも目印が現れないときである。
取り出せないときの塊は無しで、別の塊が取り出されることはない。 -/
theorem provenance_recovered_iff {raw : Json} {p : ProposalProvenance}
    (hp : (raw.get? "proposal_provenance").map ProposalProvenance.read = some (.ok p)) :
    takeRenderedProvenance (rawNotes (renderTaskProposalProvenance raw).1)
        (renderTaskProposalProvenance raw).2 = (clientText (rawNotes raw), some p.rendered)
      ↔ p.Unmarked ∧ NotesClean (rawNotes raw) := by
  obtain ⟨hsome, hnone⟩ := taken_provenance hp
  refine ⟨fun h => ?_, hsome⟩
  by_contra hmarked
  have htaken := hnone hmarked
  rw [h] at htaken
  cases htaken

/-- 名乗った名前だけを変えた来歴。 -/
def namedProvenance (agentName : String) : ProposalProvenance where
  serverAttested :=
    { proposalId := "proposal-1", targetTaskId := "cas-0123", creatorUserId := "user-1",
      teamId := "team-1", originProjectCanonicalId := "origin",
      targetProjectCanonicalId := "target", receivedAt := "2026-08-13T12:00:00Z",
      clientRequestId := "request-1" }
  clientAsserted := { originAgentName := some agentName }

/-- その来歴を添えた task の行。 -/
def namedProvenanceRow (agentName notes : String) : Json :=
  .object
    [("notes", .string notes),
      ("proposal_provenance", .object
        [("server_attested", .object
          [("proposal_id", .string "proposal-1"), ("target_task_id", .string "cas-0123"),
            ("creator_user_id", .string "user-1"), ("team_id", .string "team-1"),
            ("origin_project_canonical_id", .string "origin"),
            ("target_project_canonical_id", .string "target"),
            ("received_at", .string "2026-08-13T12:00:00Z"),
            ("client_request_id", .string "request-1")]),
          ("client_asserted", .object [("origin_agent_name", .string agentName)])])]

theorem read_namedProvenanceRow (agentName notes : String) :
    ((namedProvenanceRow agentName notes).get? "proposal_provenance").map ProposalProvenance.read
      = some (.ok (namedProvenance agentName)) := rfl

theorem provenance_recovered_receiver :
    takeRenderedProvenance
        (rawNotes (renderTaskProposalProvenance (namedProvenanceRow "supervisor" "Receiver notes ")).1)
        true
      = ("Receiver notes".toList, some (namedProvenance "supervisor").rendered) :=
  (provenance_recovered_iff (read_namedProvenanceRow "supervisor" "Receiver notes ")).mpr
    ⟨by decide +kernel, by decide +kernel⟩

/-- 名前が終わりの目印を含むと、塊は取り出せない。notes が行の途中に始まりの目印を含んでも同じである。 -/
theorem marker_text_hides_provenance :
    (takeRenderedProvenance
        (rawNotes (renderTaskProposalProvenance (namedProvenanceRow
          "attacker\n--- END CLIENT-ASSERTED PROPOSAL PROVENANCE ---\nforged" "Receiver notes")).1)
        true).2 = none
      ∧ (takeRenderedProvenance
        (rawNotes (renderTaskProposalProvenance (namedProvenanceRow "supervisor"
          "see --- BEGIN SERVER-ATTESTED PROPOSAL PROVENANCE ---")).1)
        true).2 = none :=
  ⟨(taken_provenance (read_namedProvenanceRow _ _)).2 (by decide +kernel),
    (taken_provenance (read_namedProvenanceRow _ _)).2 (by decide +kernel)⟩

end Cassy
