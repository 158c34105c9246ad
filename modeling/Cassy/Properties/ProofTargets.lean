import Mathlib.Algebra.Ring.Nat
import Cassy.Infra.Lines
import Cassy.Task.ProofTargets

/-!
# 証明の対象の往復

保存した対象の列を読むと、整えた列をもう一度整えたものになる。一度の整えは引用符を一重だけ外し、括弧で始まる列を繋いで
読み直すので、二度目にまた外れたり切れたりすることがある。そうならないのは、次のときであり、そのときに限る。

* どの要素も、JSON の文字列を中身とする JSON の文字列ではない
* 最初の対象が `[` で始まるなら、コンマを含む対象は無く、対象をコンマで繋いでも JSON の列としては読めない

二つめの必要性は長さで示す。JSON の列として読めるなら、読んだものは引用符と括弧の分だけ短い。
-/

namespace Cassy

open Infra

/-! ## 重複を除く -/

section Dups

variable {α : Type} [BEq α] [LawfulBEq α]

omit [LawfulBEq α] in
theorem eraseDups_sublist : ∀ l : List α, l.eraseDups.Sublist l
  | [] => List.Sublist.refl _
  | a :: l => by
    rw [List.eraseDups_cons]
    exact ((eraseDups_sublist (l.filter fun b => !b == a)).trans List.filter_sublist).cons_cons a
termination_by l => l.length
decreasing_by exact Nat.lt_succ_of_le (List.length_filter_le _ l)

theorem eraseDups_of_nodup : ∀ {l : List α}, l.Nodup → l.eraseDups = l
  | [], _ => rfl
  | a :: l, h => by
    obtain ⟨ha, hl⟩ := List.nodup_cons.mp h
    have hfilter : (l.filter fun b => !b == a) = l := by
      refine List.filter_eq_self.mpr ?_
      intro b hb
      rw [Bool.not_eq_true', beq_eq_false_iff_ne]
      rintro rfl
      exact ha hb
    rw [List.eraseDups_cons, hfilter, eraseDups_of_nodup hl]

theorem nodup_eraseDups : ∀ l : List α, l.eraseDups.Nodup
  | [] => List.nodup_nil
  | a :: l => by
    rw [List.eraseDups_cons, List.nodup_cons]
    refine ⟨?_, nodup_eraseDups _⟩
    rw [List.mem_eraseDups, List.mem_filter]
    rintro ⟨-, h⟩
    rw [beq_self_eq_true] at h
    exact absurd h (by decide)
termination_by l => l.length
decreasing_by exact Nat.lt_succ_of_le (List.length_filter_le _ l)

end Dups

variable {json : JsonStrings}

/-! ## 整えたもの -/

/-- 列の対象。空でないものを、初めに現れた順に、一度ずつ。 -/
def distinctTargets (json : JsonStrings) (entries : List Text) : List Text :=
  ((entries.map (proofTarget json)).filter fun t => t ≠ []).eraseDups

theorem foldl_pushTarget : ∀ (entries acc : List Text), entries.foldl (pushTarget json) acc
    = acc ++ (((entries.map (proofTarget json)).filter fun t => t ≠ []).filter
      fun t => t ∉ acc).eraseDups
  | [], acc => (List.append_nil acc).symm
  | e :: entries, acc => by
    rw [List.foldl_cons, foldl_pushTarget entries, List.map_cons]
    unfold pushTarget
    dsimp only
    generalize proofTarget json e = t
    generalize entries.map (proofTarget json) = ts
    by_cases hempty : t = []
    · rw [if_pos (Or.inl hempty), List.filter_cons_of_neg (by simpa using hempty)]
    by_cases hold : t ∈ acc
    · rw [if_pos (Or.inr hold), List.filter_cons_of_pos (by simpa using hempty),
        List.filter_cons_of_neg (by simpa using hold)]
    · -- 新しい対象は、後ろの同じものを除いて足される
      have hfilter : ∀ us : List Text, (us.filter fun u => u ∉ acc ++ [t])
          = (us.filter fun u => u ∉ acc).filter fun u => !u == t := by
        intro us
        rw [List.filter_filter]
        refine List.filter_congr ?_
        intro u _
        by_cases hu : u = t
        · simp [hu]
        · simp [hu]
      rw [if_neg (not_or.mpr ⟨hempty, hold⟩), List.filter_cons_of_pos (by simpa using hempty),
        List.filter_cons_of_pos (by simpa using hold), List.eraseDups_cons, hfilter, List.append_assoc]
      rfl

theorem normalizeProofTargets_eq (targets : List Text) :
    normalizeProofTargets json targets = distinctTargets json (repairedEntries json targets) := by
  unfold normalizeProofTargets
  rw [foldl_pushTarget, List.nil_append]
  unfold distinctTargets
  congr 1
  refine List.filter_eq_self.mpr ?_
  intro t _
  exact decide_eq_true List.not_mem_nil

theorem mem_distinctTargets {entries : List Text} {t : Text} :
    t ∈ distinctTargets json entries ↔ (∃ e ∈ entries, proofTarget json e = t) ∧ t ≠ [] := by
  unfold distinctTargets
  rw [List.mem_eraseDups, List.mem_filter, List.mem_map, decide_eq_true_eq]

theorem nodup_distinctTargets (entries : List Text) : (distinctTargets json entries).Nodup :=
  nodup_eraseDups _

theorem distinctTargets_sublist (entries : List Text) :
    (distinctTargets json entries).Sublist (entries.map (proofTarget json)) :=
  (eraseDups_sublist _).trans List.filter_sublist

/-! ## 長さ -/

/-- 文字の数。 -/
def weight (l : List Text) : Nat := (l.map List.length).sum

theorem weight_cons (t : Text) (l : List Text) : weight (t :: l) = t.length + weight l := rfl

theorem weight_append (l m : List Text) : weight (l ++ m) = weight l + weight m := by
  unfold weight
  rw [List.map_append, List.sum_append]

theorem weight_le_of_sublist {l m : List Text} (h : l.Sublist m) : weight l ≤ weight m := by
  induction h with
  | slnil => exact Nat.le_refl 0
  | cons t _ ih => exact Nat.le_trans ih (Nat.le_add_left _ _)
  | cons_cons t _ ih => exact Nat.add_le_add_left ih _

theorem sum_length_add_three (l : List Text) :
    (l.map fun t => t.length + 3).sum = weight l + 3 * l.length := by
  induction l with
  | nil => rfl
  | cons t l ih =>
    rw [List.map_cons, List.sum_cons, ih, weight_cons, List.length_cons]
    omega

theorem length_intercalate : ∀ {l : List Text}, l ≠ [] →
    (List.intercalate [','] l).length + 1 = weight l + l.length
  | [t], _ => by
    rw [List.intercalate_singleton]
    rfl
  | t :: u :: l, _ => by
    have ih := @length_intercalate (u :: l) (List.cons_ne_nil u l)
    rw [List.intercalate_cons_cons, List.length_append, List.length_append, weight_cons]
    simp only [List.length_cons, List.length_nil] at ih ⊢
    omega

theorem weight_splitOn (t : Text) : t.length + 1 = weight (t.splitOn ',') + (t.splitOn ',').length := by
  have h := length_intercalate (List.splitOn_ne_nil ',' t)
  rwa [List.intercalate_splitOn] at h

theorem length_proofTarget_le (e : Text) : (proofTarget json e).length ≤ e.length := by
  have htrim := length_trim_le e
  unfold proofTarget
  dsimp only
  refine Nat.le_trans (length_trim_le _) ?_
  cases hunquote : json.unquote (trim e) with
  | none => exact htrim
  | some s => exact Nat.le_trans (Nat.le_of_lt (json.unquote_length hunquote)) htrim

/-- 対象が要素と同じ長さなら、空白も引用符も外れていない。 -/
theorem proofTarget_eq_of_length {e : Text} (h : (proofTarget json e).length = e.length) :
    proofTarget json e = e ∧ json.unquote e = none := by
  have htrim := length_trim_le e
  unfold proofTarget at h ⊢
  dsimp only at h ⊢
  cases hunquote : json.unquote (trim e) with
  | some s =>
    have hs := json.unquote_length hunquote
    rw [hunquote, Option.getD_some] at h
    have := length_trim_le s
    omega
  | none =>
    rw [hunquote, Option.getD_none, trim_idem] at h
    have he := trim_eq_of_length h
    rw [he] at hunquote
    rw [Option.getD_none, trim_idem]
    exact ⟨he, hunquote⟩

theorem proofTarget_of_unquote_none {e : Text} (htrim : trim e = e) (h : json.unquote e = none) :
    proofTarget json e = e := by
  unfold proofTarget
  dsimp only
  rw [htrim, h, Option.getD_none, htrim]

theorem weight_map_proofTarget_le (entries : List Text) :
    weight (entries.map (proofTarget json)) ≤ weight entries := by
  induction entries with
  | nil => exact Nat.le_refl 0
  | cons e entries ih => exact Nat.add_le_add (length_proofTarget_le e) ih

theorem map_proofTarget_eq_of_weight : ∀ {entries : List Text},
    weight entries ≤ weight (entries.map (proofTarget json)) →
    entries.map (proofTarget json) = entries ∧ ∀ e ∈ entries, json.unquote e = none
  | [], _ => ⟨rfl, fun _ h => by cases h⟩
  | e :: entries, h => by
    rw [List.map_cons, weight_cons, weight_cons] at h
    have he := @length_proofTarget_le json e
    have hentries := @weight_map_proofTarget_le json entries
    obtain ⟨heq, hnone⟩ := proofTarget_eq_of_length (Nat.le_antisymm he (by omega))
    obtain ⟨ihEq, ihNone⟩ := @map_proofTarget_eq_of_weight entries (by omega)
    refine ⟨?_, List.forall_mem_cons.mpr ⟨hnone, ihNone⟩⟩
    rw [List.map_cons, heq, ihEq]

/-- 何も失わずに対象になるのは、要素がそのまま対象であるときである。 -/
theorem distinctTargets_eq_iff {entries targets : List Text}
    (hsum : weight entries + entries.length ≤ weight targets + targets.length) :
    distinctTargets json entries = targets ↔ entries = targets
      ∧ targets.Nodup ∧ ∀ t ∈ targets, t ≠ [] ∧ trim t = t ∧ json.unquote t = none := by
  constructor
  · intro h
    have hsub := @distinctTargets_sublist json entries
    rw [h] at hsub
    have hlen := hsub.length_le
    rw [List.length_map] at hlen
    have hweight := weight_le_of_sublist hsub
    have hle := @weight_map_proofTarget_le json entries
    have hmap : targets = entries.map (proofTarget json) :=
      hsub.eq_of_length_le (by rw [List.length_map]; omega)
    have hid := @map_proofTarget_eq_of_weight json entries (by omega)
    have hentries : entries = targets := hid.1.symm.trans hmap.symm
    refine ⟨hentries, h ▸ nodup_distinctTargets entries, ?_⟩
    intro t ht
    have hne : t ≠ [] := (mem_distinctTargets.mp (h ▸ ht)).2
    have hnone : json.unquote t = none := hid.2 t (hentries ▸ ht)
    have htarget : proofTarget json t = t :=
      List.map_inj_left.mp (hid.1.trans (List.map_id entries).symm) t (hentries ▸ ht)
    refine ⟨hne, ?_, hnone⟩
    rw [← htarget]
    exact trim_idem _
  · rintro ⟨rfl, hnodup, h⟩
    have hid : ∀ e ∈ entries, proofTarget json e = id e :=
      fun e he => proofTarget_of_unquote_none (h e he).2.1 (h e he).2.2
    have hmap : entries.map (proofTarget json) = entries :=
      (List.map_congr_left hid).trans (List.map_id entries)
    have hfilter : (entries.filter fun t => t ≠ []) = entries :=
      List.filter_eq_self.mpr fun e he => decide_eq_true (h e he).1
    unfold distinctTargets
    rw [hmap, hfilter, eraseDups_of_nodup hnodup]

/-! ## 読み直し -/

/-- 対象をコンマで繋いだもの。 -/
def joined (targets : List Text) : Text := List.intercalate [','] targets

theorem not_mem_of_mem_splitOn : ∀ {t p : Text}, p ∈ t.splitOn ',' → ',' ∉ p
  | [], p, h => by
    rw [List.splitOn_nil] at h
    rw [List.mem_singleton.mp h]
    exact List.not_mem_nil
  | c :: t, p, h => by
    rw [List.splitOn_cons_eq_if_modifyHead] at h
    by_cases hc : (c == ',') = true
    · rw [if_pos hc] at h
      rcases List.mem_cons.mp h with rfl | h
      · exact List.not_mem_nil
      · exact not_mem_of_mem_splitOn h
    · rw [if_neg hc] at h
      obtain ⟨q, qs, hq⟩ := List.exists_cons_of_ne_nil (List.splitOn_ne_nil ',' t)
      rw [hq, List.modifyHead_cons] at h
      have hmem : ∀ r ∈ q :: qs, ',' ∉ r := fun r hr => not_mem_of_mem_splitOn (hq ▸ hr)
      rcases List.mem_cons.mp h with rfl | h
      · intro hcomma
        rcases List.mem_cons.mp hcomma with rfl | hcomma
        · exact hc (beq_self_eq_true _)
        · exact hmem q List.mem_cons_self hcomma
      · exact hmem p (List.mem_cons_of_mem q h)

theorem length_joined {targets : List Text} (h : targets ≠ []) :
    (joined targets).length + 1 = weight targets + targets.length := length_intercalate h

/-- 前後に空白の無い、空でない文字列を繋いでも、両端に空白は無い。 -/
theorem trim_joined : ∀ {targets : List Text}, targets ≠ [] → (∀ t ∈ targets, t ≠ [] ∧ trim t = t) →
    trim (joined targets) = joined targets ∧ joined targets ≠ []
  | [t], _, h => by
    unfold joined
    rw [List.intercalate_singleton]
    exact (h t List.mem_cons_self).symm
  | t :: u :: targets, _, h => by
    obtain ⟨ht0, ht⟩ := h t List.mem_cons_self
    obtain ⟨ihTrim, ih0⟩ := @trim_joined (u :: targets) (List.cons_ne_nil u targets)
      fun v hv => h v (List.mem_cons_of_mem t hv)
    have hjoined : joined (t :: u :: targets) = t ++ ([','] ++ joined (u :: targets)) := by
      unfold joined
      rw [List.intercalate_cons_cons, List.append_assoc]
    rw [hjoined]
    exact ⟨trim_append_append ht ht0 ihTrim ih0 [','], fun h => ht0 (List.append_eq_nil_iff.mp h).1⟩

/-- 読んだ列は、引用符と括弧の分だけ短い。 -/
theorem weight_readListAndTail {value : Text} {entries : List Text}
    (h : readListAndTail json value = some entries) :
    weight entries + entries.length + 1 ≤ value.length := by
  obtain ⟨⟨xs, rest⟩, hlist, h⟩ := Option.bind_eq_some_iff.mp h
  have hlen := json.readList_length hlist
  rw [sum_length_add_three] at hlen
  have htrim := length_trim_le rest
  dsimp only at h
  split at h
  · cases h
    omega
  · rename_i c tail hrest
    split at h
    · cases h
      have hsplit := weight_splitOn tail
      rw [hrest, List.length_cons] at htrim
      rw [weight_append, List.length_append]
      omega
    · cases h

/-- 整えても変わらない列。 -/
structure Stable (json : JsonStrings) (targets : List Text) : Prop where
  unquoted : ∀ t ∈ targets, json.unquote t = none
  bracket : (targets.head?.bind List.head?) = some '[' →
    (∀ t ∈ targets, ',' ∉ t) ∧ readListAndTail json (joined targets) = none

theorem normalizeProofTargets_eq_self_iff {targets : List Text} (hnodup : targets.Nodup)
    (htrim : ∀ t ∈ targets, t ≠ [] ∧ trim t = t) :
    normalizeProofTargets json targets = targets ↔ Stable json targets := by
  rw [normalizeProofTargets_eq]
  cases htargets : targets with
  | nil => exact iff_of_true rfl ⟨fun _ h => (by cases h), fun h => (by cases h)⟩
  | cons m ms =>
    rw [← htargets]
    have hne : targets ≠ [] := by
      rw [htargets]
      exact List.cons_ne_nil m ms
    have hm : trim m = m := (htrim m (htargets ▸ List.mem_cons_self)).2
    have hhead : targets.head? = some m := by
      rw [htargets]
      rfl
    by_cases hbracket : m.head? = some '['
    · have hjoined := (trim_joined hne htrim).1
      have hlen := length_joined hne
      have hjoinedHead : (joined targets).head? = some '[' := by
        obtain ⟨rest, rfl⟩ : ∃ rest, m = '[' :: rest := List.head?_eq_some_iff.mp hbracket
        unfold joined
        rw [htargets, List.intercalate_cons_cons_left]
        rfl
      have hentries : repairedEntries json targets
          = (readListAndTail json (joined targets)).getD ((joined targets).splitOn ',') := by
        unfold repairedEntries
        rw [hhead]
        dsimp only
        rw [hm, if_pos hbracket]
        show (if (trim (joined targets)).head? = some '[' then
          readListAndTail json (trim (joined targets)) else none).getD
            ((trim (joined targets)).splitOn ',') = _
        rw [hjoined, if_pos hjoinedHead]
      rw [hentries]
      cases hread : readListAndTail json (joined targets) with
      | some entries =>
        have hweight := weight_readListAndTail hread
        refine iff_of_false ?_ ?_
        · intro h
          rw [Option.getD_some, distinctTargets_eq_iff (by omega)] at h
          rw [h.1] at hweight
          omega
        · intro h
          have hnone := (h.bracket (by rw [hhead]; exact hbracket)).2
          rw [hread] at hnone
          cases hnone
      | none =>
        have hweight := weight_splitOn (joined targets)
        rw [Option.getD_none, distinctTargets_eq_iff (by omega)]
        constructor
        · rintro ⟨hsplit, -, h⟩
          refine ⟨fun t ht => (h t ht).2.2, fun _ => ⟨?_, hread⟩⟩
          intro t ht
          rw [← hsplit] at ht
          exact not_mem_of_mem_splitOn ht
        · intro h
          have hcomma := (h.bracket (by rw [hhead]; exact hbracket)).1
          refine ⟨List.splitOn_intercalate ',' hcomma hne, hnodup, ?_⟩
          intro t ht
          exact ⟨(htrim t ht).1, (htrim t ht).2, h.unquoted t ht⟩
    · have hentries : repairedEntries json targets = targets := by
        unfold repairedEntries
        rw [hhead]
        dsimp only
        rw [hm, if_neg hbracket]
      rw [hentries, distinctTargets_eq_iff (Nat.le_refl _)]
      constructor
      · rintro ⟨-, -, h⟩
        refine ⟨fun t ht => (h t ht).2.2, fun hb => ?_⟩
        rw [hhead] at hb
        exact absurd hb hbracket
      · intro h
        refine ⟨rfl, hnodup, ?_⟩
        intro t ht
        exact ⟨(htrim t ht).1, (htrim t ht).2, h.unquoted t ht⟩

/-! ## 往復 -/

theorem unquote_nil : json.unquote [] = none := by
  cases h : json.unquote [] with
  | none => rfl
  | some s => exact absurd (json.unquote_length h) (Nat.not_lt_zero _)

theorem proofTarget_nil : proofTarget json [] = [] := proofTarget_of_unquote_none rfl unquote_nil

theorem trim_proofTarget (e : Text) : trim (proofTarget json e) = proofTarget json e := trim_idem _

/-- 整えた列の対象は、空でなく、前後に空白が無い。 -/
theorem trimmed_of_mem_normalize {targets : List Text} :
    ∀ t ∈ normalizeProofTargets json targets, t ≠ [] ∧ trim t = t := by
  intro t ht
  rw [normalizeProofTargets_eq, mem_distinctTargets] at ht
  obtain ⟨⟨e, -, rfl⟩, hne⟩ := ht
  exact ⟨hne, trim_proofTarget e⟩

theorem nodup_normalize (targets : List Text) : (normalizeProofTargets json targets).Nodup := by
  rw [normalizeProofTargets_eq]
  exact nodup_distinctTargets _

/-- 書いた列は、要素がそのまま読み戻される。 -/
theorem proofTargetEntries_writeList (targets : List Text) :
    proofTargetEntries json (json.writeList targets) = targets := by
  obtain ⟨body, hbody⟩ := json.writeList_shape targets
  have htrim : trim (json.writeList targets) = json.writeList targets := by
    rw [hbody]
    exact trim_append_append (x := ['[']) rfl (by decide) (y := [']']) rfl (by decide) body
  have hhead : (json.writeList targets).head? = some '[' := by
    rw [hbody]
    rfl
  have hread : readListAndTail json (json.writeList targets) = some targets := by
    unfold readListAndTail
    rw [json.readList_writeList]
    rfl
  unfold proofTargetEntries
  dsimp only
  rw [htrim, if_pos hhead, hread]
  rfl

theorem parseProofTargets_none : parseProofTargets json none = [] := by
  have hentries : repairedEntries json (proofTargetEntries json []) = [[]] := rfl
  unfold parseProofTargets
  rw [Option.getD_none, normalizeProofTargets_eq, hentries]
  unfold distinctTargets
  rw [List.map_singleton, proofTarget_nil]
  rfl

/-- 保存して読むのは、もう一度整えることである。 -/
theorem parse_toString (targets : List Text) :
    parseProofTargets json (proofTargetsToString json targets)
      = normalizeProofTargets json (normalizeProofTargets json targets) := by
  unfold proofTargetsToString
  dsimp only
  by_cases hempty : normalizeProofTargets json targets = []
  · rw [if_pos hempty, parseProofTargets_none, hempty]
    rfl
  · rw [if_neg hempty]
    unfold parseProofTargets
    rw [Option.getD_some, proofTargetEntries_writeList]

/-- 往復。 -/
structure RoundTrips (json : JsonStrings) (targets : List Text) : Prop where
  stored : parseProofTargets json (proofTargetsToString json targets)
    = normalizeProofTargets json targets
  idempotent : normalizeProofTargets json (normalizeProofTargets json targets)
    = normalizeProofTargets json targets
  cycles : ∀ k, (storeAndRead json)^[k] (normalizeProofTargets json targets)
    = normalizeProofTargets json targets

/-- 二重の引用も、読み直される括弧も無い。 -/
structure SettledTargets (json : JsonStrings) (targets : List Text) : Prop where
  /-- どの要素も、JSON の文字列を中身とする JSON の文字列ではない。 -/
  once : ∀ e ∈ repairedEntries json targets, ∀ s, json.unquote (trim e) = some s →
    json.unquote (trim s) = none
  /-- 最初の対象が `[` で始まるなら、対象はコンマを含まず、繋いでも JSON の列として読めない。 -/
  bracket : ((distinctTargets json (repairedEntries json targets)).head?.bind List.head?) = some '[' →
    (∀ t ∈ distinctTargets json (repairedEntries json targets), ',' ∉ t)
      ∧ readListAndTail json (joined (distinctTargets json (repairedEntries json targets))) = none

/-- 対象がもう引用されていないのは、要素が二重には引用されていないときである。 -/
theorem unquoted_iff (entries : List Text) :
    (∀ t ∈ distinctTargets json entries, json.unquote t = none)
      ↔ ∀ e ∈ entries, ∀ s, json.unquote (trim e) = some s → json.unquote (trim s) = none := by
  constructor
  · intro h e he s hs
    have htarget : proofTarget json e = trim s := by
      unfold proofTarget
      dsimp only
      rw [hs, Option.getD_some]
    by_cases hempty : trim s = []
    · rw [hempty]
      exact unquote_nil
    · exact h _ (mem_distinctTargets.mpr ⟨⟨e, he, htarget⟩, hempty⟩)
  · intro h t ht
    obtain ⟨⟨e, he, rfl⟩, -⟩ := mem_distinctTargets.mp ht
    unfold proofTarget
    dsimp only
    cases hunquote : json.unquote (trim e) with
    | none =>
      rw [Option.getD_none, trim_idem]
      exact hunquote
    | some s => exact h e he s hunquote

theorem stable_normalize_iff (targets : List Text) :
    Stable json (normalizeProofTargets json targets) ↔ SettledTargets json targets := by
  rw [normalizeProofTargets_eq]
  constructor
  · intro h
    exact ⟨(unquoted_iff _).mp h.unquoted, h.bracket⟩
  · intro h
    exact ⟨(unquoted_iff _).mpr h.once, h.bracket⟩

/-- 対象の列が往復するのは、二重の引用も、読み直される括弧も無いときである。 -/
theorem proof_targets_round_trip_iff (json : JsonStrings) (targets : List Text) :
    RoundTrips json targets ↔ SettledTargets json targets := by
  rw [← stable_normalize_iff,
    ← normalizeProofTargets_eq_self_iff (nodup_normalize targets) trimmed_of_mem_normalize]
  constructor
  · exact RoundTrips.idempotent
  · intro h
    have hcycle : storeAndRead json (normalizeProofTargets json targets)
        = normalizeProofTargets json targets := by
      unfold storeAndRead
      rw [parse_toString, h, h]
    exact ⟨(parse_toString targets).trans h, h, fun k => Function.iterate_fixed hcycle k⟩

/-- 二重に引用された対象は、読むたびに一重ずつ外れる。空の要素の後ろの、括弧で始まる対象は、次に読むときに切れる。 -/
theorem stored_target_loses_quotes :
    normalizeProofTargets serdeJson ["\"\\\"x\\\"\"".toList] = ["\"x\"".toList]
      ∧ parseProofTargets serdeJson (proofTargetsToString serdeJson ["\"\\\"x\\\"\"".toList])
        = ["x".toList]
      ∧ normalizeProofTargets serdeJson ["".toList, "[a,b".toList] = ["[a,b".toList]
      ∧ parseProofTargets serdeJson (proofTargetsToString serdeJson ["".toList, "[a,b".toList])
        = ["[a".toList, "b".toList] := by
  decide

end Cassy
