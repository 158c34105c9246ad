import Mathlib.Data.Finset.Max
import Cassy.Cloud.ProjectAliases
import Cassy.Infra.Arrange

/-!
# 別名の登録と、並びの順

登録を名乗る project の並びを入れ替えたとき、選ばれる登録が変わらない条件を示す。

整列の鍵は綴りと持ち主だけなので、同じ鍵の登録が違う別名を持てば、先に並んでいた方が選ばれる。
-/

namespace Cassy

open Infra ProjectAliases

namespace ProjectAliases

variable {teamId : Option String} {found : List AliasMatch}

/-- 応答の project の並び。 -/
def listing (body : Json) : Option (List Json) := (get body "projects").bind asArray?

/-- 同じ project を並べ替えた応答。 -/
def Relisted (body body' : Json) : Prop :=
  ∃ l l', listing body = some l ∧ listing body' = some l' ∧ l.Perm l'

/-- `projectId` を名乗る登録。応答に並んだ順である。 -/
def claimants (projectId : String) (projects : List Json) : List AliasMatch :=
  match canonical projectId with
  | none => []
  | some id => projects.filterMap (matchOf id)

/-- 違う project がある。 -/
def TwoIds (ms : List AliasMatch) : Prop :=
  ∃ m ∈ ms, ∃ m' ∈ ms, m.2.canonicalId ≠ m'.2.canonicalId

/-- 持ち主の順で最も小さい登録。 -/
def LeastScope (ms : List AliasMatch) (m : AliasMatch) : Prop :=
  m ∈ ms ∧ ∀ n ∈ ms, scopeRank m.1 ≤ scopeRank n.1

/-- 最も小さい持ち主の登録は、どれも同じ別名を持つ。 -/
def OneAliasList (ms : List AliasMatch) : Prop :=
  ∀ m m', LeastScope ms m → LeastScope ms m' → m.2.aliases = m'.2.aliases

/-! ## 範囲 -/

/-- 選ばれた範囲にある持ち主。 -/
def scopeOk (teamId : Option String) (all : List AliasMatch) (scope : Option String) : Bool :=
  if all.any fun m => m.1.isSome && m.1 = teamId then scope.isSome && scope = teamId
  else if all.any fun m => m.1.isNone then scope.isNone
  else true

theorem chosen_eq_filter (teamId : Option String) (all : List AliasMatch) :
    chosen teamId all = all.filter fun m => scopeOk teamId all m.1 := by
  have hne (p : AliasMatch → Bool) : all.filter p ≠ [] ↔ all.any p = true := by
    rw [ne_eq, List.filter_eq_nil_iff, List.any_eq_true]
    push Not
    rfl
  unfold chosen scopeOk
  simp only [hne]
  split
  · rfl
  · split
    · rfl
    · simp

theorem scopeOk_congr {a b : List AliasMatch} (h : ∀ m, m ∈ a ↔ m ∈ b) :
    scopeOk teamId a = scopeOk teamId b := by
  have hany (p : AliasMatch → Bool) : a.any p = b.any p := by
    rw [Bool.eq_iff_iff, List.any_eq_true, List.any_eq_true]
    simp only [h]
  funext scope
  simp only [scopeOk, hany]

theorem mem_chosen_congr {a b : List AliasMatch} (h : ∀ m, m ∈ a ↔ m ∈ b) (m : AliasMatch) :
    m ∈ chosen teamId a ↔ m ∈ chosen teamId b := by
  rw [chosen_eq_filter, chosen_eq_filter, List.mem_filter, List.mem_filter, scopeOk_congr h, h]

@[simp] theorem mem_arrange {m : AliasMatch} : m ∈ arrange found ↔ m ∈ found := by
  unfold arrange dedup
  rw [mem_destutter_ne, (List.perm_insertionSort _ _).mem_iff]

/-- 範囲は並び順によらない。 -/
theorem mem_chosen_arrange (m : AliasMatch) :
    m ∈ chosen teamId (arrange found) ↔ m ∈ chosen teamId found :=
  mem_chosen_congr (fun _ => mem_arrange) m

/-! ## 違う project の数 -/

theorem distinct_eq_zero {ms : List AliasMatch} : distinct ms = 0 ↔ ms = [] := by
  unfold distinct dedup
  rw [List.length_eq_zero_iff, List.destutter_eq_nil, List.map_eq_nil_iff]

theorem distinct_eq_one {ms : List AliasMatch} : distinct ms = 1 ↔ ms ≠ [] ∧ ¬ TwoIds ms := by
  unfold distinct dedup TwoIds
  rw [length_destutter_ne_eq_one, List.forall_mem_map, ne_eq, List.map_eq_nil_iff]
  refine and_congr_right fun _ => ?_
  push Not
  exact forall₂_congr fun m _ => List.forall_mem_map

theorem twoIds_congr {a b : List AliasMatch} (h : ∀ m, m ∈ a ↔ m ∈ b) : TwoIds a ↔ TwoIds b := by
  simp only [TwoIds, h]

/-- 誤りになるのは、選ばれた範囲に違う project があるときだけである。 -/
theorem select_cases (projectId : String) (teamId : Option String) (projects : List Json) :
    let found := projects.filterMap (matchOf projectId)
    (TwoIds (chosen teamId found) ∧ ∃ e, select projectId teamId projects = .error e) ∨
    (¬ TwoIds (chosen teamId found) ∧ select projectId teamId projects
      = .ok ((chosen teamId (arrange found)).head?.map (·.2))) := by
  intro found
  have htwo : TwoIds (chosen teamId found) ↔ TwoIds (chosen teamId (arrange found)) :=
    twoIds_congr fun m => (mem_chosen_arrange m).symm
  rw [htwo]
  unfold select
  generalize hscope : chosen teamId (arrange found) = inScope
  match hn : distinct inScope with
  | 0 =>
    have hnil := distinct_eq_zero.mp hn
    subst hnil
    right
    exact ⟨by rintro ⟨m, hm, -⟩; exact absurd hm List.not_mem_nil, by simp [hn]⟩
  | 1 =>
    right
    exact ⟨(distinct_eq_one.mp hn).2, by simp [hn]⟩
  | n + 2 =>
    left
    refine ⟨?_, ambiguous projectId inScope, by simp [hn]⟩
    by_contra hone
    have hne : inScope ≠ [] := fun hnil => by
      rw [distinct_eq_zero.mpr hnil] at hn
      omega
    have := distinct_eq_one.mpr ⟨hne, hone⟩
    omega

/-! ## 選ばれる登録 -/

theorem sortKey_eq {m m' : AliasMatch} (h : sortKey m = sortKey m') :
    m.2.canonicalId = m'.2.canonicalId ∧ m.1 = m'.1 := by
  have hpair := Prod.mk.inj (toLex.injective h)
  refine ⟨hpair.1, ?_⟩
  have hrank := hpair.2
  revert hrank
  cases m.1 <;> cases m'.1 <;> simp [scopeRank]

/-- 選ばれる登録は、最も小さい鍵の登録のうち、応答で先に並んだものである。 -/
theorem head?_chosen_arrange {m : AliasMatch} (hone : ¬ TwoIds (chosen teamId found))
    (hm : LeastScope (chosen teamId found) m) :
    (chosen teamId (arrange found)).head? = found.find? (sortKey · = sortKey m) := by
  obtain ⟨hmem, hleast⟩ := hm
  rw [chosen_eq_filter, List.mem_filter] at hmem
  have hscope : scopeOk teamId (arrange found) = scopeOk teamId found :=
    scopeOk_congr fun _ => mem_arrange
  rw [chosen_eq_filter, List.head?_filter, arrange, dedup, find?_destutter_ne, ← dedup, ← arrange,
    hscope]
  refine find?_insertionSort_least sortKey ?_ hmem.1 hmem.2 ?_
  · intro a b hab
    rw [(sortKey_eq hab).2]
  · intro a ha hok
    have hin : a ∈ chosen teamId found := by
      rw [chosen_eq_filter, List.mem_filter]
      exact ⟨ha, hok⟩
    have hid : m.2.canonicalId = a.2.canonicalId := by
      by_contra hne
      refine hone ⟨m, ?_, a, hin, hne⟩
      rw [chosen_eq_filter, List.mem_filter]
      exact hmem
    rw [sortKey, sortKey, Prod.Lex.toLex_le_toLex]
    exact Or.inr ⟨hid, hleast a hin⟩

/-- 範囲が空でなければ、持ち主の最も小さい登録がある。 -/
theorem exists_leastScope {ms : List AliasMatch} (h : ms ≠ []) : ∃ m, LeastScope ms m := by
  obtain ⟨m, hm⟩ := List.exists_mem_of_ne_nil ms h
  obtain ⟨least, hmem, hmin⟩ :=
    (ms.toFinset.exists_min_image fun m => scopeRank m.1) ⟨m, List.mem_toFinset.mpr hm⟩
  exact ⟨least, List.mem_toFinset.mp hmem, fun n hn => hmin n (List.mem_toFinset.mpr hn)⟩

/-- 同じ持ち主の登録の別名が揃っていれば、どれが先に並んでいても同じ登録が選ばれる。 -/
theorem head?_record {m : AliasMatch} (hone : ¬ TwoIds (chosen teamId found))
    (hlists : OneAliasList (chosen teamId found)) (hm : LeastScope (chosen teamId found) m) :
    (chosen teamId (arrange found)).head?.map (·.2) = some m.2 := by
  have hhead := head?_chosen_arrange hone hm
  have hsome : (chosen teamId (arrange found)).head? ≠ none := by
    rw [ne_eq, List.head?_eq_none_iff]
    intro hnil
    have := (mem_chosen_arrange m).mpr hm.1
    rw [hnil] at this
    exact absurd this List.not_mem_nil
  obtain ⟨first, hfirst⟩ := Option.ne_none_iff_exists'.mp hsome
  have hin : first ∈ chosen teamId found :=
    (mem_chosen_arrange first).mp (List.mem_of_head? hfirst)
  have hkey : sortKey first = sortKey m := by
    rw [hfirst] at hhead
    simpa using List.find?_some hhead.symm
  obtain ⟨hid, hscope⟩ := sortKey_eq hkey
  have hleast : LeastScope (chosen teamId found) first :=
    ⟨hin, fun n hn => by rw [hscope]; exact hm.2 n hn⟩
  have haliases : first.2.aliases = m.2.aliases := hlists first m hleast hm
  rw [hfirst, Option.map_some]
  congr 1
  cases hf : first.2
  cases hr : m.2
  rw [hf, hr] at hid haliases
  exact congr (congrArg ProjectAliasRecord.mk hid) haliases

/-! ## 並べ替え -/

theorem mem_claimants_of_perm {projectId : String} {l l' : List Json} (h : l.Perm l')
    (m : AliasMatch) : m ∈ claimants projectId l' ↔ m ∈ claimants projectId l := by
  unfold claimants
  cases canonical projectId with
  | none => exact Iff.rfl
  | some id => exact (h.filterMap _).mem_iff.symm

/-- 名乗った登録は、並べ替えて先頭に置ける。 -/
theorem exists_perm_cons {projectId : String} {l : List Json} {m : AliasMatch}
    (hm : m ∈ claimants projectId l) :
    ∃ l', l.Perm l' ∧ ∃ rest, claimants projectId l' = m :: rest := by
  unfold claimants at hm ⊢
  cases hid : canonical projectId with
  | none => simp [hid] at hm
  | some id =>
    simp only [hid, List.mem_filterMap] at hm
    obtain ⟨project, hmem, hmatch⟩ := hm
    obtain ⟨s, t, rfl⟩ := List.append_of_mem hmem
    refine ⟨project :: (s ++ t), List.perm_middle, (s ++ t).filterMap (matchOf id), ?_⟩
    simp only [List.filterMap_cons, hmatch]

/-- 登録の選び方を、名乗った登録の列だけで言う。 -/
theorem selectAliasRecord_cases {body : Json} {projects : List Json} (projectId : String)
    (teamId : Option String) (h : listing body = some projects) :
    let found := claimants projectId projects
    (TwoIds (chosen teamId found) ∧ ∃ e, selectAliasRecord body projectId teamId = .error e) ∨
    (¬ TwoIds (chosen teamId found) ∧ selectAliasRecord body projectId teamId
      = .ok ((chosen teamId (arrange found)).head?.map (·.2))) := by
  unfold claimants selectAliasRecord
  cases canonical projectId with
  | none =>
    right
    exact ⟨by rintro ⟨m, hm, -⟩; exact absurd hm (by cases teamId <;> simp [chosen]),
      by cases teamId <;> rfl⟩
  | some id =>
    rw [← listing, h]
    exact select_cases id teamId projects

end ProjectAliases

open ProjectAliases in
/--
応答の project を並べ替えても選ばれる登録が変わらないのは、範囲の中に違う project があるとき（誤りになる）か、
最も小さい持ち主の登録がどれも同じ別名を持つときである。
-/
theorem alias_listing_iff (body : Json) (projects : List Json) (projectId : String)
    (teamId : Option String) (h : listing body = some projects) :
    ((∀ body', Relisted body body' → (selectAliasRecord body' projectId teamId).toOption
        = (selectAliasRecord body projectId teamId).toOption) ∧
      ((∃ e, selectAliasRecord body projectId teamId = .error e)
        ↔ TwoIds (chosen teamId (claimants projectId projects)))) ↔
    (TwoIds (chosen teamId (claimants projectId projects))
      ∨ OneAliasList (chosen teamId (claimants projectId projects))) := by
  have hscope {projects'} (hp : projects.Perm projects') (m : AliasMatch) :
      m ∈ chosen teamId (claimants projectId projects')
        ↔ m ∈ chosen teamId (claimants projectId projects) :=
    mem_chosen_congr (mem_claimants_of_perm hp) m
  have hcases := selectAliasRecord_cases projectId teamId h
  constructor
  · rintro ⟨hsame, -⟩
    by_cases htwo : TwoIds (chosen teamId (claimants projectId projects))
    · exact Or.inl htwo
    · right
      -- 一つの登録を先頭に並べ替えれば、それが選ばれる。
      have hfirst : ∀ m, LeastScope (chosen teamId (claimants projectId projects)) m →
          (selectAliasRecord body projectId teamId).toOption = some (some m.2) := by
        intro m hm
        have hclaim : m ∈ claimants projectId projects := by
          have := hm.1
          rw [chosen_eq_filter] at this
          exact (List.mem_filter.mp this).1
        obtain ⟨projects', hperm, rest, hrest⟩ := exists_perm_cons hclaim
        have hlist : listing (.object [("projects", .array projects')]) = some projects' := rfl
        rw [← hsame _ ⟨projects, projects', h, hlist, hperm⟩]
        have hleast : LeastScope (chosen teamId (claimants projectId projects')) m :=
          ⟨(hscope hperm m).mpr hm.1, fun n hn => hm.2 n ((hscope hperm n).mp hn)⟩
        have hone : ¬ TwoIds (chosen teamId (claimants projectId projects')) := by
          rwa [twoIds_congr (hscope hperm)]
        rcases selectAliasRecord_cases projectId teamId hlist with ⟨h2, -⟩ | ⟨-, heq⟩
        · exact absurd h2 hone
        · rw [heq, head?_chosen_arrange hone hleast, hrest]
          simp [Except.toOption]
      intro m m' hm hm'
      have heq := (hfirst m hm).symm.trans (hfirst m' hm')
      simp only [Option.some.injEq] at heq
      rw [heq]
  · intro hcond
    constructor
    · rintro body' ⟨l, projects', hl, hlist, hperm⟩
      obtain rfl : projects = l := Option.some.inj (h.symm.trans hl)
      have hsame := hscope hperm
      have hcases' := selectAliasRecord_cases projectId teamId hlist
      by_cases htwo : TwoIds (chosen teamId (claimants projectId projects))
      · obtain ⟨-, e, he⟩ | ⟨hone, -⟩ := hcases
        · obtain ⟨-, e', he'⟩ | ⟨hone', -⟩ := hcases'
          · rw [he, he']
            rfl
          · exact absurd ((twoIds_congr hsame).mpr htwo) hone'
        · exact absurd htwo hone
      · have hone' := mt (twoIds_congr hsame).mp htwo
        have heq := (hcases.resolve_left fun h2 => htwo h2.1).2
        have heq' := (hcases'.resolve_left fun h2 => hone' h2.1).2
        rw [heq, heq']
        congr 2
        by_cases hnil : chosen teamId (claimants projectId projects) = []
        · -- 名乗る登録が無い。
          have hempty {ms : List AliasMatch}
              (hms : ∀ m, m ∈ ms ↔ m ∈ chosen teamId (claimants projectId projects)) : ms = [] := by
            rw [List.eq_nil_iff_forall_not_mem]
            intro m hm
            rw [hms, hnil] at hm
            exact absurd hm List.not_mem_nil
          rw [hempty fun m => (mem_chosen_arrange m).trans (hsame m),
            hempty fun m => mem_chosen_arrange m]
        · obtain ⟨m, hm⟩ := exists_leastScope hnil
          have hlists := hcond.resolve_left htwo
          have hleast {n} : LeastScope (chosen teamId (claimants projectId projects')) n
              ↔ LeastScope (chosen teamId (claimants projectId projects)) n := by
            simp only [LeastScope, hsame]
          have hlists' : OneAliasList (chosen teamId (claimants projectId projects')) :=
            fun a b ha hb => hlists a b (hleast.mp ha) (hleast.mp hb)
          rw [head?_record htwo hlists hm, head?_record hone' hlists' (hleast.mpr hm)]
    · rcases hcases with ⟨htwo, he⟩ | ⟨hone, heq⟩
      · exact iff_of_true he htwo
      · refine iff_of_false ?_ hone
        rintro ⟨e, he⟩
        rw [heq] at he
        cases he

namespace ProjectAliases

/-- 別名を一つ持つ個人の登録。 -/
def personalRow (spelling : String) : Json :=
  .object [("canonical_id", .string "cas"), ("aliases", .array [.string spelling])]

/-- 同じ別名を違う順に並べた二つの個人の登録と、別の別名を持つ team の登録。 -/
def sharedRows : List Json :=
  [.object [("canonical_id", .string "cas"), ("aliases", .array [.string "a", .string "b"])],
    .object [("canonical_id", .string "cas"), ("aliases", .array [.string "b", .string "a"])],
    .object [("canonical_id", .string "cas"), ("team_id", .string "t1"), ("aliases", .array [.string "c"])]]

/-- 選ばれる範囲は二つの個人の登録で、別名は揃えると等しい。 -/
theorem chosen_sharedRows : chosen none (claimants "cas" sharedRows)
    = [(none, ⟨"cas", ["a", "b"]⟩), (none, ⟨"cas", ["a", "b"]⟩)] := by
  decide

end ProjectAliases

open ProjectAliases in
theorem alias_listing_iff_shared :
    (∀ body', Relisted (.object [("projects", .array sharedRows)]) body' →
      (selectAliasRecord body' "cas" none).toOption
        = (selectAliasRecord (.object [("projects", .array sharedRows)]) "cas" none).toOption) ∧
    ((∃ e, selectAliasRecord (.object [("projects", .array sharedRows)]) "cas" none = .error e)
      ↔ TwoIds (chosen none (claimants "cas" sharedRows))) := by
  refine (alias_listing_iff (.object [("projects", .array sharedRows)]) sharedRows
    "cas" none rfl).mpr (Or.inr ?_)
  have hlist : ∀ m, LeastScope (chosen none (claimants "cas" sharedRows)) m → m.2.aliases = ["a", "b"] := by
    intro m hm
    have hmem := hm.1
    rw [chosen_sharedRows, List.mem_cons, List.mem_singleton, or_self] at hmem
    rw [hmem]
  intro m m' hm hm'
  rw [hlist m hm, hlist m' hm']

open ProjectAliases in
/-- 同じ綴りの個人の登録が二つあると、先に並んだ方の別名が選ばれる。 -/
theorem first_listed_wins :
    Relisted (.object [("projects", .array [personalRow "a", personalRow "b"])])
      (.object [("projects", .array [personalRow "b", personalRow "a"])]) ∧
    (selectAliasRecord (.object [("projects", .array [personalRow "a", personalRow "b"])])
      "cas" none).toOption = some (some ⟨"cas", ["a"]⟩) ∧
    (selectAliasRecord (.object [("projects", .array [personalRow "b", personalRow "a"])])
      "cas" none).toOption = some (some ⟨"cas", ["b"]⟩) := by
  refine ⟨⟨_, _, rfl, rfl, List.Perm.swap _ _ []⟩, ?_, ?_⟩
  · decide
  · decide

end Cassy
