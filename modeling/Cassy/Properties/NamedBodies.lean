import Cassy.Cloud.PushBody
import Cassy.Properties.NamedFailures

/-!
# 名指しと本文

返事の本文が失敗と名指した行を、始末が消すのはどの本文のときか。読んだ返事が行を失う条件（`BatchResponse.Loses`）を、
本文の項目の言葉に直す。

* `effectiveRows` — 始末が従う `rows[]`
* `SkipsNothing` — 数が零と読めること
* `Discards` — 本文が行を失うこと
-/

namespace Cassy

open Infra

/-! ## 本文 -/

/-- 種類の項目。 -/
def entityDetail (kind : PushKind) (entityKey : String) (body : Json) : Option Json :=
  match kind with
  | .personal => body.get? entityKey
  | .team _ => (body.get? "synced").bind (Json.get? entityKey)

/-- 始末が従う `rows`。個人の push では種類の下のものが、team の push では一番上のものが先である。 -/
def effectiveRows (kind : PushKind) (entityKey : String) (body : Json) : Option Json :=
  let nested := (entityDetail kind entityKey body).bind (Json.get? "rows")
  match kind with
  | .personal => nested.or (body.get? "rows")
  | .team _ => (nonNull (body.get? "rows")).or nested

/-- 列の中に、そういう要素がある。 -/
def NamedIn (list : Option Json) (p : Json → Bool) : Prop :=
  ∃ vs, list = some (.array vs) ∧ ∃ v ∈ vs, p v

/-- 要素が名前を挙げること。構造体は列でも書ける。 -/
def namesId (id : String) : Json → Bool
  | .object m => m.lookup "id" = some (.string id)
  | .array (.string s :: _) => s = id
  | _ => false

/-- 要素が、名前を挙げて断られたとすること。 -/
def rejectsId (id : String) : Json → Bool
  | .object m => m.lookup "id" = some (.string id) && m.lookup "outcome" = some (.string "rejected")
  | .array (.string s :: .string outcome :: _) => s = id && outcome = "rejected"
  | _ => false

/-- 本文が行を失敗と名指すこと。 -/
def NamesFailed (kind : PushKind) (entityKey id : String) (body : Json) : Prop :=
  let detail := entityDetail kind entityKey body
  NamedIn (detail.bind (Json.get? "rejected")) (namesId id)
    ∨ NamedIn (detail.bind (Json.get? "invalid")) (namesId id)
    ∨ NamedIn (detail.bind (Json.get? "rows")) (rejectsId id)
    ∨ NamedIn (body.get? "rows") (rejectsId id)

/-- 項目が無いか、零である。 -/
def ZeroOrAbsent (m : Members) (key : String) : Prop :=
  m.lookup key = none ∨ m.lookup key = some (.number (.posInt 0))

/-- 項目が無いか、負でない整数である。 -/
def CountOrAbsent (m : Members) (key : String) : Prop :=
  m.lookup key = none ∨ ∃ n, m.lookup key = some (.number (.posInt n))

/-- 本文の数が、種類の行を一つも飛ばしていないと言うこと。 -/
def SkipsNothing (kind : PushKind) (entityKey : String) (body : Json) : Prop :=
  match kind with
  | .personal =>
    (body.get? "skipped" = none ∨ body.get? "skipped" = some .null
      ∨ ∃ m, body.get? "skipped" = some (.object m) ∧ ZeroOrAbsent m entityKey)
    ∧ ∀ m, body.get? entityKey = some (.object m) → ZeroOrAbsent m "skipped"
  | .team _ => ∃ m, entityDetail kind entityKey body = some (.object m) ∧ ZeroOrAbsent m "skipped"
    ∧ CountOrAbsent m "inserted" ∧ CountOrAbsent m "updated"
    ∧ ¬ (m.lookup "inserted" = none ∧ m.lookup "updated" = none ∧ m.lookup "skipped" = none)

section Counts

variable {benv : BodyEnv} {what location key : String} {m : Members}

theorem readCount_ok_iff {v : Json} {n : Nat} :
    benv.readCount what location v = .ok n ↔ ∃ k, v = .number (.posInt k) ∧ n = k.toNat := by
  unfold BodyEnv.readCount
  split
  next k =>
    constructor
    · intro h
      exact ⟨k, rfl, (Except.ok.inj h).symm⟩
    · rintro ⟨k', hk, rfl⟩
      cases hk
      rfl
  next hnot =>
    refine iff_of_false nofun ?_
    rintro ⟨k, hk, -⟩
    exact hnot k hk

theorem countAt_ok_iff {o : Option Nat} :
    benv.countAt what location m key = .ok o
      ↔ (m.lookup key = none ∧ o = none)
        ∨ ∃ n, m.lookup key = some (.number (.posInt n)) ∧ o = some n.toNat := by
  unfold BodyEnv.countAt
  cases hlookup : m.lookup key with
  | none => simp [eq_comm]
  | some v =>
    dsimp only
    constructor
    · intro h
      cases hcount : benv.readCount what s!"{location}.{key}" v with
      | error e =>
        rw [hcount] at h
        cases h
      | ok n =>
        rw [hcount] at h
        obtain ⟨k, rfl, rfl⟩ := readCount_ok_iff.mp hcount
        exact .inr ⟨k, rfl, (Except.ok.inj h).symm⟩
    · rintro (⟨h, -⟩ | ⟨n, h, rfl⟩)
      · cases h
      · rw [readCount_ok_iff.mpr ⟨n, Option.some.inj h, rfl⟩]
        rfl

/-- 数が零と読めるか無いのは、項目が無いか零のときである。 -/
theorem countAt_zero_iff :
    (benv.countAt what location m key = .ok none ∨ benv.countAt what location m key = .ok (some 0))
      ↔ ZeroOrAbsent m key := by
  rw [countAt_ok_iff, countAt_ok_iff]
  unfold ZeroOrAbsent
  constructor
  · rintro ((⟨h, -⟩ | ⟨n, -, h⟩) | (⟨-, h⟩ | ⟨n, h, hn⟩))
    · exact .inl h
    · cases h
    · cases h
    · have hzero : n = 0 := by
        have hnat : n.toNat = 0 := (Option.some.inj hn).symm
        exact UInt64.toNat_inj.mp hnat
      exact .inr (by rw [h, hzero])
  · rintro (h | h)
    · exact .inl (.inl ⟨h, rfl⟩)
    · exact .inr (.inr ⟨0, h, rfl⟩)

theorem countOrAbsent_of_ok {o : Option Nat} (h : benv.countAt what location m key = .ok o) :
    CountOrAbsent m key := by
  rcases countAt_ok_iff.mp h with ⟨h, -⟩ | ⟨n, h, -⟩
  · exact .inl h
  · exact .inr ⟨n, h⟩

theorem exists_countAt_ok (h : CountOrAbsent m key) :
    ∃ o, benv.countAt what location m key = .ok o := by
  rcases h with h | ⟨n, h⟩
  · exact ⟨none, countAt_ok_iff.mpr (.inl ⟨h, rfl⟩)⟩
  · exact ⟨some n.toNat, countAt_ok_iff.mpr (.inr ⟨n, h, rfl⟩)⟩

theorem countAt_ok_none {o : Option Nat} (h : benv.countAt what location m key = .ok o)
    (hnone : m.lookup key = none) : o = none := by
  rcases countAt_ok_iff.mp h with ⟨-, h⟩ | ⟨n, h, -⟩
  · exact h
  · rw [hnone] at h
    cases h

theorem lookup_of_countAt_none {o : Option Nat} (h : benv.countAt what location m key = .ok o)
    (hnone : o = none) : m.lookup key = none := by
  subst hnone
  rcases countAt_ok_iff.mp h with ⟨h, -⟩ | ⟨n, -, h⟩
  · exact h
  · cases h

/-- `skipped` のほかの項目は、本文の項目そのものである。 -/
theorem fields_lookup {body : Json} (hkey : key ≠ "skipped") :
    (PushResponse.read (some body)).fields.lookup key = body.get? key := by
  cases body with
  | object m =>
    show (m.filter fun field => field.1 ≠ "skipped").lookup key = m.lookup key
    induction m with
    | nil => rfl
    | cons field m ih =>
      obtain ⟨name, v⟩ := field
      by_cases hname : name = "skipped"
      · subst hname
        have hne : (key == "skipped") = false := by simpa using hkey
        rw [List.filter_cons_of_neg (by simp), ih, List.lookup_cons, hne]
      · rw [List.filter_cons_of_pos (by simpa using hname), List.lookup_cons, List.lookup_cons, ih]
  | null | bool | number | string | array => rfl

theorem skipped_read {body : Json} :
    (PushResponse.read (some body)).skipped = nonNull (body.get? "skipped") := by
  cases body with
  | object m => rfl
  | null | bool | number | string | array => rfl

theorem combineSkipped_zero_iff {top nested : Option Nat} :
    BodyEnv.combineSkipped key top nested = .ok 0
      ↔ (top = none ∨ top = some 0) ∧ (nested = none ∨ nested = some 0) := by
  cases top with
  | none =>
    cases nested with
    | none => simp [BodyEnv.combineSkipped]
    | some nested => simp [BodyEnv.combineSkipped]
  | some top =>
    cases nested with
    | none => simp [BodyEnv.combineSkipped]
    | some nested =>
      by_cases heq : top = nested
      · simp [BodyEnv.combineSkipped, heq]
      · have hne : ¬ (top = 0 ∧ nested = 0) := fun h => heq (h.1.trans h.2.symm)
        simpa [BodyEnv.combineSkipped, heq] using hne

/-- 一番上の数が零と読めるか無い。 -/
theorem topSkipped_zero_iff {body : Json} :
    (∃ n, benv.topSkipped (PushResponse.read (some body)) key = .ok n ∧ (n = none ∨ n = some 0))
      ↔ body.get? "skipped" = none ∨ body.get? "skipped" = some .null
        ∨ ∃ m, body.get? "skipped" = some (.object m) ∧ ZeroOrAbsent m key := by
  unfold BodyEnv.topSkipped
  rw [skipped_read]
  cases hskipped : body.get? "skipped" with
  | none => simp [nonNull]
  | some v =>
    cases v with
    | null => simp [nonNull]
    | object m =>
      have hzero := @countAt_zero_iff benv "cloud skip count" "skipped" key m
      simp only [nonNull, reduceCtorEq, false_or, Option.some.injEq, Json.object.injEq,
        exists_eq_left']
      rw [← hzero]
      constructor
      · rintro ⟨n, hn, rfl | rfl⟩
        · exact .inl hn
        · exact .inr hn
      · rintro (hn | hn)
        · exact ⟨none, hn, .inl rfl⟩
        · exact ⟨some 0, hn, .inr rfl⟩
    | bool | number | string | array => simp [nonNull]

/-- 種類の下の数が零と読めるか無い。 -/
theorem nestedSkipped_zero_iff {body : Json} (hkey : key ≠ "skipped") :
    (∃ n, benv.nestedSkipped (PushResponse.read (some body)) key = .ok n ∧ (n = none ∨ n = some 0))
      ↔ ∀ m, body.get? key = some (.object m) → ZeroOrAbsent m "skipped" := by
  unfold BodyEnv.nestedSkipped
  rw [fields_lookup hkey]
  cases hentity : body.get? key with
  | none => simp
  | some v =>
    cases v with
    | object m => 
      have hzero := @countAt_zero_iff benv "cloud skip count" key "skipped" m
      simp only [Option.bind_some, Json.asObject, Option.some.injEq, Json.object.injEq, forall_eq']
      rw [← hzero]
      constructor
      · rintro ⟨n, hn, rfl | rfl⟩
        · exact .inl hn
        · exact .inr hn
      · rintro (hn | hn)
        · exact ⟨none, hn, .inl rfl⟩
        · exact ⟨some 0, hn, .inr rfl⟩
    | null | bool | number | string | array => simp [Json.asObject]

/-- 個人の push の数が零と読めるのは、どの数も無いか零のときである。 -/
theorem skippedCountFor_zero_iff {body : Json} (hkey : key ≠ "skipped") :
    benv.skippedCountFor (PushResponse.read (some body)) key = .ok 0
      ↔ SkipsNothing .personal key body := by
  unfold BodyEnv.skippedCountFor
  simp only [bind_eq_ok, combineSkipped_zero_iff]
  show _ ↔ _ ∧ _
  rw [← @topSkipped_zero_iff benv _ _, ← @nestedSkipped_zero_iff benv _ _ hkey]
  constructor
  · rintro ⟨top, htop, nested, hnested, hzero, hzero'⟩
    exact ⟨⟨top, htop, hzero⟩, nested, hnested, hzero'⟩
  · rintro ⟨⟨top, htop, hzero⟩, nested, hnested, hzero'⟩
    exact ⟨top, htop, nested, hnested, hzero, hzero'⟩

end Counts

/-! ## 行ごとの結果 -/

section Rows

variable {benv : BodyEnv} {key location : String} {body : Json}

/-- `rows` は、その値を読んだものである。 -/
def ReadsAs (v : Option Json) (rows : Except String (Option (List PushRowResult))) : Prop :=
  match v with
  | none => rows = .ok none
  | some v =>
    match readArray PushRowResult.read v with
    | .ok rs => rows = .ok (some rs)
    | .error _ => ∃ e, rows = .error e

theorem asObject_bind_lookup {v : Json} {name : String} :
    v.asObject.bind (·.lookup name) = v.get? name := by
  cases v with
  | object m => rfl
  | null | bool | number | string | array => rfl

theorem readRows_readsAs {entity : Json} :
    ReadsAs (entity.get? "rows") (benv.readRows location entity) := by
  unfold BodyEnv.readRows ReadsAs
  rw [asObject_bind_lookup]
  cases entity.get? "rows" with
  | none => rfl
  | some v =>
    dsimp only
    cases readArray PushRowResult.read v with
    | ok rs => rfl
    | error e => exact ⟨_, rfl⟩

/-- 個人の push は、種類の下の `rows` を、無ければ一番上の `rows` を読む。 -/
theorem personalRows_readsAs (hkey : key ≠ "skipped") :
    ReadsAs (effectiveRows .personal key body)
      (benv.personalRows (PushResponse.read (some body)) key).2 := by
  have htop : ReadsAs (body.get? "rows") (match body.get? "rows" with
      | none => .ok none
      | some rows => benv.readRows "rows" (.object [("rows", rows)])) := by
    cases hrows : body.get? "rows" with
    | none => rfl
    | some rows =>
      have hget : (Json.object [("rows", rows)]).get? "rows" = some rows := rfl
      rw [← hget]
      exact readRows_readsAs
  unfold BodyEnv.personalRows effectiveRows entityDetail
  rw [fields_lookup hkey, fields_lookup (show "rows" ≠ "skipped" by decide)]
  cases body.get? key with
  | none => exact htop
  | some entity =>
    dsimp only [Option.bind_some]
    have hnested := @readRows_readsAs benv key entity
    cases hrows : entity.get? "rows" with
    | none =>
      rw [hrows] at hnested
      have hnone : benv.readRows key entity = .ok none := hnested
      rw [hnone]
      exact htop
    | some v =>
      rw [hrows] at hnested
      unfold ReadsAs at hnested ⊢
      dsimp only [Option.some_or] at hnested ⊢
      cases hread : readArray PushRowResult.read v with
      | ok rs =>
        rw [hread] at hnested
        dsimp only at hnested ⊢
        rw [hnested]
      | error e =>
        rw [hread] at hnested
        obtain ⟨e', he⟩ := hnested
        dsimp only
        rw [he]
        exact ⟨e', rfl⟩

/-! ### team の本文 -/

/-- object の本文を team の返事として読んだもの。 -/
structure TeamReads (m : Members) (response : TeamPushResponse) : Prop where
  synced : response.synced = (m.lookup "synced").getD .null
  rows : readTopRows (m.lookup "rows") = .ok response.rows
  canonicalId : response.canonicalId = Json.getStr "canonical_id" (.object m)

theorem optional_string_ok {m : Members} {name : String} {o : Option String}
    (h : Codec.string.optional m name = .ok o) : o = Json.getStr name (.object m) := by
  unfold Codec.optional at h
  show o = (m.lookup name).bind Json.asStr
  cases hlookup : m.lookup name with
  | none =>
    rw [hlookup] at h
    exact (Except.ok.inj h).symm
  | some v =>
    rw [hlookup] at h
    cases v with
    | null | string => exact (Except.ok.inj h).symm
    | bool | number | array | object => cases h

theorem withDefault_value_ok {m : Members} {name : String} {d v : Json}
    (h : Codec.value.withDefault m name d = .ok v) : v = (m.lookup name).getD d := by
  unfold Codec.withDefault at h
  cases hlookup : m.lookup name with
  | none =>
    rw [hlookup] at h
    exact (Except.ok.inj h).symm
  | some w =>
    rw [hlookup] at h
    exact (Except.ok.inj h).symm

theorem teamReads_of_read {m : Members} {response : TeamPushResponse}
    (h : TeamPushResponse.read (.object m) = .ok response) : TeamReads m response := by
  simp only [TeamPushResponse.read, bind_eq_ok] at h
  obtain ⟨synced, hsynced, rows, hrows, canonicalId, hcanonical, gitRemote, -, h⟩ := h
  rw [← Except.ok.inj h]
  exact ⟨withDefault_value_ok hsynced, hrows, optional_string_ok hcanonical⟩

variable {m : Members} {response : TeamPushResponse} {teamId : String}

theorem TeamReads.teamEntity (h : TeamReads m response) :
    BodyEnv.teamEntity response key = entityDetail (.team teamId) key (.object m) := by
  unfold BodyEnv.teamEntity entityDetail
  rw [asObject_bind_lookup, h.synced]
  show _ = (m.lookup "synced").bind _
  cases m.lookup "synced" with
  | none => rfl
  | some synced => rfl

/-- team の push は、一番上の `rows` を、無ければ種類の下の `rows` を読む。 -/
theorem TeamReads.rows_readsAs (h : TeamReads m response) :
    ReadsAs (effectiveRows (.team teamId) key (.object m)) (benv.teamRows response key).2 := by
  have hnested : ReadsAs ((entityDetail (.team teamId) key (.object m)).bind (Json.get? "rows"))
      (match BodyEnv.teamEntity response key with
        | none => (s!"synced.{key}", Except.ok none)
        | some entity => (s!"synced.{key}", benv.readRows s!"synced.{key}" entity)).2 := by
    rw [@TeamReads.teamEntity key m response teamId h]
    cases entityDetail (.team teamId) key (.object m) with
    | none => rfl
    | some entity => exact readRows_readsAs
  have hrows := h.rows
  unfold BodyEnv.teamRows effectiveRows
  show ReadsAs ((nonNull (m.lookup "rows")).or _) _
  cases hlookup : m.lookup "rows" with
  | none =>
    rw [hlookup] at hrows
    rw [← Except.ok.inj hrows]
    exact hnested
  | some v =>
    rw [hlookup] at hrows
    by_cases hnull : v = .null
    · subst hnull
      rw [← Except.ok.inj hrows]
      exact hnested
    · have hread : (readArray PushRowResult.read v).map some = .ok response.rows := by
        cases v with
        | null => exact absurd rfl hnull
        | bool | number | string | array | object => exact hrows
      have hnonNull : nonNull (some v) = some v := by
        cases v with
        | null => exact absurd rfl hnull
        | bool | number | string | array | object => rfl
      rw [hnonNull]
      cases hok : readArray PushRowResult.read v with
      | error e =>
        rw [hok] at hread
        cases hread
      | ok rs =>
        rw [hok] at hread
        rw [← Except.ok.inj hread]
        unfold ReadsAs
        dsimp only [Option.some_or]
        rw [hok]

/-- team の push の数が零と読めるのは、数のどれかがあり、`skipped` が無いか零のときである。 -/
theorem TeamReads.skipped_zero_iff {detail : Json} (h : TeamReads m response)
    (hdetail : entityDetail (.team teamId) key (.object m) = some detail)
    (hobject : ∃ members, detail = .object members) :
    benv.teamSkippedFor response key = .ok 0 ↔ SkipsNothing (.team teamId) key (.object m) := by
  obtain ⟨members, rfl⟩ := hobject
  have hentity := @TeamReads.teamEntity key m response teamId h
  rw [hdetail] at hentity
  obtain ⟨synced, hsynced, hlookup⟩ : ∃ synced, response.synced = .object synced
      ∧ synced.lookup key = some (.object members) := by
    unfold BodyEnv.teamEntity at hentity
    cases hsynced : response.synced with
    | object synced =>
      rw [hsynced] at hentity
      exact ⟨synced, rfl, hentity⟩
    | null | bool | number | string | array =>
      rw [hsynced] at hentity
      cases hentity
  have hskips : SkipsNothing (.team teamId) key (.object m) ↔ ZeroOrAbsent members "skipped"
      ∧ CountOrAbsent members "inserted" ∧ CountOrAbsent members "updated"
      ∧ ¬ (members.lookup "inserted" = none ∧ members.lookup "updated" = none
        ∧ members.lookup "skipped" = none) := by
    unfold SkipsNothing
    dsimp only
    rw [hdetail]
    simp
  rw [hskips]
  unfold BodyEnv.teamSkippedFor
  rw [hsynced]
  dsimp only
  rw [hlookup]
  dsimp only
  simp only [bind_eq_ok]
  constructor
  · rintro ⟨inserted, hinserted, updated, hupdated, skipped, hskipped, h⟩
    split at h
    next => cases h
    next hsome =>
      have hzero : skipped = none ∨ skipped = some 0 := by
        cases skipped with
        | none => exact .inl rfl
        | some n => exact .inr (congrArg some (Except.ok.inj h))
      refine ⟨?_, countOrAbsent_of_ok hinserted, countOrAbsent_of_ok hupdated, fun hnone => hsome ?_⟩
      · rcases hzero with rfl | rfl
        · exact countAt_zero_iff.mp (.inl hskipped)
        · exact countAt_zero_iff.mp (.inr hskipped)
      · rw [countAt_ok_none hinserted hnone.1, countAt_ok_none hupdated hnone.2.1,
          countAt_ok_none hskipped hnone.2.2]
        exact ⟨rfl, rfl, rfl⟩
  · rintro ⟨hskipped, hinserted, hupdated, hsome⟩
    obtain ⟨inserted, hinserted⟩ := @exists_countAt_ok benv _ _ _ _ hinserted
    obtain ⟨updated, hupdated⟩ := @exists_countAt_ok benv _ _ _ _ hupdated
    have hskipped : ∃ skipped, benv.countAt "count" s!"synced.{key}" members "skipped" = .ok skipped
        ∧ (skipped = none ∨ skipped = some 0) := by
      rcases @countAt_zero_iff benv _ _ _ _ |>.mpr hskipped with h | h
      · exact ⟨none, h, .inl rfl⟩
      · exact ⟨some 0, h, .inr rfl⟩
    obtain ⟨skipped, hskipped, hzero⟩ := hskipped
    refine ⟨inserted, hinserted, updated, hupdated, skipped, hskipped, ?_⟩
    rw [if_neg fun hnone => hsome ⟨?_, ?_, ?_⟩]
    · rcases hzero with rfl | rfl
      · rfl
      · rfl
    · exact lookup_of_countAt_none hinserted (Option.isNone_iff_eq_none.mp hnone.1)
    · exact lookup_of_countAt_none hupdated (Option.isNone_iff_eq_none.mp hnone.2.1)
    · exact lookup_of_countAt_none hskipped (Option.isNone_iff_eq_none.mp hnone.2.2)

end Rows

/-! ## 名指し -/

section Itemized

variable {benv : BodyEnv} {key location list id : String} {detail body : Json}
  {read : Json → Except DeError PushItemizedFailure}

theorem string_required_ok {m : Members} {name : String} {s : String}
    (h : Codec.string.required m name = .ok s) : m.lookup name = some (.string s) := by
  unfold Codec.required at h
  cases hlookup : m.lookup name with
  | none =>
    rw [hlookup] at h
    cases h
  | some v =>
    rw [hlookup] at h
    cases v with
    | string s' => rw [← Except.ok.inj h]
    | null | bool | number | array | object => cases h

theorem string_de_ok {v : Json} {s : String} (h : Codec.string.de v = .ok s) : v = .string s := by
  cases v with
  | string s' => rw [← Except.ok.inj h]
  | null | bool | number | array | object => cases h

/-- 読めた要素の名前は、挙げられた名前である。 -/
def ReadsId (read : Json → Except DeError PushItemizedFailure) : Prop :=
  ∀ v f id, read v = .ok f → namesId id v → f.id = id

theorem readRejection_readsId : ReadsId PushItemizedFailure.readRejection := by
  intro v f id h hnames
  unfold PushItemizedFailure.readRejection at h
  split at h
  next m =>
    simp only [bind_eq_ok] at h
    obtain ⟨id', hid', reason, -, existing, -, h⟩ := h
    rw [← Except.ok.inj h]
    have hlookup : m.lookup "id" = some (.string id) := by simpa [namesId] using hnames
    rw [string_required_ok hid'] at hlookup
    exact Json.string.inj (Option.some.inj hlookup)
  next first reason existing =>
    simp only [bind_eq_ok] at h
    obtain ⟨id', hid', reason, -, existing, -, h⟩ := h
    rw [← Except.ok.inj h]
    rw [string_de_ok hid'] at hnames
    have heq : id' = id := by simpa [namesId] using hnames
    exact heq
  next => cases h
  next => cases h

theorem readInvalid_readsId {render : Json → String} :
    ReadsId (PushItemizedFailure.readInvalid render) := by
  intro v f id h hnames
  unfold PushItemizedFailure.readInvalid at h
  split at h
  next m =>
    simp only [bind_eq_ok] at h
    obtain ⟨id', hid', reason, -, -, -, detail, -, h⟩ := h
    rw [← Except.ok.inj h]
    have hlookup : m.lookup "id" = some (.string id) := by simpa [namesId] using hnames
    rw [string_required_ok hid'] at hlookup
    exact Json.string.inj (Option.some.inj hlookup)
  next first reason detail =>
    simp only [bind_eq_ok] at h
    obtain ⟨id', hid', -, -, h⟩ := h
    rw [← Except.ok.inj h]
    rw [string_de_ok hid'] at hnames
    have heq : id' = id := by simpa [namesId] using hnames
    exact heq
  next => cases h
  next => cases h

/-- 名指しの列が読めれば、挙げられた名前がそこにある。 -/
theorem readItemized_itemizes (hread : ReadsId read)
    (hnamed : NamedIn (detail.get? list) (namesId id)) :
    Itemizes (benv.readItemized location list read detail) id := by
  obtain ⟨vs, hlist, v, hv, hnames⟩ := hnamed
  intro fs hfs
  unfold BodyEnv.readItemized at hfs
  cases detail with
  | object m =>
    have hlookup : m.lookup list = some (.array vs) := hlist
    dsimp only at hfs
    rw [hlookup] at hfs
    dsimp only [readArray] at hfs
    cases hmap : vs.mapM read with
    | error e =>
      rw [hmap] at hfs
      cases hfs
    | ok l =>
      rw [hmap] at hfs
      obtain ⟨f, hf, hok⟩ := exists_mem_of_mapM_ok hmap hv
      exact ⟨l, (Except.ok.inj hfs).symm, f, hf, hread v f id hok hnames⟩
  | null | bool | number | string | array => cases hlist

end Itemized

/-! ## 本文が行を失うこと -/

/-- 本文が行を失うこと。 -/
inductive Discards (kind : PushKind) (batch : SubBatch) (r : QueueRow) (body : Json) : Prop
  /-- team の本文が読めず、返事が無かったものとされる。 -/
  | unreadable {teamId : String} {e : DeError} (hkind : kind = .team teamId)
      (h : TeamPushResponse.read body = .error e)
  /-- 始末が従う `rows[]` が、行を届いたものとする。 -/
  | acknowledged {vs : List Json} {rows : List PushRowResult} {row : PushRowResult}
      (hrows : effectiveRows kind batch.entityKey body = some (.array vs))
      (hread : vs.mapM PushRowResult.read = .ok rows)
      (hcovers : Covers rows (batch.sent.map QueuedSync.entityId))
      (hrow : row ∈ rows) (hid : row.id = r.entityId) (hack : row.acknowledges)
      (hconsumes : Consumes kind ((body.getStr "canonical_id").all (· = batch.project)) r row)
  /-- `rows[]` が無く、数が零と読めるので、名指しは読まれない。 -/
  | unskipped (hrows : effectiveRows kind batch.entityKey body = none)
      (hskips : SkipsNothing kind batch.entityKey body)

section Main

variable {δ : Type} [DecidableEq δ] {env : DeliveryEnv δ} {cfg : PushConfig} {ob : Outbox δ}
  {benv : BodyEnv} {kind : PushKind} {batch : SubBatch} {response : BatchResponse}
  {item : QueuedSync} {r : QueueRow} {body : Json} {text failure : String} {status : Nat}

theorem spares_settleError {items : List QueuedSync} {error : String} :
    Spares r (cfg.settleError items error) := by
  intro call hcall
  obtain ⟨i, -, hcall⟩ := List.mem_flatMap.mp hcall
  rcases List.mem_cons.mp hcall with rfl | hcall
  · rfl
  · split at hcall
    · rw [List.mem_singleton.mp hcall]
      rfl
    · exact absurd hcall List.not_mem_nil

/-- `rows[]` が無いのに名指されたなら、名指しは `rejected[]` か `invalid[]` にある。 -/
theorem NamesFailed.itemized {key id : String} (h : NamesFailed kind key id body)
    (hrows : effectiveRows kind key body = none) :
    ∃ detail, entityDetail kind key body = some detail
      ∧ (NamedIn (detail.get? "rejected") (namesId id)
        ∨ NamedIn (detail.get? "invalid") (namesId id)) := by
  have hnested : (entityDetail kind key body).bind (Json.get? "rows") = none := by
    cases kind with
    | personal => exact (Option.or_eq_none_iff.mp hrows).1
    | team teamId => exact (Option.or_eq_none_iff.mp hrows).2
  have htop : ∀ vs, body.get? "rows" ≠ some (.array vs) := by
    intro vs hvs
    cases kind with
    | personal =>
      have hnone : body.get? "rows" = none := (Option.or_eq_none_iff.mp hrows).2
      rw [hnone] at hvs
      cases hvs
    | team teamId =>
      have hnone : nonNull (body.get? "rows") = none := (Option.or_eq_none_iff.mp hrows).1
      rw [hvs] at hnone
      cases hnone
  unfold NamesFailed at h
  cases hdetail : entityDetail kind key body with
  | none =>
    rw [hdetail] at h
    rcases h with ⟨vs, hvs, -⟩ | ⟨vs, hvs, -⟩ | ⟨vs, hvs, -⟩ | ⟨vs, hvs, -⟩
    · cases hvs
    · cases hvs
    · cases hvs
    · exact absurd hvs (htop vs)
  | some detail =>
    rw [hdetail] at h hnested
    refine ⟨detail, rfl, ?_⟩
    rcases h with h | h | ⟨vs, hvs, -⟩ | ⟨vs, hvs, -⟩
    · exact .inl h
    · exact .inr h
    · rw [hnested] at hvs
      cases hvs
    · exact absurd hvs (htop vs)

/-- 名指しのある項目は object である。 -/
theorem object_of_namedIn {detail : Json} {list : String} {p : Json → Bool}
    (h : NamedIn (detail.get? list) p) : ∃ m, detail = .object m := by
  obtain ⟨vs, hvs, -⟩ := h
  cases detail with
  | object m => exact ⟨m, rfl⟩
  | null | bool | number | string | array => cases hvs

theorem NamesFailed.object {key id : String} (h : NamesFailed kind key id body) :
    ∃ m, body = .object m := by
  cases body with
  | object m => exact ⟨m, rfl⟩
  | null | bool | number | string | array =>
    cases kind with
    | personal => rcases h with ⟨vs, hvs, -⟩ | ⟨vs, hvs, -⟩ | ⟨vs, hvs, -⟩ | ⟨vs, hvs, -⟩ <;> cases hvs
    | team teamId =>
      rcases h with ⟨vs, hvs, -⟩ | ⟨vs, hvs, -⟩ | ⟨vs, hvs, -⟩ | ⟨vs, hvs, -⟩ <;> cases hvs

/-- 読んだ返事が、本文のとおりであること。 -/
structure ReadsBody (kind : PushKind) (batch : SubBatch) (body : Json) (response : BatchResponse) :
    Prop where
  rows : ReadsAs (effectiveRows kind batch.entityKey body) response.rows
  skipped : (kind = .personal ∨ ∃ m, entityDetail kind batch.entityKey body = some (.object m)) →
    (response.skipped = .ok 0 ↔ SkipsNothing kind batch.entityKey body)
  canonicalId : kind ≠ .personal → response.canonicalId = body.getStr "canonical_id"
  itemizes : ∀ {detail id}, entityDetail kind batch.entityKey body = some detail →
    NamedIn (detail.get? "rejected") (namesId id) ∨ NamedIn (detail.get? "invalid") (namesId id) →
      Itemizes response.rejected id ∨ Itemizes response.invalid id

theorem personalResponse_readsBody (hparse : benv.parse text = some body)
    (hkey : batch.entityKey ≠ "skipped") :
    ReadsBody .personal batch body (benv.personalResponse batch.entityKey text) := by
  unfold BodyEnv.personalResponse
  rw [hparse]
  refine
    { rows := personalRows_readsAs hkey
      skipped := fun _ => skippedCountFor_zero_iff hkey
      canonicalId := fun h => absurd rfl h
      itemizes := ?_ }
  intro detail id hdetail hnamed
  have hlookup : (PushResponse.read (some body)).fields.lookup batch.entityKey = some detail := by
    rw [fields_lookup hkey]
    exact hdetail
  dsimp only
  rw [hlookup]
  exact hnamed.imp (readItemized_itemizes readRejection_readsId)
    (readItemized_itemizes readInvalid_readsId)

theorem teamResponse_readsBody {m : Members} {teamId : String} {answer : TeamPushResponse}
    (hparse : benv.parse text = some (.object m))
    (hanswer : TeamPushResponse.read (.object m) = .ok answer) :
    ReadsBody (.team teamId) batch (.object m) (benv.teamResponse batch.entityKey text) := by
  have hreads := teamReads_of_read hanswer
  unfold BodyEnv.teamResponse
  rw [hparse, Option.map_some, hanswer]
  refine
    { rows := hreads.rows_readsAs
      skipped := ?_
      canonicalId := fun _ => hreads.canonicalId
      itemizes := ?_ }
  · rintro (hkind | ⟨members, hdetail⟩)
    · cases hkind
    · exact hreads.skipped_zero_iff hdetail ⟨members, rfl⟩
  · intro detail id hdetail hnamed
    have hentity := @TeamReads.teamEntity batch.entityKey m answer teamId hreads
    rw [hdetail] at hentity
    unfold BodyEnv.teamEntity at hentity
    dsimp only [BodyEnv.teamItemized]
    cases hsynced : answer.synced with
    | object synced =>
      rw [hsynced] at hentity
      have hlookup : synced.lookup batch.entityKey = some detail := hentity
      dsimp only
      rw [hlookup]
      exact hnamed.imp (readItemized_itemizes readRejection_readsId)
        (readItemized_itemizes readInvalid_readsId)
    | null | bool | number | string | array =>
      rw [hsynced] at hentity
      cases hentity

/-- 本文のとおりに読んだ返事が行を失うのは、読めた本文がその行を失うときである。 -/
theorem ReadsBody.loses_iff {id : String} (h : ReadsBody kind batch body response)
    (hreadable : ∀ teamId e, kind = .team teamId → TeamPushResponse.read body ≠ .error e)
    (hnamed : NamesFailed kind batch.entityKey id body) :
    response.Loses kind batch r ↔ Discards kind batch r body := by
  have hrows := h.rows
  unfold BatchResponse.Loses
  cases heff : effectiveRows kind batch.entityKey body with
  | none =>
    rw [heff] at hrows
    have hnone : response.rows = .ok none := hrows
    rw [hnone]
    dsimp only
    obtain ⟨detail, hdetail, hitem⟩ := hnamed.itemized heff
    have hobject : ∃ m, detail = .object m := by
      rcases hitem with hitem | hitem
      · exact object_of_namedIn hitem
      · exact object_of_namedIn hitem
    obtain ⟨m, rfl⟩ := hobject
    rw [h.skipped (.inr ⟨m, hdetail⟩)]
    constructor
    · exact .unskipped heff
    · rintro (⟨hkind, he⟩ | ⟨hvs, -, -, -, -, -, -⟩ | ⟨-, hskips⟩)
      · exact absurd he (hreadable _ _ hkind)
      · rw [heff] at hvs
        cases hvs
      · exact hskips
  | some v =>
    rw [heff] at hrows
    unfold ReadsAs at hrows
    dsimp only at hrows
    cases hread : readArray PushRowResult.read v with
    | error e =>
      rw [hread] at hrows
      obtain ⟨e', he'⟩ := hrows
      rw [he']
      refine iff_of_false not_false ?_
      rintro (⟨hkind, he⟩ | ⟨hvs, hok, -, -, -, -, -⟩ | ⟨hvs, -⟩)
      · exact hreadable _ _ hkind he
      · rw [heff] at hvs
        cases hvs
        rw [show readArray PushRowResult.read (.array _) = _ from hok] at hread
        cases hread
      · rw [heff] at hvs
        cases hvs
    | ok rows =>
      rw [hread] at hrows
      have hsome : response.rows = .ok (some rows) := hrows
      rw [hsome]
      dsimp only
      obtain ⟨vs, rfl⟩ : ∃ vs, v = .array vs := by
        cases v with
        | array vs => exact ⟨vs, rfl⟩
        | null | bool | number | string | object => cases hread
      have hconsumes : ∀ row, Consumes kind (response.canonicalId.all (· = batch.project)) r row
          ↔ Consumes kind ((body.getStr "canonical_id").all (· = batch.project)) r row := by
        intro row
        by_cases hkind : kind = .personal
        · exact iff_of_true (fun hne => absurd hkind hne) fun hne => absurd hkind hne
        · rw [h.canonicalId hkind]
      constructor
      · rintro ⟨hcovers, row, hrow, hid, hack, hcons⟩
        exact .acknowledged heff hread hcovers hrow hid hack ((hconsumes row).mp hcons)
      · rintro (⟨hkind, he⟩ | ⟨hvs, hok, hcovers, hrow, hid, hack, hcons⟩ | ⟨hvs, -⟩)
        · exact absurd he (hreadable _ _ hkind)
        · rw [heff] at hvs
          cases hvs
          rw [show readArray PushRowResult.read (.array _) = _ from hok] at hread
          cases hread
          exact ⟨hcovers, _, hrow, hid, hack, (hconsumes _).mpr hcons⟩
        · rw [heff] at hvs
          cases hvs

omit [DecidableEq δ] in
/-- 200 と 201 の返事の始末が、名指した行を残す条件。 -/
theorem response_spares_iff (hparse : benv.parse text = some body)
    (hkey : batch.entityKey ≠ "skipped")
    (hqueued : ∀ i ∈ batch.sent, ∃ r, Queued kind ob i r) (hitem : item ∈ batch.sent)
    (hr : Queued kind ob item r) (hnamed : NamesFailed kind batch.entityKey item.entityId body) :
    Spares r (cfg.settleResponse kind batch (benv.response kind batch.entityKey text))
      ↔ ¬ Discards kind batch r body := by
  have hreads : ∀ response, ReadsBody kind batch body response →
      (∀ teamId e, kind = .team teamId → TeamPushResponse.read body ≠ .error e) →
      (Spares r (cfg.settleResponse kind batch response) ↔ ¬ Discards kind batch r body) := by
    intro response hreads hreadable
    rw [settleResponse_spares_iff hqueued hitem hr, hreads.loses_iff hreadable hnamed]
    intro hrows
    have heff : effectiveRows kind batch.entityKey body = none := by
      have hreadsAs := hreads.rows
      unfold ReadsAs at hreadsAs
      cases heff : effectiveRows kind batch.entityKey body with
      | none => rfl
      | some v =>
        rw [heff, hrows] at hreadsAs
        dsimp only at hreadsAs
        cases hread : readArray PushRowResult.read v with
        | ok rows =>
          rw [hread] at hreadsAs
          cases hreadsAs
        | error e =>
          rw [hread] at hreadsAs
          obtain ⟨e', he⟩ := hreadsAs
          cases he
    obtain ⟨detail, hdetail, hlist⟩ := hnamed.itemized heff
    exact hreads.itemizes hdetail hlist
  cases kind with
  | personal => exact hreads _ (personalResponse_readsBody hparse hkey) nofun
  | team teamId =>
    obtain ⟨m, rfl⟩ := hnamed.object
    cases hread : TeamPushResponse.read (.object m) with
    | ok answer =>
      refine hreads _ (teamResponse_readsBody hparse hread) fun teamId' e _ he => ?_
      rw [hread] at he
      cases he
    | error e =>
      -- 読めない本文は空の返事になり、送った行が全部消える
      have hempty : benv.response (.team teamId) batch.entityKey text = {} := by
        show benv.teamResponse batch.entityKey text = {}
        unfold BodyEnv.teamResponse
        rw [hparse, Option.map_some, hread]
      have hid : r.id = item.id := by rw [← hr.mapRow]; rfl
      rw [hempty]
      exact iff_of_false (not_spares_syncAll hitem hid) fun h => h (.unreadable rfl hread)

/--
失敗と名指された行が始末の後も列に残るのは、本文がその行を失うときを除く全部である。

2xx のうち 200 と 201 のほかは、送れなかったものとして始末される。
-/
theorem settleAnswer_keeps_named_iff (hparse : benv.parse text = some body)
    (hkey : batch.entityKey ∈ pushEntityKeys)
    (hqueued : ∀ i ∈ batch.sent, ∃ r, Queued kind ob i r) (hitem : item ∈ batch.sent)
    (hr : Queued kind ob item r) (hnamed : NamesFailed kind batch.entityKey item.entityId body) :
    (∃ r' ∈ (runCalls env cfg ob (cfg.settleAnswer benv kind batch status text failure)).queue.rows,
      r'.id = r.id)
      ↔ ¬ ((status = 200 ∨ status = 201) ∧ Discards kind batch r body) := by
  have hskipped : batch.entityKey ≠ "skipped" := by
    intro h
    rw [h] at hkey
    exact absurd hkey (by decide)
  rw [runCalls_keeps_iff hr.mem]
  unfold PushConfig.settleAnswer
  by_cases hstatus : status = 200 ∨ status = 201
  · rw [if_pos hstatus, response_spares_iff hparse hskipped hqueued hitem hr hnamed]
    simp [hstatus]
  · rw [if_neg hstatus]
    exact iff_of_true spares_settleError fun h => hstatus h.1

end Main

/-! ## 数が零の本文 -/

/-- 列に一件だけ待っている手元。 -/
def draftOutbox : Outbox Json where
  queue := titleEnv.enqueueWithTeamProject [] none SyncQueue.empty (taskWrite draftPayload 1)

/-- その一件を送る小分け。 -/
def draftBatch : SubBatch where
  items := [(draftItem, .object [("title", .string "draft")])]
  entityKey := "tasks"
  project := "p"

/-- `cas-1` を断ったとする項目。 -/
def draftRejection : String × Json :=
  ("rejected", .array [.object [("id", .string "cas-1"), ("reason", .string "project_mismatch"),
    ("existing_canonical_id", .string "q")]])

/-- 断っておいて、数は何も言わない本文。 -/
def silentText : String :=
  "\x7b\"tasks\":\x7b\"rejected\":[\x7b\"id\":\"cas-1\",\"reason\":\"project_mismatch\",\"existing_canonical_id\":\"q\"\x7d]\x7d\x7d"

def silentBody : Json := .object [("tasks", .object [draftRejection])]

/-- 同じ断りに、数を添えた本文。 -/
def countedText : String :=
  "\x7b\"tasks\":\x7b\"skipped\":1,\"rejected\":[\x7b\"id\":\"cas-1\",\"reason\":\"project_mismatch\",\"existing_canonical_id\":\"q\"\x7d]\x7d\x7d"

def countedBody : Json :=
  .object [("tasks", .object [("skipped", .number (.posInt 1)), draftRejection])]

/-- 例に使う本文だけを読む環境。 -/
def draftBodyEnv : BodyEnv where
  parse := fun text =>
    if text = silentText then some silentBody
    else if text = countedText then some countedBody
    else none
  render := fun _ => ""
  describe := fun _ => ""

/-- 数の無い本文では、断られた行が消える。 -/
theorem rejected_row_synced :
    NamesFailed .personal "tasks" "cas-1" silentBody
      ∧ (∃ r ∈ draftOutbox.queue.rows, r.mapRow = draftItem)
      ∧ ¬ ∃ r' ∈ (runCalls titleEnv titleConfig draftOutbox
          (titleConfig.settleAnswer draftBodyEnv .personal draftBatch 200 silentText "")).queue.rows,
        r'.id = draftItem.id :=
  ⟨.inl ⟨_, rfl, _, List.mem_cons_self, by decide⟩, by decide, by decide⟩

/-- 数を添えた本文では、断られた行が残る。 -/
theorem settleAnswer_keeps_named_counted :
    ∃ r' ∈ (runCalls titleEnv titleConfig draftOutbox
        (titleConfig.settleAnswer draftBodyEnv .personal draftBatch 200 countedText "")).queue.rows,
      r'.id = 1 := by
  have hqueued : Queued .personal draftOutbox draftItem ((taskWrite draftPayload 1).row 1) :=
    ⟨by decide, rfl, nofun⟩
  have hall : ∀ i ∈ draftBatch.sent, ∃ r, Queued .personal draftOutbox i r := by
    intro i hi
    rw [List.mem_singleton.mp hi]
    exact ⟨_, hqueued⟩
  have hnamed : NamesFailed .personal draftBatch.entityKey draftItem.entityId countedBody :=
    .inl ⟨_, rfl, _, List.mem_cons_self, by decide⟩
  have hkeeps : (∃ r' ∈ (runCalls titleEnv titleConfig draftOutbox
        (titleConfig.settleAnswer draftBodyEnv .personal draftBatch 200 countedText "")).queue.rows,
      r'.id = ((taskWrite draftPayload 1).row 1).id)
      ↔ ¬ ((200 = 200 ∨ 200 = 201)
        ∧ Discards .personal draftBatch ((taskWrite draftPayload 1).row 1) countedBody) :=
    settleAnswer_keeps_named_iff (by decide) (by decide) hall List.mem_cons_self hqueued
      hnamed
  refine hkeeps.mpr ?_
  rintro ⟨-, hkind | hrows | ⟨-, hskips⟩⟩
  · cases hkind
  · cases hrows
  · rcases hskips.2 _ rfl with h | h
    · cases h
    · revert h
      decide

end Cassy
