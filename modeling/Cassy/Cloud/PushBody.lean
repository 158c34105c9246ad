import Cassy.Cloud.Push

/-!
# 返事の本文

`cloud/syncer/mod.rs`、`push.rs`、`team_push.rs` の、返事の本文を読むところ。本文は JSON で、行ごとの結果 `rows[]`、断られた
行 `rejected[]`、版の悪い行 `invalid[]`、数 `skipped` などを、種類の名前の下に持つ。個人の push は一番上に、team の push は
`synced` の下に種類の名前を置く。`rows[]` は一番上にあってもよい。

個人の push は読めない本文を空の返事として扱う。team の push は、読めない本文を返事が無かったものとして扱う。どちらでも、
行は送れたことになる。

ここで読んだものが `BatchResponse` で、始末は `settleResponse` がする。
-/

namespace Cassy

open Infra

/-- 本文を読むときに外から受け取るもの。 -/
structure BodyEnv where
  /-- `serde_json::from_str` -/
  parse : String → Option Json
  /-- `Value` の表示 -/
  render : Json → String
  /-- 読めなかった理由の表示 -/
  describe : DeError → String

/-- 種類の項目の名前。 -/
def pushEntityKeys : List String :=
  ["entries", "tasks", "rules", "skills", "sessions", "verifications", "events", "prompts",
    "file_changes", "commit_links", "agents", "worktrees", "task_dependencies"]

/-! ## 列の要素 -/

/-- 値を持たない列挙子。名前だけでも、`null` を値とする object でもよい。 -/
def readUnitVariant {α : Type} (ofName : String → Option α) : Json → Except DeError α
  | .string name => okOr (ofName name) (.unknownVariant name)
  | .object [(name, .null)] => okOr (ofName name) (.unknownVariant name)
  | _ => .error .invalidType

/-- 列に書かれた構造体の、既定値のある field。 -/
def optionalElement {α : Type} (c : Codec α) : Option Json → Except DeError (Option α)
  | none | some .null => .ok none
  | some v => (c.de v).map some

/-- `Vec<T>` を読む。 -/
def readArray {α : Type} (read : Json → Except DeError α) : Json → Except DeError (List α)
  | .array vs => vs.mapM read
  | _ => .error .invalidType

namespace PushRowOutcome

/-- `rename_all = "snake_case"` の名前。 -/
def asStr : PushRowOutcome → String
  | .inserted => "inserted"
  | .updated => "updated"
  | .skippedLww => "skipped_lww"
  | .rejected => "rejected"

def ofName (name : String) : Option PushRowOutcome :=
  [PushRowOutcome.inserted, .updated, .skippedLww, .rejected].find? fun o => o.asStr = name

def codec : Codec PushRowOutcome where
  ser o := .string o.asStr
  de := readUnitVariant ofName

end PushRowOutcome

/-- `PushRejectionReason` の読み書き。 -/
def PushRejectionReason.codec : Codec PushRejectionReason where
  ser reason := .string reason.asStr
  de := readUnitVariant fun name =>
    [PushRejectionReason.projectMismatch, .scopeMismatch].find? fun reason => reason.asStr = name

/-- `PushInvalidReason`。`invalid_revision` の一つだけである。 -/
def readInvalidReason : Json → Except DeError Unit :=
  readUnitVariant fun name => if name = "invalid_revision" then some () else none

/-- `PushRowResult` を読む。構造体は列でも読める。 -/
def PushRowResult.read : Json → Except DeError PushRowResult
  | .object m => do
    .ok
      { id := ← Codec.string.required m "id"
        outcome := ← PushRowOutcome.codec.required m "outcome"
        reason := ← Codec.string.optional m "reason"
        existingCanonicalId := ← Codec.string.optional m "existing_canonical_id" }
  | .array (id :: outcome :: rest) => do
    if 2 < rest.length then .error (.custom "invalid length")
    else
      .ok
        { id := ← Codec.string.de id
          outcome := ← PushRowOutcome.codec.de outcome
          reason := ← optionalElement Codec.string rest[0]?
          existingCanonicalId := ← optionalElement Codec.string rest[1]? }
  | .array _ => .error (.custom "invalid length")
  | _ => .error .invalidType

namespace PushItemizedFailure

/-- `PushRejection` を読む。 -/
def readRejection : Json → Except DeError PushItemizedFailure
  | .object m => do
    let id ← Codec.string.required m "id"
    let reason ← PushRejectionReason.codec.required m "reason"
    let existing ← Codec.string.required m "existing_canonical_id"
    .ok (.rejection id reason existing)
  | .array [id, reason, existing] => do
    let id ← Codec.string.de id
    let reason ← PushRejectionReason.codec.de reason
    let existing ← Codec.string.de existing
    .ok (.rejection id reason existing)
  | .array _ => .error (.custom "invalid length")
  | _ => .error .invalidType

/-- `PushInvalid` を読む。`detail` は表示した形で持つ。 -/
def readInvalid (render : Json → String) : Json → Except DeError PushItemizedFailure
  | .object m => do
    let id ← Codec.string.required m "id"
    let reason ← Codec.value.required m "reason"
    readInvalidReason reason
    let detail ← Codec.value.required m "detail"
    .ok (.invalid id (render detail))
  | .array [id, reason, detail] => do
    let id ← Codec.string.de id
    readInvalidReason reason
    .ok (.invalid id (render detail))
  | .array _ => .error (.custom "invalid length")
  | _ => .error .invalidType

end PushItemizedFailure

/-! ## 種類の object -/

/-- `as_object`。 -/
def Infra.Json.asObject : Json → Option Members
  | .object m => some m
  | _ => none

namespace BodyEnv

variable (env : BodyEnv)

/-- `as_u64`。 -/
def readCount (what location : String) : Json → Except String Nat
  | .number (.posInt n) => .ok n.toNat
  | v => .error s!"unrecognized {what} at {location}: {env.render v}"

/-- object の数の項目。無ければ `none`。 -/
def countAt (what location : String) (m : Members) (key : String) : Except String (Option Nat) :=
  match m.lookup key with
  | none => .ok none
  | some v => (env.readCount what s!"{location}.{key}" v).map some

/-- `row_results_for` の読むところ。object でないか `rows` が無ければ `none`。 -/
def readRows (location : String) (entity : Json) : Except String (Option (List PushRowResult)) :=
  match entity.asObject.bind (·.lookup "rows") with
  | none => .ok none
  | some v =>
    match readArray PushRowResult.read v with
    | .ok rows => .ok (some rows)
    | .error e => .error s!"unrecognized {location}.rows: {env.describe e}"

/-- `itemized_rejections_for` と `itemized_invalids_for` の読むところ。 -/
def readItemized (location key : String) (read : Json → Except DeError PushItemizedFailure)
    (entity : Json) : Except String (Option (List PushItemizedFailure)) :=
  match entity with
  | .object m =>
    match m.lookup key with
    | none => .ok none
    | some v =>
      match readArray read v with
      | .ok failures => .ok (some failures)
      | .error e => .error s!"unrecognized {location}.{key}: {env.describe e}"
  | _ => .error s!"{location} is not an object: {env.render entity}"

end BodyEnv

/-! ## 個人の push -/

/-- `PushResponse`。`skipped` のほかの項目はまとめて `fields` に入る。 -/
structure PushResponse where
  skipped : Option Json := none
  fields : Members := []

/-- `Option<Value>` の field。`null` は無いのと同じである。 -/
def nonNull : Option Json → Option Json
  | some .null => none
  | v => v

/-- 本文を `PushResponse` として読む。読めなければ空の返事である。 -/
def PushResponse.read : Option Json → PushResponse
  | some (.object m) =>
    { skipped := nonNull (m.lookup "skipped")
      fields := m.filter fun field => field.1 ≠ "skipped" }
  | _ => {}

namespace BodyEnv

variable (env : BodyEnv)

/-- 一番上の `skipped` にある数。 -/
def topSkipped (response : PushResponse) (entityKey : String) : Except String (Option Nat) :=
  match response.skipped with
  | none => .ok none
  | some (.object byEntity) => env.countAt "cloud skip count" "skipped" byEntity entityKey
  | some v => .error s!"unrecognized cloud skip report at skipped: {env.render v}"

/-- 種類の下の `skipped` にある数。 -/
def nestedSkipped (response : PushResponse) (entityKey : String) : Except String (Option Nat) :=
  match (response.fields.lookup entityKey).bind Json.asObject with
  | none => .ok none
  | some entity => env.countAt "cloud skip count" entityKey entity "skipped"

/-- 二つの数を合わせる。食い違えば失敗である。 -/
def combineSkipped (entityKey : String) : Option Nat → Option Nat → Except String Nat
  | some top, some nested =>
    if top ≠ nested then
      .error s!"conflicting cloud skip counts for {entityKey}: top-level={top}, nested={nested}"
    else .ok top
  | some n, none | none, some n => .ok n
  | none, none => .ok 0

/-- `PushResponse::skipped_count_for`。 -/
def skippedCountFor (response : PushResponse) (entityKey : String) : Except String Nat := do
  let topLevel ← env.topSkipped response entityKey
  let nested ← env.nestedSkipped response entityKey
  combineSkipped entityKey topLevel nested

/-- `PushResponse::row_results_for` の読むところ。種類の下の `rows` が、一番上の `rows` より先である。 -/
def personalRows (response : PushResponse) (entityKey : String) :
    String × Except String (Option (List PushRowResult)) :=
  let topLevel := ("rows", match response.fields.lookup "rows" with
    | none => .ok none
    | some rows => env.readRows "rows" (.object [("rows", rows)]))
  match response.fields.lookup entityKey with
  | none => topLevel
  | some entity =>
    match env.readRows entityKey entity with
    | .ok none => topLevel
    | nested => (entityKey, nested)

/-- 個人の push が読む返事。 -/
def personalResponse (entityKey body : String) : BatchResponse :=
  let response := PushResponse.read (env.parse body)
  let rows := env.personalRows response entityKey
  let itemized (key : String) (read : Json → Except DeError PushItemizedFailure) :=
    match response.fields.lookup entityKey with
    | none => .ok none
    | some entity => env.readItemized entityKey key read entity
  { rawBody := body
    rowsAt := rows.1
    rows := rows.2
    skipped := env.skippedCountFor response entityKey
    rejected := itemized "rejected" PushItemizedFailure.readRejection
    invalid := itemized "invalid" (PushItemizedFailure.readInvalid env.render) }

end BodyEnv

/-! ## team の push -/

/-- `TeamPushResponse`。 -/
structure TeamPushResponse where
  synced : Json := .null
  rows : Option (List PushRowResult) := none
  canonicalId : Option String := none
  gitRemote : Option String := none

/-- 一番上の `rows`。 -/
def readTopRows : Option Json → Except DeError (Option (List PushRowResult))
  | none | some .null => .ok none
  | some v => (readArray PushRowResult.read v).map some

/-- `TeamPushResponse` を読む。 -/
def TeamPushResponse.read : Json → Except DeError TeamPushResponse
  | .object m => do
    .ok
      { synced := ← Codec.value.withDefault m "synced" .null
        rows := ← readTopRows (m.lookup "rows")
        canonicalId := ← Codec.string.optional m "canonical_id"
        gitRemote := ← Codec.string.optional m "git_remote" }
  | .array vs => do
    if 4 < vs.length then .error (.custom "invalid length")
    else
      .ok
        { synced := vs[0]?.getD Json.null
          rows := ← readTopRows vs[1]?
          canonicalId := ← optionalElement Codec.string vs[2]?
          gitRemote := ← optionalElement Codec.string vs[3]? }
  | _ => .error .invalidType

namespace BodyEnv

variable (env : BodyEnv)

/-- `team_counts_for` の skip の数。種類の項目が無ければ零である。 -/
def teamSkippedFor (response : TeamPushResponse) (entityKey : String) : Except String Nat :=
  match response.synced with
  | .object synced =>
    match synced.lookup entityKey with
    | none => .ok 0
    | some (.number n) =>
      (env.readCount "count" s!"synced.{entityKey}" (.number n)).map fun _ => 0
    | some (.object detail) => do
      let location := s!"synced.{entityKey}"
      let inserted ← env.countAt "count" location detail "inserted"
      let updated ← env.countAt "count" location detail "updated"
      let skipped ← env.countAt "count" location detail "skipped"
      if inserted.isNone ∧ updated.isNone ∧ skipped.isNone then
        .error s!"{location} has no inserted, updated, or skipped count"
      else .ok (skipped.getD 0)
    | some entity =>
      .error s!"synced.{entityKey} is not a count object: {env.render entity}"
  | synced => .error s!"synced is not an object: {env.render synced}"

/-- `synced` の下の種類の項目。 -/
def teamEntity (response : TeamPushResponse) (entityKey : String) : Option Json :=
  response.synced.asObject.bind (·.lookup entityKey)

/-- `team_row_results_for` の読むところ。一番上の `rows` が、種類の下の `rows` より先である。 -/
def teamRows (response : TeamPushResponse) (entityKey : String) :
    String × Except String (Option (List PushRowResult)) :=
  match response.rows with
  | some rows => ("rows", .ok (some rows))
  | none =>
    match teamEntity response entityKey with
    | none => (s!"synced.{entityKey}", .ok none)
    | some entity => (s!"synced.{entityKey}", env.readRows s!"synced.{entityKey}" entity)

/-- `team_itemized_failures_for` の読むところ。 -/
def teamItemized (response : TeamPushResponse) (entityKey key : String)
    (read : Json → Except DeError PushItemizedFailure) :
    Except String (Option (List PushItemizedFailure)) :=
  match response.synced with
  | .object synced =>
    match synced.lookup entityKey with
    | none => .error s!"synced.{entityKey} missing despite skipped count"
    | some entity => env.readItemized s!"synced.{entityKey}" key read entity
  | synced => .error s!"synced is not an object: {env.render synced}"

/-- team の push が読む返事。読めない本文は、返事が無かったものとして扱う。 -/
def teamResponse (entityKey body : String) : BatchResponse :=
  match (env.parse body).map TeamPushResponse.read with
  | some (.ok response) =>
    let rows := env.teamRows response entityKey
    { rawBody := body
      rowsAt := rows.1
      rows := rows.2
      skipped := env.teamSkippedFor response entityKey
      rejected := env.teamItemized response entityKey "rejected" PushItemizedFailure.readRejection
      invalid := env.teamItemized response entityKey "invalid"
        (PushItemizedFailure.readInvalid env.render)
      canonicalId := response.canonicalId }
  | _ => {}

/-- 本文から返事を読む。 -/
def response (kind : PushKind) (entityKey body : String) : BatchResponse :=
  match kind with
  | .personal => env.personalResponse entityKey body
  | .team _ => env.teamResponse entityKey body

end BodyEnv

namespace PushConfig

variable (cfg : PushConfig)

/-- HTTP の返事の始末。200 と 201 のほかは失敗で、`failure` がその文面である。 -/
def settleAnswer (env : BodyEnv) (kind : PushKind) (batch : SubBatch) (status : Nat)
    (body failure : String) : List QueueCall :=
  if status = 200 ∨ status = 201 then
    cfg.settleResponse kind batch (env.response kind batch.entityKey body)
  else cfg.settleError batch.sent failure

end PushConfig

end Cassy
