import Mathlib.Data.List.Destutter
import Mathlib.Data.List.Sort
import Mathlib.Data.Prod.Lex
import Mathlib.Data.String.Basic
import Mathlib.Order.WithBot
import Cassy.Cloud.ProjectId
import Cassy.Task.ExecutionState

/-!
# project の別名の登録

`cloud/project_aliases.rs`。cloud は project ごとに、まとめられた古い綴りを登録している。`/api/account/projects` の並びから、この
checkout の project の登録を選ぶ。

同じ名前の登録が team と個人の両方にあれば、team のものを選ぶ。選んだ範囲の中で違う project が同じ綴りを名乗れば誤りである。
-/

namespace Cassy

open Infra

/-- `ProjectAliasRecord`。 -/
structure ProjectAliasRecord where
  canonicalId : String
  aliases : List String
  deriving DecidableEq, Repr

/-- 登録と、その持ち主の team。`none` は個人の project である。 -/
abbrev AliasMatch := Option String × ProjectAliasRecord

namespace ProjectAliases

/-- `canonical_project_id`。 -/
def canonical (value : String) : Option String := (canonicalProjectId value.toList).map String.ofList

/-- `Value::get`。 -/
def get (value : Json) (key : String) : Option Json := (asObject? value).bind (·.lookup key)

/-- `Vec::dedup`。 -/
def dedup {α : Type} [DecidableEq α] (l : List α) : List α := l.destutter (· ≠ ·)

/-- 登録の別名。揃えた綴りを整列し、重複を落とす。 -/
def aliasesOf (project : Json) (canonicalId : String) : List String :=
  let values := ((get project "aliases").bind asArray?).getD []
  dedup ((((values.filterMap asStr?).filterMap canonical).filter (· ≠ canonicalId)).insertionSort (· ≤ ·))

/-- `project_id` を名乗る登録。 -/
def matchOf (projectId : String) (project : Json) : Option AliasMatch :=
  (((get project "canonical_id").bind asStr?).bind canonical).bind fun canonicalId =>
    let aliases := aliasesOf project canonicalId
    if canonicalId = projectId ∨ projectId ∈ aliases then
      some ((get project "team_id").bind asStr?, { canonicalId, aliases })
    else none

/-- team の順。`None` が最も小さい。 -/
def scopeRank : Option String → WithBot String
  | none => ⊥
  | some team => team

/-- 整列の鍵。別名は鍵に入らない。 -/
def sortKey (m : AliasMatch) : String ×ₗ WithBot String := toLex (m.2.canonicalId, scopeRank m.1)

/-- 整列して、隣り合う同じものを落とす。 -/
def arrange (found : List AliasMatch) : List AliasMatch :=
  dedup (found.insertionSort fun a b => sortKey a ≤ sortKey b)

/-- team の登録があればそれだけ、無ければ個人の登録だけ、それも無ければ全て。 -/
def chosen (teamId : Option String) (all : List AliasMatch) : List AliasMatch :=
  let team := all.filter fun m => m.1.isSome && m.1 = teamId
  let personal := all.filter fun m => m.1.isNone
  if team ≠ [] then team else if personal ≠ [] then personal else all

/-- `distinct`。 -/
def distinct (records : List AliasMatch) : Nat := (dedup (records.map (·.2.canonicalId))).length

/-- 誤りの中での登録の綴り。 -/
def describe (m : AliasMatch) : String :=
  match m.1 with
  | some team => m.2.canonicalId ++ " in team " ++ team
  | none => m.2.canonicalId ++ " (personal)"

/-- 違う project が同じ綴りを名乗るときの誤り。 -/
def ambiguous (projectId : String) (inScope : List AliasMatch) : String :=
  "identity \x60" ++ projectId ++ "\x60 is claimed by " ++ toString (distinct inScope)
    ++ " cloud projects (" ++ ", ".intercalate (inScope.map describe) ++ "); refusing to "
    ++ "attribute rows until the registry is disambiguated. Pin this checkout to the "
    ++ "project that owns it with \x60cas cloud project set <canonical-id>\x60, or have the "
    ++ "cloud owner retire the alias on the other project"

/-- 登録の並びから選ぶ。 -/
def select (projectId : String) (teamId : Option String) (projects : List Json) :
    Except String (Option ProjectAliasRecord) :=
  let inScope := chosen teamId (arrange (projects.filterMap (matchOf projectId)))
  match distinct inScope with
  | 0 => .ok none
  | 1 => .ok (inScope.head?.map (·.2))
  | _ => .error (ambiguous projectId inScope)

end ProjectAliases

open ProjectAliases in
/-- `select_alias_record`。 -/
def selectAliasRecord (body : Json) (projectId : String) (teamId : Option String) :
    Except String (Option ProjectAliasRecord) :=
  match canonical projectId with
  | none => .ok none
  | some projectId =>
    match (get body "projects").bind asArray? with
    | none => .error "/api/account/projects response has no \x60projects\x60 array"
    | some projects => select projectId teamId projects

end Cassy
