import Cassy.Infra.Find

/-!
# project の名前

`cloud/config.rs` の `canonical_project_id` と `project_ids_match`。同じ project に何通りもの綴りがあるので、
持ち主の判定は綴りを揃えてから比べる。

登録された別名の集合は、設定から読んで引数 `aliasClass` に渡す。
-/

namespace Cassy

open Infra

/-- `strip_prefix_ascii_case_insensitive`。 -/
def stripPrefixAsciiCaseInsensitive (value pre : Text) : Option Text :=
  if pre.length ≤ value.length ∧ eqIgnoreAsciiCase (value.take pre.length) pre then
    some (value.drop pre.length)
  else none

/-- `trim_matches('/')`。 -/
def trimSlashes (t : Text) : Text := trimEndMatches (· = '/') (t.dropWhile (· = '/'))

/-- 末尾の `.git` を落とす。大文字と小文字は区別しない。 -/
def stripDotGit (t : Text) : Text :=
  let n := t.length - 4
  if 4 ≤ t.length ∧ eqIgnoreAsciiCase (t.drop n) ".git".toList then t.take n else t

/-- `git@host:path` を `host/path` に直す。 -/
def rewriteScpForm (value : Text) : Text :=
  match stripPrefixAsciiCaseInsensitive value "git@".toList with
  | none => value
  | some rest =>
    match splitOnce [':'] rest with
    | some (host, path) => if host.isEmpty then value else host ++ '/' :: path
    | none => value

/-- `canonical_project_id`。 -/
def canonicalProjectId (value : Text) : Option Text :=
  let trimmed := trim value
  if trimmed.isEmpty then none
  else
    let value := ((stripPrefixAsciiCaseInsensitive trimmed "https://".toList).or
      (stripPrefixAsciiCaseInsensitive trimmed "http://".toList)).getD trimmed
    let value := (stripPrefixAsciiCaseInsensitive value "ssh://git@".toList).getD value
    let value := rewriteScpForm value
    let cleaned := (trimSlashes (stripDotGit (trimEndMatches (· = '/') value))).map toAsciiLower
    if cleaned.isEmpty then none else some cleaned

/-- `value.rsplit('/').next()`。 -/
def finalSegment (value : Text) : Text := (value.reverse.takeWhile (· ≠ '/')).reverse

/-- `project_id_aliases`。`host/owner/repo` の形の名前は、末尾だけの名前と同じ project を指す。 -/
def projectIdAliases (candidate pinned : Text) : Bool :=
  2 ≤ candidate.count '/' ∧ ¬ 2 ≤ pinned.count '/' ∧ finalSegment candidate = pinned

/-- `project_ids_match_with_aliases`。 -/
def projectIdsMatchWithAliases (candidate current : Text) (aliasClass : List Text) : Bool :=
  match canonicalProjectId candidate, canonicalProjectId current with
  | some candidate, some current =>
    candidate = current || projectIdAliases candidate current || projectIdAliases current candidate
      || ((aliasClass.filterMap canonicalProjectId).contains candidate
        && (aliasClass.filterMap canonicalProjectId).contains current)
  | _, _ => false

/-- `project_ids_match`。 -/
def projectIdsMatch (aliasClass : List Text) (candidate current : String) : Bool :=
  projectIdsMatchWithAliases candidate.toList current.toList aliasClass

end Cassy
