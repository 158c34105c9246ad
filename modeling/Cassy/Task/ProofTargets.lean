import Cassy.Infra.JsonText
import Mathlib.Logic.Function.Iterate

/-!
# 証明の対象

`cas-types/task.rs` の `proof_targets`。対象は JSON の列として保存され、読むときには JSON の列、コンマ区切り、古い修復の残した
JSON の列とコンマ区切りの混ざったもののどれでも受ける。読み書きのどちらも、対象の列を整えてから使う。
-/

namespace Cassy

open Infra

variable (json : JsonStrings)

/-- 値の頭にある JSON の列を、残りと合わせて読む。残りは無いか、コンマで始まる。 -/
def readListAndTail (value : Text) : Option (List Text) :=
  (json.readList value).bind fun (entries, rest) =>
    match trim rest with
    | [] => some entries
    | c :: tail => if c = ',' then some (entries ++ tail.splitOn ',') else none

/-- `proof_target_entries`。 -/
def proofTargetEntries (value : Text) : List Text :=
  let value := trim value
  let parsed := if value.head? = some '[' then readListAndTail json value else none
  parsed.getD (value.splitOn ',')

/-- `normalize_proof_targets` が見る要素。括弧で始まる列は、切られた JSON の列かもしれないので繋いで読み直す。 -/
def repairedEntries (targets : List Text) : List Text :=
  match targets.head? with
  | some target =>
    if (trim target).head? = some '[' then proofTargetEntries json (List.intercalate [','] targets)
    else targets
  | none => targets

/-- 一つの要素の対象。引用符は一重だけ外れる。 -/
def proofTarget (entry : Text) : Text :=
  let target := trim entry
  trim ((json.unquote target).getD target)

/-- 空でない、まだ無い対象を足す。 -/
def pushTarget (normalized : List Text) (entry : Text) : List Text :=
  let target := proofTarget json entry
  if target = [] ∨ target ∈ normalized then normalized else normalized ++ [target]

/-- `normalize_proof_targets`。 -/
def normalizeProofTargets (targets : List Text) : List Text :=
  (repairedEntries json targets).foldl (pushTarget json) []

/-- `parse_proof_targets`。 -/
def parseProofTargets (value : Option Text) : List Text :=
  normalizeProofTargets json (proofTargetEntries json (value.getD []))

/-- `proof_targets_to_string`。 -/
def proofTargetsToString (targets : List Text) : Option Text :=
  let targets := normalizeProofTargets json targets
  if targets = [] then none else some (json.writeList targets)

/-- 一度保存して読み戻す。 -/
def storeAndRead (targets : List Text) : List Text :=
  parseProofTargets json (proofTargetsToString json targets)

example : parseProofTargets serdeJson (some "[\"rules\", \"core\"], rules, updates".toList)
    = ["rules".toList, "core".toList, "updates".toList] := by decide

end Cassy
