import Mathlib.Data.String.Basic
import Cassy.Infra.Groups
import Cassy.Cloud.SyncQueue

/-!
# 同じ task の行を一つにする

`cloud/syncer/pull.rs` の `select_owner_task_rows`。team の応答には、同じ task の行が幾つも入ることがある。持ち主の
project から来た行を先に、次に新しい行を選び、残りは捨てた行として返す。
-/

namespace Cassy

open Infra

/-- 行を読むときに外から受け取るもの。 -/
structure WireEnv where
  /-- 設定に登録された別名 -/
  aliasClass : List Text := []
  /-- `DateTime::parse_from_rfc3339` を UTC に直したもの -/
  parseRfc3339 : String → Option Time

/-- `task_wire_id`。 -/
def taskWireId (raw : Json) : Option String := raw.getStr "id"

/-- `task_wire_origin_project`。 -/
def taskWireOriginProject (raw : Json) : Option String := raw.getStr "origin_project"

/-- `task_wire_cloud_project`。 -/
def taskWireCloudProject (raw : Json) : Option String :=
  ["project_canonical_id", "project_id"].findSome? fun field =>
    ((raw.getStr field).map fun project => String.ofList (trim project.toList)).filter (· ≠ "")

namespace WireEnv

variable (env : WireEnv)

/-- `task_wire_is_owner`。 -/
def taskWireIsOwner (raw : Json) : Bool :=
  (taskWireOriginProject raw).any fun origin =>
    (taskWireCloudProject raw).any fun cloudProject =>
      projectIdsMatch env.aliasClass origin cloudProject

/-- `task_wire_updated_at`。 -/
def taskWireUpdatedAt (raw : Json) : Option Time :=
  (((raw.get? "updated_at").or (raw.get? "updatedAt")).bind Json.asStr).bind env.parseRfc3339

/-- `max_by` の比べ方。持ち主、時刻、位置の順に見る。 -/
def compareRows (left right : Json × Nat) : Ordering :=
  (compare (env.taskWireIsOwner left.1) (env.taskWireIsOwner right.1)).then
    ((compare (env.taskWireUpdatedAt left.1) (env.taskWireUpdatedAt right.1)).then
      (compare left.2 right.2))

/-- 一つの task の行から、選んだ行と捨てた行を分ける。 -/
def collapseRows (id : String) (rows : List Json) : List Json × List (String × Json) :=
  if rows.length = 1 then (rows, [])
  else match maxBy env.compareRows rows.zipIdx with
    | none => ([], [])
    | some (winner, index) => ([winner], (swapRemove rows index).map fun row => (id, row))

/-- `select_owner_task_rows`。 -/
def selectOwnerTaskRows (rawTasks : List Json) : List Json × List (String × Json) :=
  let (unkeyed, grouped) := groupKeyed taskWireId rawTasks
  (unkeyed ++ grouped.flatMap fun (id, rows) => (env.collapseRows id rows).1,
    grouped.flatMap fun (id, rows) => (env.collapseRows id rows).2)

end WireEnv

end Cassy
