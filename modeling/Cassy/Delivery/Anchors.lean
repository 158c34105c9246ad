import Cassy.Delivery.Correction
import Cassy.Infra.Find

/-!
# 配達の錨

task の配達は、worker の branch の先端の commit を錨として持つ。錨は次の操作で動く。

* `record_park` — park のときに錨を定める。別の branch に park すると、前の錨を歴史に移す
* `retain_factory_branch_anchor_as_history` — 錨を歴史に移す。reopen などの管理上の回復である
* `decline_factory_branch_anchor` — 錨を歴史に移し、差し戻された錨に加える
* 空いているところに、commit の時の錨を書く

差し戻された錨の列 `declined_factory_branch_anchors` が無い古い task では、歴史の全部が差し戻されたものと読まれる。
-/

namespace Cassy

open Infra

namespace TaskDeliverables

/-- `record_handoff_branch`。 -/
def recordHandoffBranch (d : TaskDeliverables) (branch : String) : TaskDeliverables :=
  let branch := String.ofList (trim branch.toList)
  if branch ≠ "" ∧ branch ∉ d.handoffBranches then
    { d with handoffBranches := d.handoffBranches ++ [branch] }
  else d

/-- park の branch。測った branch が無ければ、担当者の branch である。 -/
def parkBranch (measuredBranch assignee : Option String) : Option String :=
  (measuredBranch.map fun branch =>
      String.ofList ((stripPrefix "origin/".toList branch.toList).getD branch.toList)).or
    (assignee.map fun assignee => "factory/" ++ assignee)

/-- `record_park`。 -/
def recordPark (d : TaskDeliverables) (measuredBranch measuredTip assignee : Option String) :
    TaskDeliverables :=
  let branch := parkBranch measuredBranch assignee
  -- 別の branch に測った先端があれば、そこでの新しい配達である。
  let moved := match branch, measuredTip, d.parkedBranch with
    | some branch, some tip, some previous => if previous ≠ branch then some (branch, tip, previous) else none
    | _, _, _ => none
  match moved with
  | some (branch, tip, previous) =>
    { (d.recordHandoffBranch previous).retainFactoryBranchAnchorAsHistory with
      factoryBranchAnchor := some tip
      parkedBranch := some branch }
  | none =>
    { d with
      factoryBranchAnchor := if d.factoryBranchAnchor.isNone then measuredTip else d.factoryBranchAnchor
      parkedBranch := if d.parkedBranch.isNone then branch else d.parkedBranch }

/-- `declined_factory_anchors`。 -/
def declinedFactoryAnchors (d : TaskDeliverables) : List String :=
  d.declinedFactoryBranchAnchors.getD d.historicalFactoryBranchAnchors

/-- 空いているところに錨を書く。 -/
def recordAnchor (d : TaskDeliverables) (anchor : String) : TaskDeliverables :=
  if d.factoryBranchAnchor.isNone then { d with factoryBranchAnchor := some anchor } else d

end TaskDeliverables

/-- 錨を動かす操作。 -/
inductive AnchorOp where
  | recordPark (measuredBranch measuredTip assignee : Option String)
  | retain
  | decline
  | recordAnchor (anchor : String)
  deriving DecidableEq, Repr

namespace TaskDeliverables

/-- 操作を一つ行う。 -/
def anchorStep (d : TaskDeliverables) : AnchorOp → TaskDeliverables
  | .recordPark measuredBranch measuredTip assignee => d.recordPark measuredBranch measuredTip assignee
  | .retain => d.retainFactoryBranchAnchorAsHistory
  | .decline => d.declineFactoryBranchAnchor
  | .recordAnchor anchor => d.recordAnchor anchor

/-- 操作を順に行う。 -/
def anchorRun (d : TaskDeliverables) (ops : List AnchorOp) : TaskDeliverables := ops.foldl anchorStep d

end TaskDeliverables

end Cassy
