import Mathlib.Algebra.Ring.Nat
import Cassy.Infra.Text

/-!
# 差分のデータ

crate `cas-diffs` の `lib.rs` の型。file・hunk・行の塊の三段からなる。

`usize` は自然数で表す。溢れうるのは二箇所である。一つは、`wrapping_sub` で引き過ぎた位置と、それに行を数える普通の `+` で、
`wrappingSub` と `wrappingAdd` で書き、build による違いは `IterBuild` に書く。もう一つは patch の見出しの数の足し算で、
`Build` に書く。
-/

namespace Cassy.Diffs

open Infra

/-- `usize::MAX`。 -/
def usizeMax : Nat := 2 ^ 64 - 1

/-- `usize::wrapping_sub`。 -/
def wrappingSub (a b : Nat) : Nat := if b ≤ a then a - b else 2 ^ 64 - (b - a)

/-- release の build の `+`。折り返した位置に足すと、折り返しが戻ることもある。 -/
def wrappingAdd (a b : Nat) : Nat := (a + b) % 2 ^ 64

inductive ChangeType where
  | change | renamePure | renameChanged | new | deleted
  deriving DecidableEq, Repr

inductive HunkLineType where
  | context | expanded | addition | deletion | metadata
  deriving DecidableEq, Repr

/-- 変わっていない行の塊。 -/
structure ContextContent where
  lines : Nat
  additionLineIndex : Nat
  deletionLineIndex : Nat
  deriving DecidableEq, Repr

/-- 消された行と足された行の塊。 -/
structure ChangeContent where
  deletions : Nat
  deletionLineIndex : Nat
  additions : Nat
  additionLineIndex : Nat
  deriving DecidableEq, Repr

inductive HunkContent where
  | context (c : ContextContent)
  | change (c : ChangeContent)
  deriving DecidableEq, Repr

/-- 一つの `@@ … @@` の塊。 -/
structure Hunk where
  collapsedBefore : Nat
  additionStart : Nat
  additionCount : Nat
  additionLines : Nat
  additionLineIndex : Nat
  deletionStart : Nat
  deletionCount : Nat
  deletionLines : Nat
  deletionLineIndex : Nat
  hunkContent : List HunkContent
  hunkContext : Option Text
  hunkSpecs : Option Text
  splitLineStart : Nat
  splitLineCount : Nat
  unifiedLineStart : Nat
  unifiedLineCount : Nat
  noEofCrDeletions : Bool
  noEofCrAdditions : Bool
  deriving DecidableEq, Repr

/-- 一つの file の差分。 -/
structure FileDiffMetadata where
  name : Text
  prevName : Option Text
  changeType : ChangeType
  hunks : List Hunk
  splitLineCount : Nat
  unifiedLineCount : Nat
  isPartial : Bool
  deletionLines : List Text
  additionLines : List Text
  deriving DecidableEq, Repr

/-- 読み取った patch。 -/
structure ParsedPatch where
  patchMetadata : Option Text
  files : List FileDiffMetadata
  deriving DecidableEq, Repr

end Cassy.Diffs
