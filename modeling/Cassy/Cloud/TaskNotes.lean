import Mathlib.Data.List.Sort
import Cassy.Infra.Find
import Cassy.Notes.Markers

/-!
# notes の合流

`cloud/syncer/pull.rs` の `merge_task_notes`。行ごとの競合の解決が片方の機械の記録を捨てないように、
pull は二つの notes を塊に分けて合わせる。

`NaiveDateTime::parse_from_str(_, "%Y-%m-%d %H:%M")` は引数 `parse` に取る。
-/

namespace Cassy

open Infra

/-- `is_provenance_paragraph`。 -/
def isProvenanceParagraph (paragraph : Text) : Bool :=
  let p := trim paragraph
  (beginServerAttested.isPrefixOf p && endsWith endServerAttested p)
    || (beginClientAsserted.isPrefixOf p && endsWith endClientAsserted p)

/-- 合流の途中の塊。時刻、初めて現れた順番、本文の組。 -/
structure DatedNote where
  timestamp : Option Time
  order : Nat
  note : Text
  deriving DecidableEq, Repr

/-- `(timestamp.is_none(), *timestamp, *order)` の順。時刻の無い塊は最後に並ぶ。 -/
def DatedNote.before (a b : DatedNote) : Bool :=
  match a.timestamp, b.timestamp with
  | some s, some t => s < t || (s == t && a.order ≤ b.order)
  | some _, none => true
  | none, some _ => false
  | none, none => a.order ≤ b.order

section Merge

variable (parse : Text → Option Time)

/-- 塊の時刻。`[` から最初の `]` までを読む。 -/
def noteTimestamp (block : Text) : Option Time := do
  let value ← stripPrefix ['['] block
  let (value, _) ← splitOnce [']'] value
  parse value

/-- `note_blocks` の本文。 -/
def noteTexts (notes : Text) : List Text :=
  (noteBlocks (fun t => (parse t).isSome) notes).map Span.text

/-- `merge_task_notes` の内側の繰り返し。空の塊、`drop` が捨てる塊、既にある塊は飛ばす。 -/
def collectNotes (drop : Text → Bool) : List DatedNote → List Text → List DatedNote
  | blocks, [] => blocks
  | blocks, block :: rest =>
    let block := trim block
    if block.isEmpty || drop block || blocks.any (·.note = block) then
      collectNotes drop blocks rest
    else
      let entry := { timestamp := noteTimestamp parse block, order := blocks.length, note := block }
      collectNotes drop (blocks ++ [entry]) rest

/-- `merge_task_notes`。 -/
def mergeTaskNotes (localNotes remote : Text) : Text :=
  -- 来歴は遠隔のものが新しいので、遠隔にあるときは手元の写しを捨てる。
  let remoteHasProvenance := (splitParagraphs remote).any isProvenanceParagraph
  let blocks := collectNotes parse (fun b => remoteHasProvenance && isProvenanceParagraph b) []
    (noteTexts parse localNotes)
  let blocks := collectNotes parse (fun _ => false) blocks (noteTexts parse remote)
  joinParagraphs ((blocks.insertionSort (fun a b => a.before b = true)).map DatedNote.note)

end Merge

end Cassy
