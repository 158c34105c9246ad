import Mathlib.Algebra.Ring.Nat
import Cassy.Store.Types

/-!
# task の notes と予約された行

`task_note_markers.rs`。notes は誰でも書ける文字列だが、証跡の行と来歴の塊は
信用された追記だけが作れる。信用されない書き込みは `neutralize_new_markers` を通り、
新しく現れた予約行の頭に空白を一つ足される。

位置は文字で数える。byte で数えるのは時刻の切り出しと、写しを消すときの二 byte だけで、
それぞれ `splitBytes` と `dropTwoBytes` に書く。`chrono` の時刻の読み取りは引数
`parseTimestamp` に取る。
-/

namespace Cassy

open Infra

/-! ## 予約された行 -/

def beginServerAttested : Text := "--- BEGIN SERVER-ATTESTED PROPOSAL PROVENANCE ---".toList

def endServerAttested : Text := "--- END SERVER-ATTESTED PROPOSAL PROVENANCE ---".toList

def beginClientAsserted : Text := "--- BEGIN CLIENT-ASSERTED PROPOSAL PROVENANCE ---".toList

def endClientAsserted : Text := "--- END CLIENT-ASSERTED PROPOSAL PROVENANCE ---".toList

/-- `PROVENANCE_BLOCKS`。来歴の塊の始まりと終わり。 -/
def provenanceMarkers : List (Text × Text) :=
  [(beginServerAttested, endServerAttested), (beginClientAsserted, endClientAsserted)]

/-- `"ARTIFACT_PROOF:"`。 -/
def artifactProof : Text := "ARTIFACT_PROOF:".toList

/-- 証跡の行の頭。 -/
def proofMarkers : List Text :=
  [artifactProof, "QA_PASS_PROOF:".toList, "QA_EVIDENCE_PROOF:".toList,
    "QA_BATCH_RECEIPT_PROOF:".toList, "RELEASE_VERDICT_PROOF:".toList, "FAST_LANE_PROOF:".toList]

/-- `is_proof_line`。 -/
def isProofLine (line : Text) : Bool := proofMarkers.any (·.isPrefixOf line)

/-- 来歴の塊の始まりか終わりで始まる行。 -/
def isProvenanceLine (line : Text) : Bool :=
  provenanceMarkers.any fun m => m.1.isPrefixOf line || m.2.isPrefixOf line

/-- `is_reserved_line`。 -/
def isReservedLine (line : Text) : Bool := isProofLine line || isProvenanceLine line

/-- `contains_complete_lines`。`text` が行の区切りに挟まれてそのまま現れるか。 -/
def containsCompleteLines (notes text : Text) : Bool :=
  (lineStarts notes).any fun t =>
    text.isPrefixOf t && (let rest := t.drop text.length; rest.isEmpty || rest.head? = some '\n')

/-! ## 塊への分割 -/

/-- `&notes[start..]` の形の部分文字列。始まりの位置を覚えている。 -/
structure Span where
  start : Nat
  text : Text
  deriving DecidableEq, Repr

namespace Span

/-- 終わりの位置。 -/
def stop (s : Span) : Nat := s.start + s.text.length

/-- `str::trim`。始まりは落とした空白の分だけ進む。 -/
def trim (s : Span) : Span :=
  { start := s.start + (s.text.takeWhile isWhitespace).length, text := Infra.trim s.text }

end Span

section Blocks

variable (parseTimestamp : Text → Bool)

/-- `is_timestamped_note`。 -/
def isTimestampedNote (text : Text) : Bool :=
  match text with
  | '[' :: rest =>
    match splitBytes 16 rest with
    | some (timestamp, ']' :: _) => parseTimestamp timestamp
    | _ => false
  | _ => false

/-- 次の段落から新しい塊が始まるか。`block` はここまでの塊、`next` は残りの全体。 -/
def startsBlock (block next : Text) : Bool :=
  isTimestampedNote parseTimestamp next
    || (lines next).head?.any isProofLine
    || provenanceMarkers.any (·.1.isPrefixOf next)
    || !isTimestampedNote parseTimestamp (trim block)

/-- `note_blocks` の繰り返し。`block` が今の塊で、残りの段落を左から見る。 -/
def noteBlocksFrom (block : Span) : List Text → List Span
  | [] => [block.trim]
  | p :: ps =>
    if startsBlock parseTimestamp block.text (joinParagraphs (p :: ps)) then
      block.trim :: noteBlocksFrom { start := block.stop + 2, text := p } ps
    else noteBlocksFrom { block with text := block.text ++ '\n' :: '\n' :: p } ps

/-- `note_blocks`。 -/
def noteBlocks (notes : Text) : List Span :=
  match splitParagraphs notes with
  | [] => []
  | p :: ps => (noteBlocksFrom parseTimestamp { start := 0, text := p } ps).filter
      fun s => !s.text.isEmpty

/-! ## 信用された追記の置き換え -/

/-- 末尾の二 byte を落とす。文字の途中に当たれば `none`（`replace_range` の panic）。 -/
def dropTwoBytes (t : Text) : Option Text :=
  match t.reverse with
  | c :: rest =>
    if c.utf8Size = 2 then some rest.reverse
    else match rest with
      | c' :: rest' => if c.utf8Size = 1 ∧ c'.utf8Size = 1 then some rest'.reverse else none
      | [] => none
  | [] => none

/-- `notes` の UTF-8 での長さが二以上か。 -/
def atLeastTwoBytes (t : Text) : Bool := 2 ≤ (t.map Char.utf8Size).sum

/-- 写しを一つ消す。後ろの空行か、無ければ前の二 byte を一緒に消す。 -/
def removeCopy (next : Text) (copy : Span) : Option Text :=
  let before := next.take copy.start
  let after := next.drop copy.stop
  if ['\n', '\n'].isPrefixOf after then some (before ++ after.drop 2)
  else if atLeastTwoBytes before then (dropTwoBytes before).map (· ++ after)
  else some (before ++ after)

/-- 後ろから順に写しを置き換える。`enriched` は受領の行が既にあるか。 -/
def replaceCopies (receipt : Text) (next : Text) (enriched : Bool) : List Span → Option Text
  | [] => some next
  | copy :: copies =>
    if enriched then do
      let next ← removeCopy next copy
      replaceCopies receipt next true copies
    else
      replaceCopies receipt (next.take copy.start ++ receipt ++ next.drop copy.stop) true copies

/--
`replace_raw_artifact_note`。置き換える写しが無ければ `.ok none`。

`.error ()` は `replace_range` の panic で、transaction は巻き戻る。
-/
def replaceRawArtifactNote (notes receipt : Text) : Except Unit (Option Text) :=
  if !isTimestampedNote parseTimestamp receipt
      || !(lines receipt).any artifactProof.isPrefixOf then .ok none
  else
    -- 受領から証跡の行を除いたものが、先に書かれていた写しである。
    let raw := List.intercalate ['\n'] ((lines receipt).filter fun l => !artifactProof.isPrefixOf l)
    let blocks := noteBlocks parseTimestamp notes
    let copies := blocks.filter fun s => s.text = raw
    if copies.isEmpty then .ok none
    else
      match replaceCopies receipt notes (blocks.any fun s => s.text = receipt) copies.reverse with
      | some next => .ok (some next)
      | none => .error ()

end Blocks

/-- `str::ends_with`。 -/
def endsWith (suffix t : Text) : Bool := suffix.isSuffixOf t

/-- 段落の全体が来歴の塊か。 -/
def isRenderedProvenance (paragraph : Text) : Bool :=
  let p := trim paragraph
  provenanceMarkers.any fun m => m.1.isPrefixOf p && endsWith m.2 p

/-- `replace_rendered_provenance`。 -/
def replaceRenderedProvenance (notes rendered : Text) : Text :=
  let retained := joinParagraphs ((splitParagraphs notes).filter fun p => !isRenderedProvenance p)
  if (trim retained).isEmpty then rendered
  else trimEnd retained ++ '\n' :: '\n' :: rendered

/-! ## 新しい予約行の無効化 -/

/-- `trim_end_matches(['\n', '\r'])`。 -/
def lineText (line : Text) : Text := trimEndMatches (fun c => c = '\n' || c = '\r') line

/-- `Range<usize>`。 -/
structure CharRange where
  start : Nat
  stop : Nat
  deriving DecidableEq, Repr

namespace CharRange

def contains (r : CharRange) (offset : Nat) : Bool := r.start ≤ offset && offset < r.stop

/-- `notes[range]`。 -/
def slice (r : CharRange) (t : Text) : Text := (t.take r.stop).drop r.start

end CharRange

/-- `provenance_blocks` の繰り返し。`opened` は開いている塊の始まりと、閉じる行。 -/
def provenanceBlocksFrom (offset : Nat) (opened : Option (Nat × Text)) :
    List Text → List CharRange
  | [] => []
  | line :: rest =>
    let text := lineText line
    let next := offset + line.length
    -- 開いている間に別の始まりが来れば、そこから数え直す。
    match provenanceMarkers.find? (·.1 = text) with
    | some m => provenanceBlocksFrom next (some (offset, m.2)) rest
    | none =>
      match opened with
      | none => provenanceBlocksFrom next none rest
      | some (start, close) =>
        if text = close then
          { start, stop := offset + (trimEndMatches (· = '\n') line).length }
            :: provenanceBlocksFrom next none rest
        else if isReservedLine text then provenanceBlocksFrom next none rest
        else provenanceBlocksFrom next opened rest

/-- `provenance_blocks`。 -/
def provenanceBlocks (notes : Text) : List CharRange :=
  provenanceBlocksFrom 0 none (splitInclusive notes)

/-- `neutralize_new_markers` の繰り返し。 -/
def neutralizeLines (priorMarkers : List Text) (preserved : List CharRange) (offset : Nat) :
    List Text → Text
  | [] => []
  | line :: rest =>
    let text := lineText line
    let out := if isReservedLine text && !priorMarkers.contains text
        && !preserved.any (·.contains offset) then ' ' :: line else line
    out ++ neutralizeLines priorMarkers preserved (offset + line.length) rest

/-- `neutralize_new_markers`。`previous` は書き込みの前に入っていた notes。 -/
def neutralizeNewMarkers (notes : Text) (previous : Option Text) : Text :=
  let priorMarkers := (previous.elim [] lines).filter isProofLine
  let preserved := (provenanceBlocks notes).filter fun r =>
    previous.any fun prior => containsCompleteLines prior (r.slice notes)
  neutralizeLines priorMarkers preserved 0 (splitInclusive notes)

end Cassy
