import Cassy.Infra.Codec

/-!
# 貼り付けと打鍵

`cas-mux/input_stream.rs`。端末から届く byte の列は、どこで切れて届くか分からない。`ESC[200~` と `ESC[201~` に
挟まれた貼り付けの中の改行は、送信の合図ではない。

byte を一つずつ受け取り、区切りの何文字目まで合っているかを覚えておく。合わなくなったら、その byte から合わせ直す。
-/

namespace Cassy

open Infra

/-- `PasteTrackState`。数は、合っている区切りの長さである。 -/
inductive PasteTrackState where
  | normal (matched : Nat)
  | inPaste (matched : Nat)
  deriving DecidableEq, Repr

/-- `StreamByteClass` -/
inductive StreamByteClass where
  | key
  | paste
  deriving DecidableEq, Repr

/-- `PASTE_START` -/
def pasteStart : Bytes := [0x1b, 0x5b, 0x32, 0x30, 0x30, 0x7e]

/-- `PASTE_END` -/
def pasteEnd : Bytes := [0x1b, 0x5b, 0x32, 0x30, 0x31, 0x7e]

namespace PasteTrackState

/-- `feed_normal`。合わなかったときは `feed_byte` を呼び直す。 -/
def feedNormal (feedByte : PasteTrackState → UInt8 → Option (StreamByteClass × PasteTrackState))
    (p : Nat) (b : UInt8) : Option (StreamByteClass × PasteTrackState) :=
  if pasteStart[p]? = some b then
    if p + 1 = pasteStart.length then some (.paste, .inPaste 0) else some (.key, .normal (p + 1))
  else if 0 < p then feedByte (.normal 0) b
  else some (.key, .normal p)

/-- `feed_in_paste` -/
def feedInPaste (p : Nat) (b : UInt8) : StreamByteClass × PasteTrackState :=
  if pasteEnd[p]? = some b then
    if p + 1 = pasteEnd.length then (.paste, .normal 0) else (.paste, .inPaste (p + 1))
  else if 0 < p then
    if pasteEnd[0]? = some b then (.paste, .inPaste 1) else (.paste, .inPaste 0)
  else if pasteEnd[0]? = some b then (.paste, .inPaste 1)
  else (.paste, .inPaste p)

/-- `feed_byte` を、`depth` 段まで呼び直す。 -/
def feedByteWithin : Nat → PasteTrackState → UInt8 → Option (StreamByteClass × PasteTrackState)
  | 0, _, _ => none
  | depth + 1, .normal p, b => feedNormal (feedByteWithin depth) p b
  | _ + 1, .inPaste p, b => some (feedInPaste p b)

/-- 呼び直しは一度で終わる。二度目は、合っている数が `0` だからである。 -/
theorem feedByteWithin_isSome (depth : Nat) (s : PasteTrackState) (b : UInt8) :
    (feedByteWithin (depth + 2) s b).isSome = true := by
  cases s with
  | normal p =>
    unfold feedByteWithin feedNormal
    split
    · split <;> rfl
    · split
      · unfold feedByteWithin feedNormal
        split
        · split <;> rfl
        · rfl
      · rfl
  | inPaste p => rfl

/-- `feed_byte` -/
def feedByte (s : PasteTrackState) (b : UInt8) : StreamByteClass × PasteTrackState :=
  (feedByteWithin 2 s b).get (feedByteWithin_isSome 0 s b)

end PasteTrackState

/-- 送信の合図になりうる byte。 -/
def isSubmitByte (b : UInt8) : Bool := b = 0x0d || b = 0x0a

/-- `BracketedPasteTracker` -/
structure BracketedPasteTracker where
  state : PasteTrackState := .normal 0
  deriving DecidableEq, Repr

namespace BracketedPasteTracker

/-- 受け取った byte の類を順に返す。 -/
def feedBytes (t : BracketedPasteTracker) : Bytes → List StreamByteClass × BracketedPasteTracker
  | [] => ([], t)
  | b :: bs =>
    let (c, state) := t.state.feedByte b
    let (cs, t) := feedBytes { state } bs
    (c :: cs, t)

/-- `feed_chunk_marks_submit` の繰り返し。 -/
def markLoop (t : BracketedPasteTracker) (marks : Bool) : Bytes → Bool × BracketedPasteTracker
  | [] => (marks, t)
  | b :: bs =>
    let (c, state) := t.state.feedByte b
    markLoop { state } (marks || (c = .key && isSubmitByte b)) bs

/-- `feed_chunk_marks_submit` -/
def feedChunkMarksSubmit (t : BracketedPasteTracker) (data : Bytes) : Bool × BracketedPasteTracker :=
  t.markLoop false data

/-- 届いた順に塊を渡す。 -/
def feedChunks (t : BracketedPasteTracker) : List Bytes → List Bool × BracketedPasteTracker
  | [] => ([], t)
  | data :: rest =>
    let (marks, t) := t.feedChunkMarksSubmit data
    let (all, t) := feedChunks t rest
    (marks :: all, t)

/-- 届いた順に塊を渡し、塊ごとの類を返す。 -/
def classifyChunks (t : BracketedPasteTracker) : List Bytes → List (List StreamByteClass)
  | [] => []
  | data :: rest => (t.feedBytes data).1 :: classifyChunks (t.feedBytes data).2 rest

end BracketedPasteTracker

/-- `key_stream_marks_submit` -/
def keyStreamMarksSubmit (data : Bytes) : Bool :=
  if data.isEmpty then false else (BracketedPasteTracker.feedChunkMarksSubmit {} data).1

end Cassy
