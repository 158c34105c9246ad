import Mathlib.Data.List.Sort
import Cassy.Infra.Find
import Cassy.Infra.Occurrences
import Cassy.Cloud.PeerOutbox

/-!
# 答を待つ問い

`peer_mailbox/outbox.rs` の `open_asks`。相手の supervisor に送った問いのうち、答の来ていないものを数える。merge の関所が
これを読む。

問いは `peer_message_outbox` の行、返事は `prompt_queue` の行である。返事を着いた順にたどり、返事ごとに高々一つの問いを
答の来たものにする。返事の意味は、それまでにどの問いに答が来たかで変わる。
-/

namespace Cassy

open Infra

/-! ## 封筒 -/

/-- `PeerMessageKind`。 -/
inductive PeerMessageKind where
  | status | ask | answer | ready | secret | blocker | receipt | quiet | epicSplitDecided
  deriving DecidableEq, Repr

/-- `PeerMessageKind::parse`。 -/
def PeerMessageKind.parse (value : String) : Option PeerMessageKind :=
  if value = "status" then some .status
  else if value = "ask" then some .ask
  else if value = "answer" then some .answer
  else if value = "ready" then some .ready
  else if value = "secret" then some .secret
  else if value = "receipt" then some .receipt
  else if value = "quiet" then some .quiet
  else if value = "blocker" then some .blocker
  else if value = "epic_split_decided" then some .epicSplitDecided
  else none

/-- 返事として読まない種類。 -/
def PeerMessageKind.isSilent : PeerMessageKind → Bool
  | receipt | quiet | status => true
  | _ => false

/-- `PeerEnvelope`。 -/
structure PeerEnvelope where
  id : String
  senderName : String
  senderAgentId : String
  machine : String
  session : Option String := none
  repo : String
  inReplyTo : Option String := none
  kind : Option PeerMessageKind := none
  scope : PeerScope := .project
  deriving DecidableEq, Repr

/-- `unescape`。 -/
def unescape (value : Text) : Text :=
  let value := replaceText "%22".toList "\"".toList value
  let value := replaceText "%3C".toList "<".toList value
  let value := replaceText "%3E".toList ">".toList value
  let value := replaceText "%0A".toList "\n".toList value
  let value := replaceText "%0D".toList "\r".toList value
  replaceText "%25".toList "%".toList value

/-- `ENVELOPE_TAG`。 -/
def envelopeTag : Text := "<cas-peer-message ".toList

/-- 属性の並び。後に書かれたものが前に来る。一つ読むごとに文字が減るので、文字の数だけ回れば足りる。 -/
def parseAttributes : Nat → Text → List (String × String) → Option (List (String × String))
  | fuel, rest, attributes =>
    let rest := trimStart rest
    if rest.isEmpty then some attributes
    else match fuel with
      | 0 => none
      | fuel + 1 =>
        (splitOnce "=\"".toList rest).bind fun key =>
          (splitOnce "\"".toList key.2).bind fun value =>
            parseAttributes fuel value.2
              ((String.ofList key.1, String.ofList (unescape value.1)) :: attributes)

/-- 空でない属性。 -/
def attribute? (attributes : List (String × String)) (key : String) : Option String :=
  (attributes.lookup key).filter (· ≠ "")

/-- `kind` の属性。読めない綴りの封筒は封筒でない。 -/
def parseKind : Option String → Option (Option PeerMessageKind)
  | some kind => (PeerMessageKind.parse kind).map some
  | none => some none

/-- `parse_envelope`。 -/
def parseEnvelope (prompt : String) : Option PeerEnvelope := do
  let line ← (lines prompt.toList).head?
  let rest ← stripPrefix envelopeTag line
  let rest ← (stripPrefix ">/".toList rest.reverse).map List.reverse
  let attributes ← parseAttributes rest.length rest []
  let _ ← (attributes.lookup "v").filter (· = "1")
  some
    { id := ← attribute? attributes "id"
      senderName := ← attribute? attributes "from"
      senderAgentId := ← attribute? attributes "from_agent"
      machine := ← attribute? attributes "machine"
      session := attribute? attributes "session"
      repo := ← attribute? attributes "repo"
      inReplyTo := attribute? attributes "in_reply_to"
      kind := ← parseKind (attribute? attributes "kind")
      scope := if attribute? attributes "scope" = some "user" then .user else .project }

/-! ## 問いと返事 -/

/-- `OpenPeerAsk`。 -/
structure OpenPeerAsk where
  cloudId : Option String
  recipient : String
  body : String
  unlinkedAnswer : Option String := none
  deriving DecidableEq, Repr

/-- `PendingAsk`。 -/
structure PendingAsk where
  ask : OpenPeerAsk
  senderName : String
  peerId : Option String
  createdAt : Int
  answered : Bool := false
  deriving DecidableEq, Repr

/-- 返事の行。`arrivedAt` は秒である。 -/
structure PeerReply where
  source : String
  target : String
  prompt : String
  arrivedAt : Int
  deriving DecidableEq, Repr

/-- `from_peer`。 -/
def PendingAsk.fromPeer (ask : PendingAsk) (reply : PeerEnvelope) : Bool :=
  match ask.peerId with
  | some id => id = reply.senderAgentId
  | none =>
    eqIgnoreAsciiCase ask.ask.recipient.toList (reply.senderName ++ "@" ++ reply.machine).toList

/-- 番号の続きになる文字。 -/
def tokenPart (c : Char) : Bool := isAsciiDigit c || c.isAlpha || c = '-'

/-- `body.match_indices(id)`。空の番号はどの隙間にも現れる。 -/
def idMatches (id body : Text) : List Nat :=
  if id = [] then List.range (body.length + 1) else matchIndices id body

/-- `names_ask`。 -/
def namesAsk (body id : Text) : Bool :=
  (idMatches id body).any fun i =>
    !(body.take i).getLast?.any tokenPart && !(body.drop (i + id.length)).head?.any tokenPart

/-- 返事の本文。封筒の行の後である。 -/
def PeerReply.body (reply : PeerReply) : Text :=
  ((splitOnce ['\n'] reply.prompt.toList).map Prod.snd).getD []

/-- 送り主と封筒の合う返事。 -/
def PeerReply.envelope? (reply : PeerReply) : Option PeerEnvelope :=
  (parseEnvelope reply.prompt).filter fun e =>
    reply.source = "peer:" ++ e.senderName ++ "@" ++ e.machine

/-- `open_asks` の途中。読んだ返事の番号と、問いの並び。 -/
structure Replay where
  seen : List String := []
  asks : List PendingAsk
  deriving DecidableEq, Repr

namespace Replay

variable (me : String) (asks : List PendingAsk) (reply : PeerReply) (e : PeerEnvelope)

/-- 条件に合う問いの位置。 -/
def positions (p : PendingAsk → Bool) : List Nat :=
  (List.range asks.length).filter fun i => asks[i]?.any p

/-- 返事が番号で指す問い。 -/
def linkedAsk : Option Nat :=
  e.inReplyTo.bind fun id => asks.findIdx? fun ask => ask.ask.cloudId = some id

/-- 返事が答えているかもしれない問い。 -/
def awaits (ask : PendingAsk) : Bool :=
  !ask.answered && ask.createdAt ≤ reply.arrivedAt && ask.fromPeer e
    && (reply.target = ask.senderName || reply.target = me)

/-- 本文に番号の書かれた問い。 -/
def named (ask : PendingAsk) : Bool :=
  ask.ask.cloudId.any fun id => namesAsk reply.body id.toList

/-- 番号で指さない答の、答える問い。 -/
def unlinkedAsk : Option Nat :=
  let candidates := positions asks (awaits me reply e)
  let answer :=
    if e.inReplyTo = none ∧ e.kind = some .answer then
      match positions asks (named reply), candidates with
      | [i], _ => if i ∈ candidates then some i else none
      | [], [i] => some i
      | _, _ => none
    else none
  answer.filter fun i => asks[i]?.any fun ask => ask.ask.cloudId.isSome

/-- 返事が答える問い。 -/
def settles : Option Nat := (linkedAsk asks e).or (unlinkedAsk me asks reply e)

/-- 問いに答が来た。 -/
def markAnswered (i : Nat) : List PendingAsk :=
  asks.modify i fun ask => { ask with answered := true }

/-- 結び付けられない答が来た。最初の一つを控える。 -/
def noteUnlinked : List PendingAsk :=
  asks.map fun ask =>
    if awaits me reply e ask then
      { ask with ask := { ask.ask with unlinkedAnswer := ask.ask.unlinkedAnswer.or (some e.id) } }
    else ask

/-- 返事を一つ読む。 -/
def step (st : Replay) (reply : PeerReply) : Replay :=
  match reply.envelope? with
  | none => st
  | some e =>
    if e.id ∈ st.seen then st
    else if e.kind.any PeerMessageKind.isSilent then { st with seen := e.id :: st.seen }
    else match settles me st.asks reply e with
      | some i => { seen := e.id :: st.seen, asks := markAnswered st.asks i }
      | none =>
        if e.kind = some .answer then
          { seen := e.id :: st.seen, asks := noteUnlinked me st.asks reply e }
        else { st with seen := e.id :: st.seen }

/-- 返事を順に読む。 -/
def run (replies : List PeerReply) : Replay := replies.foldl (step me) { asks := asks }

end Replay

/-- 返事を読み終えても答の来ていない問い。 -/
def openAsksOf (me : String) (asks : List PendingAsk) (replies : List PeerReply) : List OpenPeerAsk :=
  ((Replay.run me asks replies).asks.filter fun ask => !ask.answered).map PendingAsk.ask

/-! ## 表から読む -/

/-- 問いの行。本文の頭の印は大文字と小文字を区別しない。 -/
def PeerRow.isAsk (me : String) (since : Int) (row : PeerRow) : Bool :=
  row.senderAgentId = me && since ≤ row.createdAt && row.state ≠ .abandoned
    && likeStart "<cas-peer-intent kind=\"ask\"/>" row.payload.body

/-- 行から読んだ問い。 -/
def PeerRow.pendingAsk (row : PeerRow) : PendingAsk where
  ask := { cloudId := row.cloudId, recipient := row.recipient, body := row.payload.body }
  senderName := row.senderName
  peerId := some row.payload.recipientAgentId
  createdAt := row.createdAt

/-- 返事の行。着いた順、同じ秒の中では番号の順。`epoch` は `strftime('%s', created_at)` である。 -/
def peerReplies (epoch : Time → Int) (since : Int) (rows : List PromptRow) : List PeerReply :=
  let rows := rows.filter fun r => likeStart "peer:" r.source && since ≤ epoch r.createdAt
  (rows.insertionSort fun a b => epoch a.createdAt < epoch b.createdAt
      ∨ epoch a.createdAt = epoch b.createdAt ∧ a.id ≤ b.id).map fun r =>
    { source := r.source, target := r.target, prompt := r.prompt, arrivedAt := epoch r.createdAt }

/-- `open_asks`。問いが無ければ返事は読まない。 -/
def openAsks (epoch : Time → Int) (outbox : PeerOutbox) (prompts : PromptDb) (me : String)
    (since : Int) : List OpenPeerAsk :=
  let rows := (outbox.rows.filter (PeerRow.isAsk me since)).insertionSort fun a b => a.id ≤ b.id
  openAsksOf me (rows.map PeerRow.pendingAsk) (peerReplies epoch since prompts.rows)

end Cassy
