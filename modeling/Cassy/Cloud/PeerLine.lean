import Cassy.Cloud.EpicSplit
import Cassy.Cloud.PeerAsks

/-!
# 相手に送る一行

`peer_mailbox.rs` の封筒と `epic_split.rs` の分割の知らせは、本文の最初の一行に属性として書かれる。
読み手は最初の一行だけを読み、引用符で値を切る。値の中の引用符と改行は、書くときに `%` の綴りに変える。

`parse_envelope` は `PeerAsks` にある。時刻の綴りは `chrono` のもので、ここでは書き手と読み手の組とする。
-/

namespace Cassy

open Infra

namespace PeerMailbox

/-- `escape` の一文字。 -/
def escapeChar : Char → Text
  | '%' => "%25".toList
  | '"' => "%22".toList
  | '<' => "%3C".toList
  | '>' => "%3E".toList
  | '\n' => "%0A".toList
  | '\r' => "%0D".toList
  | other => [other]

/-- `escape`。属性や行を終わらせる文字を変える。 -/
def escape (value : Text) : Text := value.flatMap escapeChar

/-- `attribute` の書く一つの属性。 -/
def renderAttribute (a : String × String) : Text :=
  ' ' :: (a.1.toList ++ ("=\"".toList ++ (escape a.2.toList ++ ['"'])))

/-- 版と属性の並んだ行。 -/
def attributeLine (tag : Text) (attributes : List (String × String)) : Text :=
  tag ++ ("v=\"1\"".toList ++ (attributes.flatMap renderAttribute ++ "/>".toList))

/-- 値のあるときだけ書く属性。 -/
def optional (key : String) (value : Option String) : List (String × String) :=
  (value.map (key, ·)).toList

end PeerMailbox

open PeerMailbox

/-! ## 封筒 -/

/-- `PeerMessageKind::as_str`。 -/
def PeerMessageKind.asStr : PeerMessageKind → String
  | status => "status"
  | ask => "ask"
  | answer => "answer"
  | ready => "ready"
  | secret => "secret"
  | receipt => "receipt"
  | quiet => "quiet"
  | blocker => "blocker"
  | epicSplitDecided => "epic_split_decided"

/-- `render_envelope` の書く属性。 -/
def PeerEnvelope.attributes (envelope : PeerEnvelope) : List (String × String) :=
  [("id", envelope.id), ("from", envelope.senderName), ("from_agent", envelope.senderAgentId),
    ("machine", envelope.machine)]
  ++ optional "session" envelope.session
  ++ [("repo", envelope.repo)]
  ++ optional "in_reply_to" envelope.inReplyTo
  ++ optional "kind" (envelope.kind.map PeerMessageKind.asStr)
  ++ optional "scope" (if envelope.scope = .user then some "user" else none)

/-- `render_envelope`。 -/
def renderEnvelope (envelope : PeerEnvelope) : Text := attributeLine envelopeTag envelope.attributes

/-! ## 分割の知らせ -/

/-- `SplitKind::as_str`。 -/
def SplitKind.asStr : SplitKind → String
  | proposal => "proposal"
  | accept => "accept"
  | reject => "reject"
  | cancel => "cancel"
  | expired => "expired"

/-- `SplitKind::parse`。 -/
def SplitKind.parse (value : String) : Option SplitKind :=
  if value = "proposal" then some .proposal
  else if value = "accept" then some .accept
  else if value = "reject" then some .reject
  else if value = "cancel" then some .cancel
  else if value = "expired" then some .expired
  else none

/-- 時刻の書き手 (`to_rfc3339`) と読み手 (`parse_from_rfc3339` を UTC に直したもの)。 -/
structure TimeText where
  render : Time → String
  parse : String → Option Time

/-- `SPLIT_TAG`。 -/
def splitTag : Text := "<cas-epic-split ".toList

/-- `ids.join(",")`。 -/
def joinIds (ids : List String) : String := String.ofList ([','].intercalate (ids.map String.toList))

/-- `parse_ids` が切るところ。 -/
def isIdSeparator (c : Char) : Bool := c = ',' || isWhitespace c

/-- `parse_ids` の一回り。空の識別子と、既に見た識別子は足さない。 -/
def pushId (ids : List String) (id : Text) : List String :=
  let id := String.ofList (trim id)
  if id ≠ "" && !ids.any (· = id) then ids ++ [id] else ids

/-- `parse_ids`。 -/
def parseIds (value : String) : List String :=
  (value.toList.splitOnP isIdSeparator).foldl pushId []

namespace SplitMessage

/-- `render` の書く属性。 -/
def attributes (clock : TimeText) (message : SplitMessage) : List (String × String) :=
  [("kind", message.kind.asStr), ("id", message.id), ("epic", message.epic),
    ("proposer_takes", joinIds message.proposerTakes), ("peer_takes", joinIds message.peerTakes)]
  ++ optional "expires_at" (message.expiresAt.map clock.render)
  ++ [("at", clock.render message.time)]
  ++ optional "reason" message.reason

/-- `SplitMessage::render`。 -/
def render (clock : TimeText) (message : SplitMessage) : Text :=
  attributeLine splitTag (message.attributes clock)

/-- `SplitMessage::parse`。 -/
def parse (clock : TimeText) (body : Text) : Option SplitMessage := do
  let line ← (lines body).head?
  let rest ← stripPrefix splitTag (trimEnd line)
  let rest ← stripSuffix "/>".toList rest
  let attributes ← parseAttributes rest.length rest []
  let _ ← (attributes.lookup "v").filter (· = "1")
  some
    { id := ← attribute? attributes "id"
      kind := ← (attributes.lookup "kind").bind SplitKind.parse
      epic := (attributes.lookup "epic").getD ""
      proposerTakes := parseIds ((attributes.lookup "proposer_takes").getD "")
      peerTakes := parseIds ((attributes.lookup "peer_takes").getD "")
      expiresAt := (attributes.lookup "expires_at").bind clock.parse
      time := ← (attributes.lookup "at").bind clock.parse
      reason := attribute? attributes "reason" }

end SplitMessage

end Cassy
