import Cassy.Infra.Occurrences
import Cassy.Cloud.SyncQueue
import Cassy.Cloud.TaskNotes

/-!
# 提案の来歴と notes

`cloud/syncer/pull.rs` の `render_task_proposal_provenance` と `take_rendered_provenance`。受け入れられた提案の task には
cloud が来歴を添える。取り込みは来歴を notes に書き込み、task に読んだ後で、書き込んだ塊を notes から取り出す。

塊の場所は、notes の中の目印の行で決める。位置は文字で数える。
-/

namespace Cassy

open Infra

/-! ## 来歴 -/

/-- `ServerAttestedProvenance`。 -/
structure ServerAttestedProvenance where
  proposalId : String
  targetTaskId : String
  creatorUserId : String
  teamId : String
  originProjectCanonicalId : String
  targetProjectCanonicalId : String
  receivedAt : String
  clientRequestId : String
  deriving DecidableEq, Repr

/-- `ClientAssertedProvenance`。 -/
structure ClientAssertedProvenance where
  originSessionId : Option String := none
  originAgentId : Option String := none
  originAgentName : Option String := none
  originAgentRole : Option String := none
  clientVersion : Option String := none
  clientBuild : Option String := none
  deriving DecidableEq, Repr

/-- `ProposalProvenance`。 -/
structure ProposalProvenance where
  serverAttested : ServerAttestedProvenance
  clientAsserted : ClientAssertedProvenance
  deriving DecidableEq, Repr

/-- 列に書かれた構造体の、`Option` の field。 -/
def nullableElement {α : Type} (c : Codec α) : Json → Except DeError (Option α)
  | .null => .ok none
  | v => (c.de v).map some

def ServerAttestedProvenance.read : Json → Except DeError ServerAttestedProvenance
  | .object m => do
    .ok
      { proposalId := ← Codec.string.required m "proposal_id"
        targetTaskId := ← Codec.string.required m "target_task_id"
        creatorUserId := ← Codec.string.required m "creator_user_id"
        teamId := ← Codec.string.required m "team_id"
        originProjectCanonicalId := ← Codec.string.required m "origin_project_canonical_id"
        targetProjectCanonicalId := ← Codec.string.required m "target_project_canonical_id"
        receivedAt := ← Codec.string.required m "received_at"
        clientRequestId := ← Codec.string.required m "client_request_id" }
  | .array [proposal, task, creator, team, origin, target, received, request] => do
    .ok
      { proposalId := ← Codec.string.de proposal
        targetTaskId := ← Codec.string.de task
        creatorUserId := ← Codec.string.de creator
        teamId := ← Codec.string.de team
        originProjectCanonicalId := ← Codec.string.de origin
        targetProjectCanonicalId := ← Codec.string.de target
        receivedAt := ← Codec.string.de received
        clientRequestId := ← Codec.string.de request }
  | .array _ => .error (.custom "invalid length")
  | _ => .error .invalidType

def ClientAssertedProvenance.read : Json → Except DeError ClientAssertedProvenance
  | .object m => do
    .ok
      { originSessionId := ← Codec.string.optional m "origin_session_id"
        originAgentId := ← Codec.string.optional m "origin_agent_id"
        originAgentName := ← Codec.string.optional m "origin_agent_name"
        originAgentRole := ← Codec.string.optional m "origin_agent_role"
        clientVersion := ← Codec.string.optional m "client_version"
        clientBuild := ← Codec.string.optional m "client_build" }
  | .array [session, agent, name, role, version, build] => do
    .ok
      { originSessionId := ← nullableElement Codec.string session
        originAgentId := ← nullableElement Codec.string agent
        originAgentName := ← nullableElement Codec.string name
        originAgentRole := ← nullableElement Codec.string role
        clientVersion := ← nullableElement Codec.string version
        clientBuild := ← nullableElement Codec.string build }
  | .array _ => .error (.custom "invalid length")
  | _ => .error .invalidType

def ProposalProvenance.read : Json → Except DeError ProposalProvenance
  | .object m => do
    .ok
      { serverAttested := ← ServerAttestedProvenance.read
          (← okOr (m.lookup "server_attested") (.missingField "server_attested"))
        clientAsserted := ← ClientAssertedProvenance.read
          (← okOr (m.lookup "client_asserted") (.missingField "client_asserted")) }
  | .array [server, client] => do
    .ok
      { serverAttested := ← ServerAttestedProvenance.read server
        clientAsserted := ← ClientAssertedProvenance.read client }
  | .array _ => .error (.custom "invalid length")
  | _ => .error .invalidType

/-! ## 塊 -/

/-- `render_provenance_value`。値は JSON の文字列として書く。 -/
def renderProvenanceValue (value : String) : Text := writeString value.toList

/-- 無いこともある値。 -/
def renderAssertedValue (value : Option String) : Text :=
  (value.map renderProvenanceValue).getD "(not asserted)".toList

/-- 塊の一行。 -/
def provenanceField (name : String) (value : Text) : Text :=
  "  ".toList ++ name.toList ++ ": ".toList ++ value

namespace ProposalProvenance

variable (p : ProposalProvenance)

/-- 始まりと終わりの目印の間の行。 -/
def innerLines : List Text :=
  let server := p.serverAttested
  let client := p.clientAsserted
  [provenanceField "proposal_id" (renderProvenanceValue server.proposalId),
    provenanceField "target_task_id" (renderProvenanceValue server.targetTaskId),
    provenanceField "creator_user_id" (renderProvenanceValue server.creatorUserId),
    provenanceField "team_id" (renderProvenanceValue server.teamId),
    provenanceField "origin_project_canonical_id"
      (renderProvenanceValue server.originProjectCanonicalId),
    provenanceField "target_project_canonical_id"
      (renderProvenanceValue server.targetProjectCanonicalId),
    provenanceField "received_at" (renderProvenanceValue server.receivedAt),
    provenanceField "client_request_id" (renderProvenanceValue server.clientRequestId),
    endServerAttested, [], beginClientAsserted,
    provenanceField "origin_session_id" (renderAssertedValue client.originSessionId),
    provenanceField "origin_agent_id" (renderAssertedValue client.originAgentId),
    provenanceField "origin_agent_name" (renderAssertedValue client.originAgentName),
    provenanceField "origin_agent_role" (renderAssertedValue client.originAgentRole),
    provenanceField "client_version" (renderAssertedValue client.clientVersion),
    provenanceField "client_build" (renderAssertedValue client.clientBuild)]

/-- 来歴の塊。 -/
def rendered : Text :=
  beginServerAttested ++ '\n' :: (List.intercalate ['\n'] p.innerLines ++ '\n' :: endClientAsserted)

end ProposalProvenance

/-! ## 塊の場所 -/

/-- 目印が行の全体である。 -/
def markerIsLine (notes : Text) (offset markerLen : Nat) : Bool :=
  (offset = 0 || notes[offset - 1]? = some '\n')
    && (offset + markerLen = notes.length || notes[offset + markerLen]? = some '\n')

/-- `unique_complete_provenance_block`。 -/
def uniqueCompleteProvenanceBlock (notes : Text) : Option (Nat × Nat) :=
  match matchIndices beginServerAttested notes, matchIndices endClientAsserted notes with
  | [start], [last] =>
    if start < last ∧ markerIsLine notes start beginServerAttested.length
        ∧ markerIsLine notes last endClientAsserted.length then
      some (start, last + endClientAsserted.length)
    else none
  | _, _ => none

/-- `take_rendered_provenance`。残った notes と、取り出した塊を返す。 -/
def takeRenderedProvenance (notes : Text) (renderedFromProvenance : Bool) : Text × Option Text :=
  if !renderedFromProvenance then (notes, none)
  else match uniqueCompleteProvenanceBlock notes with
    | none => (notes, none)
    | some (start, stop) =>
      (trim (notes.take start ++ notes.drop stop), some ((notes.take stop).drop start))

/-- 何通りもの塊を、最初の場所の一つにまとめる。 -/
def normalizeProvenance (rendered : Text) (paragraphs : List Text) : List Text :=
  paragraphs.foldl (fun kept p =>
    if !isProvenanceParagraph p then kept ++ [p]
    else if rendered ∈ kept then kept
    else kept ++ [rendered]) []

/-- 塊を書き込んだ notes。 -/
def writeProvenance (notes rendered : Text) : Text :=
  match uniqueCompleteProvenanceBlock notes with
  | some (start, stop) => notes.take start ++ rendered ++ notes.drop stop
  | none =>
    if (splitParagraphs notes).any isProvenanceParagraph then
      joinParagraphs (normalizeProvenance rendered (splitParagraphs notes))
    else if notes.isEmpty then rendered
    else trimEnd notes ++ '\n' :: '\n' :: rendered

/-- 名前の値を置き換える。無ければ足す。 -/
def setMember (key : String) (v : Json) : Members → Members
  | [] => [(key, v)]
  | field :: m => if field.1 = key then (key, v) :: m else field :: setMember key v m

/-- `raw[key] = v`。 -/
def Infra.Json.set (json : Json) (key : String) (v : Json) : Json :=
  match json with
  | .object m => .object (setMember key v m)
  | _ => json

/-- 行の `notes`。文字列でなければ空である。 -/
def rawNotes (raw : Json) : Text := ((raw.getStr "notes").getD "").toList

/-- `render_task_proposal_provenance`。読める来歴があったかを返す。 -/
def renderTaskProposalProvenance (raw : Json) : Json × Bool :=
  match (raw.get? "proposal_provenance").map ProposalProvenance.read with
  | some (.ok provenance) =>
    (raw.set "notes" (.string (String.ofList (writeProvenance (rawNotes raw) provenance.rendered))),
      true)
  | _ => (raw, false)

end Cassy
