/-
# Stream events and their wire form

The events of one model response: what a provider integration may emit, the public content retained
from it, the terminal states, and the envelope that carries a sequence number.

**The wire form matters.**  Every event is bounded by the number of bytes `serde_json` writes for
it, and the room for the terminal event is reserved ahead of time from such sizes, so each type here
comes with the JSON it serialises to: field names, tags and variant names as the derived
serialisers write them.  Output parts (structured values, tool calls and results, reasoning, media,
citations) and usage are defined in another crate; what is kept of one is what the assembler reads
and the text it serialises to.

Translated from `crates/llm-streaming/src/event.rs`.
-/
import Omnius.Lib.Json

namespace Omnius.Streaming

open Omnius.Lib

/-! ## 1. Limits -/

/-- `NonZeroU64` and, on a 64-bit target, `NonZeroUsize`. -/
structure NonZero where
  get : Nat
  pos : 0 < get
  lt : get < 2 ^ 64
deriving DecidableEq

/-- Fixed request-local ceilings for the state retained by the assembler. -/
structure StreamLimits where
  (maxEvents maxParts maxPublicItems maxTextBytes maxEventBytes : NonZero)
deriving DecidableEq

namespace StreamLimits

def new (maxEvents maxParts maxPublicItems maxTextBytes : NonZero) : StreamLimits :=
  ⟨maxEvents, maxParts, maxPublicItems, maxTextBytes, maxTextBytes⟩

def withMaxEventBytes (limits : StreamLimits) (maxEventBytes : NonZero) : StreamLimits :=
  { limits with maxEventBytes }

def default : StreamLimits :=
  (new ⟨65536, by decide, by decide⟩ ⟨1024, by decide, by decide⟩ ⟨4096, by decide, by decide⟩
    ⟨16 * 1024 * 1024, by decide, by decide⟩).withMaxEventBytes
      ⟨32 * 1024 * 1024, by decide, by decide⟩

end StreamLimits

/-! ## 2. Parts -/

/-- The canonical kind announced by a part-start event. -/
inductive StreamPartKind
  | text | structured | toolCall | toolResult | safeReasoning | media | citation
deriving DecidableEq

inductive StructuredValidation
  | valid | invalid | notRequested
deriving DecidableEq

structure StructuredOutputPart where
  id : String
  validation : StructuredValidation
  wire : String
deriving DecidableEq

/-- A completed structured part: only a locally validated one can be wrapped. -/
structure ValidatedStructuredComplete where
  part : StructuredOutputPart
  valid : part.validation = .valid
deriving DecidableEq

structure ToolCallOutputPart where
  (id callId name wire : String)
deriving DecidableEq

structure ToolResultOutputPart where
  (id callId wire : String)
deriving DecidableEq

/-- Reasoning, citation, image, audio, video and file parts: only the identity is read. -/
structure OutputPart where
  (id wire : String)
deriving DecidableEq

inductive StreamMedia
  | image (part : OutputPart)
  | audio (part : OutputPart)
  | video (part : OutputPart)
  | file (part : OutputPart)
deriving DecidableEq

def StreamMedia.id : StreamMedia → String
  | .image part => part.id
  | .audio part => part.id
  | .video part => part.id
  | .file part => part.id

/-- An incomplete provider tool-call field. -/
inductive StreamToolCallDelta
  | name (value : String)
  | argumentsFragment (value : String)
deriving DecidableEq

inductive AcceptedPublicContent
  | text (partId text : String)
  | structured (part : ValidatedStructuredComplete)
  | toolCall (correlationId : String) (part : ToolCallOutputPart)
  | toolResult (part : ToolResultOutputPart)
  | safeReasoning (part : OutputPart)
  | media (media : StreamMedia)
  | citation (part : OutputPart)
deriving DecidableEq

/-! ## 3. Events -/

inductive StreamWarningCode
  | providerExtensionOmitted | privateReasoningOmitted | textCoalesced | estimatedUsage
deriving DecidableEq

inductive StreamBudgetDimension
  | modelTurns | toolCalls | wallClock | tokens | cost | concurrency
deriving DecidableEq

inductive StreamFailureKind
  | protocol | transport | internal
deriving DecidableEq

inductive StreamInterruption
  | transport | protocol | consumerDisconnected | deadline
deriving DecidableEq

inductive StreamTerminalState
  | completed | providerRefused | safetyRefused | invalidStructuredData | toolExecutionFailed
  | budgetExhausted (dimension : StreamBudgetDimension)
  | cancelled
  | failed (kind : StreamFailureKind)
  | partialInterrupted (interruption : StreamInterruption)
deriving DecidableEq

structure StreamTerminal where
  state : StreamTerminalState
  acceptedPublicContent : List AcceptedPublicContent
deriving DecidableEq

/-- Non-terminal input accepted by `emit`.  The usage snapshot is its wire text. -/
inductive LlmStreamEventData
  | responseStart (responseId : String)
  | partStart (partId : String) (kind : StreamPartKind)
  | textDelta (partId text : String)
  | structuredComplete (part : ValidatedStructuredComplete)
  | toolCallDelta (partId correlationId : String) (delta : StreamToolCallDelta)
  | toolCallComplete (correlationId : String) (part : ToolCallOutputPart)
  | toolResultComplete (part : ToolResultOutputPart)
  | safeReasoning (part : OutputPart)
  | media (media : StreamMedia)
  | citation (part : OutputPart)
  | usage (wire : String)
  | warning (code : StreamWarningCode)
  | partComplete (partId : String)
deriving DecidableEq

inductive LlmStreamPayload
  | event (data : LlmStreamEventData)
  | terminal (terminal : StreamTerminal)
deriving DecidableEq

/-- One request-correlated, strictly sequenced event.  The schema version has one value only, which
appears in the wire form. -/
structure LlmStreamEvent where
  requestId : String
  sequence : Nat
  payload : LlmStreamPayload
deriving DecidableEq

inductive StreamInvariantError
  | requestCorrelationMismatch | nonMonotonicSequence | responseNotStarted | duplicateResponseStart
  | invalidIdentity | duplicatePart | unknownPart | partKindMismatch | eventAfterPartComplete
  | duplicatePartComplete | missingPartValue | duplicatePartValue | emptyTextDelta
  | structuredValueNotValidated | correlationMismatch | duplicateToolCallIdentity
  | duplicateTerminal | eventAfterTerminal | openPartAtTerminal | partialWithoutPublicContent
  | missingTerminal | terminalSnapshotMismatch | eventLimitExceeded | partLimitExceeded
  | publicContentLimitExceeded | textLimitExceeded | eventPayloadLimitExceeded
  | unknownToolCallIdentity | invalidInternalState
deriving DecidableEq

def ValidatedStructuredComplete.tryFromPart (part : StructuredOutputPart) :
    Except StreamInvariantError ValidatedStructuredComplete :=
  if h : part.validation = .valid then .ok ⟨part, h⟩ else .error .structuredValueNotValidated

/-! ## 4. The wire form -/

def tagged (tag variant content : String) (value : Json) : Json :=
  .object [(tag, .string variant), (content, value)]

/-- An adjacently tagged variant without one. -/
def bare (tag variant : String) : Json := .object [(tag, .string variant)]

def StreamPartKind.wireName : StreamPartKind → String
  | .text => "text"
  | .structured => "structured"
  | .toolCall => "tool_call"
  | .toolResult => "tool_result"
  | .safeReasoning => "safe_reasoning"
  | .media => "media"
  | .citation => "citation"

def StreamMedia.toJson : StreamMedia → Json
  | .image part => tagged "media_type" "image" "part" (.raw part.wire)
  | .audio part => tagged "media_type" "audio" "part" (.raw part.wire)
  | .video part => tagged "media_type" "video" "part" (.raw part.wire)
  | .file part => tagged "media_type" "file" "part" (.raw part.wire)

def StreamToolCallDelta.toJson : StreamToolCallDelta → Json
  | .name value => tagged "field" "name" "value" (.string value)
  | .argumentsFragment value => tagged "field" "arguments_fragment" "value" (.string value)

def AcceptedPublicContent.toJson : AcceptedPublicContent → Json
  | .text partId value => tagged "content_type" "text" "content"
      (.object [("part_id", .string partId), ("text", .string value)])
  | .structured part => tagged "content_type" "structured" "content" (.raw part.part.wire)
  | .toolCall correlationId part => tagged "content_type" "tool_call" "content"
      (.object [("correlation_id", .string correlationId), ("part", .raw part.wire)])
  | .toolResult part => tagged "content_type" "tool_result" "content" (.raw part.wire)
  | .safeReasoning part => tagged "content_type" "safe_reasoning" "content" (.raw part.wire)
  | .media value => tagged "content_type" "media" "content" value.toJson
  | .citation part => tagged "content_type" "citation" "content" (.raw part.wire)

def StreamWarningCode.wireName : StreamWarningCode → String
  | .providerExtensionOmitted => "provider_extension_omitted"
  | .privateReasoningOmitted => "private_reasoning_omitted"
  | .textCoalesced => "text_coalesced"
  | .estimatedUsage => "estimated_usage"

def StreamBudgetDimension.wireName : StreamBudgetDimension → String
  | .modelTurns => "model_turns"
  | .toolCalls => "tool_calls"
  | .wallClock => "wall_clock"
  | .tokens => "tokens"
  | .cost => "cost"
  | .concurrency => "concurrency"

def StreamFailureKind.wireName : StreamFailureKind → String
  | .protocol => "protocol"
  | .transport => "transport"
  | .internal => "internal"

def StreamInterruption.wireName : StreamInterruption → String
  | .transport => "transport"
  | .protocol => "protocol"
  | .consumerDisconnected => "consumer_disconnected"
  | .deadline => "deadline"

def StreamTerminalState.toJson : StreamTerminalState → Json
  | .completed => bare "state" "completed"
  | .providerRefused => bare "state" "provider_refused"
  | .safetyRefused => bare "state" "safety_refused"
  | .invalidStructuredData => bare "state" "invalid_structured_data"
  | .toolExecutionFailed => bare "state" "tool_execution_failed"
  | .budgetExhausted dimension =>
      tagged "state" "budget_exhausted" "detail" (.string dimension.wireName)
  | .cancelled => bare "state" "cancelled"
  | .failed kind => tagged "state" "failed" "detail" (.string kind.wireName)
  | .partialInterrupted interruption =>
      tagged "state" "partial_interrupted" "detail" (.string interruption.wireName)

def StreamTerminal.toJson (terminal : StreamTerminal) : Json :=
  .object [("state", terminal.state.toJson),
    ("accepted_public_content", .array (terminal.acceptedPublicContent.map (·.toJson)))]

def LlmStreamEventData.toJson : LlmStreamEventData → Json
  | .responseStart responseId => tagged "event" "response_start" "data"
      (.object [("response_id", .string responseId)])
  | .partStart partId kind => tagged "event" "part_start" "data"
      (.object [("part_id", .string partId), ("kind", .string kind.wireName)])
  | .textDelta partId text => tagged "event" "text_delta" "data"
      (.object [("part_id", .string partId), ("text", .string text)])
  | .structuredComplete part =>
      tagged "event" "structured_complete" "data" (.raw part.part.wire)
  | .toolCallDelta partId correlationId delta => tagged "event" "tool_call_delta" "data"
      (.object [("part_id", .string partId), ("correlation_id", .string correlationId),
        ("delta", delta.toJson)])
  | .toolCallComplete correlationId part => tagged "event" "tool_call_complete" "data"
      (.object [("correlation_id", .string correlationId), ("part", .raw part.wire)])
  | .toolResultComplete part => tagged "event" "tool_result_complete" "data" (.raw part.wire)
  | .safeReasoning part => tagged "event" "safe_reasoning" "data" (.raw part.wire)
  | .media value => tagged "event" "media" "data" value.toJson
  | .citation part => tagged "event" "citation" "data" (.raw part.wire)
  | .usage wire => tagged "event" "usage" "data" (.raw wire)
  | .warning code => tagged "event" "warning" "data" (.string code.wireName)
  | .partComplete partId => tagged "event" "part_complete" "data"
      (.object [("part_id", .string partId)])

def LlmStreamPayload.toJson : LlmStreamPayload → Json
  | .event data => tagged "event" "event" "data" data.toJson
  | .terminal value => tagged "event" "terminal" "data" value.toJson

def LlmStreamEvent.toJson (event : LlmStreamEvent) : Json :=
  .object [("schema_version", .string "1.0.0"), ("request_id", .string event.requestId),
    ("sequence", .raw (toString event.sequence)), ("payload", event.payload.toJson)]

/-- What `CountingWriter` has counted when serialisation ends: nothing when the count leaves
`usize`. -/
def serializedSize (value : Json) : Option Nat :=
  if value.size < 2 ^ 64 then some value.size else none

/-- `BudgetWriter` refuses the first chunk that does not fit, so all of the text has to. -/
def serializedFits (value : Json) (limit : Nat) : Bool := decide (value.size ≤ limit)

/-! ## 5. Sizes of terminals -/

/-- **The reserved state is the longest one.** -/
theorem StreamTerminalState.size_le (state : StreamTerminalState) : state.toJson.size ≤
    (StreamTerminalState.partialInterrupted .consumerDisconnected).toJson.size := by
  cases state with
  | budgetExhausted dimension => cases dimension <;> decide
  | failed kind => cases kind <;> decide
  | partialInterrupted interruption => cases interruption <;> decide
  | _ => decide

/-- The size of a terminal event depends on its state and on its content through their sizes. -/
theorem size_terminal_event (requestId : String) (sequence : Nat) (state reserved)
    (accepted : List AcceptedPublicContent) :
    (LlmStreamEvent.mk requestId sequence (.terminal ⟨state, accepted⟩)).toJson.size
        + reserved.toJson.size + 2 =
      (LlmStreamEvent.mk requestId sequence (.terminal ⟨reserved, []⟩)).toJson.size
        + state.toJson.size + (Json.array (accepted.map (·.toJson))).size := by
  have hemp : (Json.array []).size = 2 := by decide
  simp only [LlmStreamEvent.toJson, LlmStreamPayload.toJson, StreamTerminal.toJson, tagged,
    Json.size_object, Json.fieldSize, List.map_cons, List.map_nil, List.sum_cons, List.sum_nil,
    List.length_cons, List.length_nil, hemp]
  omega

end Omnius.Streaming
