/-
# The stream assembler

`LlmStreamAssembler` is the sole allocator of sequence numbers of one response.  `emit` validates
and sequences one event, `terminate` sequences the terminal one with a snapshot of the public
content accepted before it.  Both borrow the assembler mutably and return a `Result`, and the body
of `emit` writes in several places, so they are attempts here: an error keeps whatever was written
before it.

The checks stand in the source's order, since the order decides which error a caller sees.

Translated from `crates/llm-streaming/src/event.rs`.
-/
import Omnius.Lib.Attempt
import Omnius.Lib.Table
import Omnius.Lib.Text
import Omnius.Streaming.Event

namespace Omnius.Streaming

open Omnius.Lib

/-- Addition in `u64` and `usize`. -/
def checkedAdd (m n : Nat) : Option Nat := if m + n < 2 ^ 64 then some (m + n) else none

def validateId (value : String) : Except StreamInvariantError Unit :=
  deny (value.isEmpty || decide (256 < value.utf8ByteSize) || value.toList.any Text.isControl)
    .invalidIdentity

structure PartState where
  kind : StreamPartKind
  (complete valueEmitted : Bool)
deriving DecidableEq

structure LlmStreamAssembler where
  requestId : String
  limits : StreamLimits
  nextSequence : Nat
  (responseStarted terminal : Bool)
  parts : Table String PartState
  (toolCorrelations toolNames : Table String String)
  (toolCallIds completedToolCorrelations : Finset String)
  accepted : List AcceptedPublicContent
  textIndices : Table String Nat
  (textBytes acceptedSerializedBytes : Nat)

abbrev Method := EStateM StreamInvariantError LlmStreamAssembler

/-- The text of an accumulated item with `text` pushed behind it. -/
def AcceptedPublicContent.pushStr (text : String) : AcceptedPublicContent → AcceptedPublicContent
  | .text partId accumulated => .text partId (accumulated ++ text)
  | content => content

namespace LlmStreamAssembler

def new (requestId : String) (limits : StreamLimits) : LlmStreamAssembler where
  requestId := requestId
  limits := limits
  nextSequence := 0
  responseStarted := false
  terminal := false
  parts := ∅
  toolCorrelations := ∅
  toolNames := ∅
  toolCallIds := ∅
  completedToolCorrelations := ∅
  accepted := []
  textIndices := ∅
  textBytes := 0
  acceptedSerializedBytes := 2

/-! ## 1. Checks -/

section Checks

variable (a : LlmStreamAssembler)

def requireOpenKind (partId : String) (expected : StreamPartKind) :
    Except StreamInvariantError Unit :=
  match a.parts.lookup partId with
  | none => .error .unknownPart
  | some part =>
    if part.complete then .error .eventAfterPartComplete
    else deny (part.kind != expected) .partKindMismatch

def requirePendingValueKind (partId : String) (expected : StreamPartKind) :
    Except StreamInvariantError Unit :=
  match a.requireOpenKind partId expected with
  | .error e => .error e
  | .ok _ => deny ((a.parts.lookup partId).any (·.valueEmitted)) .duplicatePartValue

def ensurePublicItemSlot : Except StreamInvariantError Unit :=
  deny (a.limits.maxPublicItems.get ≤ a.accepted.length) .publicContentLimitExceeded

def ensureNonterminalSlot : Except StreamInvariantError Unit :=
  match checkedAdd a.nextSequence 1 with
  | none => .error .eventLimitExceeded
  | some terminalSequence =>
    deny (a.limits.maxEvents.get ≤ terminalSequence) .eventLimitExceeded

def ensureEventSlot : Except StreamInvariantError Unit :=
  deny (a.limits.maxEvents.get ≤ a.nextSequence) .eventLimitExceeded

/-- The byte total after `text`, if it stays within the ceiling. -/
def nextTextBytes (text : String) : Except StreamInvariantError Nat :=
  match checkedAdd a.textBytes text.utf8ByteSize with
  | none => .error .textLimitExceeded
  | some next => if a.limits.maxTextBytes.get < next then .error .textLimitExceeded else .ok next

/-- The indexed item is a text item.  The source indexes the vector, and would panic on an index
that is out of range; neither happens (`Sound.indexed`). -/
def requireTextAt (index : Nat) : Except StreamInvariantError Unit :=
  match a.accepted[index]? with
  | some (.text _ _) => .ok ()
  | _ => .error .invalidInternalState

def newPublicItemBytes (content : AcceptedPublicContent) : Except StreamInvariantError Nat :=
  let separator := if a.accepted.isEmpty then 0 else 1
  match (serializedSize content.toJson).bind (checkedAdd · separator) with
  | none => .error .eventPayloadLimitExceeded
  | some size => .ok size

/-- What `data` adds to the serialised size of the accepted content. -/
def addedBytes : LlmStreamEventData → Except StreamInvariantError Nat
  | .textDelta partId text =>
    if (a.textIndices.lookup partId).isSome then
      match (serializedSize (.string text)).bind
          fun size => if 2 ≤ size then some (size - 2) else none with
      | none => .error .eventPayloadLimitExceeded
      | some added => .ok added
    else a.newPublicItemBytes (.text partId text)
  | .structuredComplete part => a.newPublicItemBytes (.structured part)
  | .toolCallComplete correlationId part => a.newPublicItemBytes (.toolCall correlationId part)
  | .toolResultComplete part => a.newPublicItemBytes (.toolResult part)
  | .safeReasoning part => a.newPublicItemBytes (.safeReasoning part)
  | .media media => a.newPublicItemBytes (.media media)
  | .citation part => a.newPublicItemBytes (.citation part)
  | _ => .ok 0

def prospectiveAcceptedBytes (data : LlmStreamEventData) : Except StreamInvariantError Nat :=
  match a.addedBytes data with
  | .error e => .error e
  | .ok added =>
    match checkedAdd a.acceptedSerializedBytes added with
    | none => .error .eventPayloadLimitExceeded
    | some bytes => .ok bytes

/-- The terminal event that room is reserved for, with no content. -/
def reservedTerminal (terminalSequence : Nat) : LlmStreamEvent :=
  ⟨a.requestId, terminalSequence,
    .terminal ⟨.partialInterrupted .consumerDisconnected, []⟩⟩

def ensureTerminalSnapshotFits (acceptedSerializedBytes : Nat) :
    Except StreamInvariantError Unit :=
  match checkedAdd a.nextSequence 1 with
  | none => .error .eventLimitExceeded
  | some terminalSequence =>
    match (serializedSize (a.reservedTerminal terminalSequence).toJson).bind
        (checkedAdd · (acceptedSerializedBytes - 2)) with
    | none => .error .eventPayloadLimitExceeded
    | some terminalBytes =>
      deny (a.limits.maxEventBytes.get < terminalBytes) .eventPayloadLimitExceeded

def event (payload : LlmStreamPayload) : LlmStreamEvent := ⟨a.requestId, a.nextSequence, payload⟩

def nonterminalEventFits (data : LlmStreamEventData) : Bool :=
  serializedFits (a.event (.event data)).toJson a.limits.maxEventBytes.get

def hasOpenPart : Bool := a.parts.entries.any fun entry => !entry.2.complete

def lifecycle (state : StreamTerminalState) : Except StreamInvariantError Unit :=
  match state with
  | .partialInterrupted _ => deny a.accepted.isEmpty .partialWithoutPublicContent
  | _ => deny a.hasOpenPart .openPartAtTerminal

end Checks

/-! ## 2. Writes -/

def pushPublic (content : AcceptedPublicContent) : Method Unit := do
  check (·.ensurePublicItemSlot)
  update fun a => { a with accepted := a.accepted ++ [content] }

def markValueEmitted (partId : String) : Method Unit := do
  check fun a => deny (a.parts.lookup partId).isNone .invalidInternalState
  update fun a => { a with parts := a.parts.modify partId ({ · with valueEmitted := true }) }

def completePublicPart (partId : String) (expected : StreamPartKind)
    (content : AcceptedPublicContent) : Method Unit := do
  check (·.requirePendingValueKind partId expected)
  pushPublic content
  markValueEmitted partId

def advanceSequence : Method Unit := do
  let next ← check fun a =>
    match checkedAdd a.nextSequence 1 with
    | none => .error .eventLimitExceeded
    | some next => .ok next
  update fun a => { a with nextSequence := next }

/-! ## 3. The event kinds -/

def applyResponseStart (responseId : String) : Method Unit := do
  check fun a => deny (a.responseStarted || a.nextSequence != 0) .duplicateResponseStart
  check fun _ => validateId responseId
  update fun a => { a with responseStarted := true }

def applyPartStart (partId : String) (kind : StreamPartKind) : Method Unit := do
  check fun _ => validateId partId
  check fun a => deny (a.parts.lookup partId).isSome .duplicatePart
  check fun a => deny (a.limits.maxParts.get ≤ a.parts.size) .partLimitExceeded
  update fun a => { a with parts := a.parts.insert partId ⟨kind, false, false⟩ }

/-- A delta of a part that has a text item already. -/
def extendText (index nextTextBytes : Nat) (text : String) : Method Unit := do
  check (·.requireTextAt index)
  update fun a => { a with
    textBytes := nextTextBytes
    accepted := a.accepted.modify index (·.pushStr text) }

def openText (partId : String) (nextTextBytes : Nat) (text : String) : Method Unit := do
  check (·.ensurePublicItemSlot)
  update fun a => { a with
    textBytes := nextTextBytes
    accepted := a.accepted ++ [.text partId text]
    textIndices := a.textIndices.insert partId a.accepted.length }

def applyTextDelta (partId text : String) : Method Unit := do
  check (·.requireOpenKind partId .text)
  check fun _ => deny text.isEmpty .emptyTextDelta
  let nextTextBytes ← check (·.nextTextBytes text)
  let index ← check fun a => .ok (a.textIndices.lookup partId)
  match index with
  | some index => extendText index nextTextBytes text
  | none => openText partId nextTextBytes text

/-- The name of a delta, if it is one, is well formed and the one already seen. -/
def requireDeltaName (a : LlmStreamAssembler) (correlationId : String) :
    StreamToolCallDelta → Except StreamInvariantError Unit
  | .name name =>
    match validateId name with
    | .error e => .error e
    | .ok _ => deny ((a.toolNames.lookup correlationId).any (· != name)) .correlationMismatch
  | .argumentsFragment _ => .ok ()

def applyToolCallDelta (partId correlationId : String) (delta : StreamToolCallDelta) :
    Method Unit := do
  check (·.requirePendingValueKind partId .toolCall)
  check fun a => deny (correlationId ∈ a.completedToolCorrelations) .duplicateToolCallIdentity
  check fun _ => validateId correlationId
  check (·.requireDeltaName correlationId delta)
  check fun a =>
    deny ((a.toolCorrelations.lookup correlationId).any (· != partId)) .correlationMismatch
  update fun a => { a with
    toolCorrelations := a.toolCorrelations.orInsert correlationId partId
    toolNames := match delta with
      | .name name => a.toolNames.orInsert correlationId name
      | .argumentsFragment _ => a.toolNames }

def applyToolCallComplete (correlationId : String) (part : ToolCallOutputPart) : Method Unit := do
  check (·.requirePendingValueKind part.id .toolCall)
  check fun _ => validateId correlationId
  check fun a => deny (correlationId ∈ a.completedToolCorrelations || part.callId ∈ a.toolCallIds)
    .duplicateToolCallIdentity
  check fun a => deny ((a.toolCorrelations.lookup correlationId).any (· != part.id)
    || (a.toolNames.lookup correlationId).any (· != part.name)) .correlationMismatch
  check (·.ensurePublicItemSlot)
  update fun a => { a with
    toolCorrelations := a.toolCorrelations.orInsert correlationId part.id
    completedToolCorrelations := insert correlationId a.completedToolCorrelations
    toolCallIds := insert part.callId a.toolCallIds
    accepted := a.accepted ++ [.toolCall correlationId part] }
  markValueEmitted part.id

def applyToolResultComplete (part : ToolResultOutputPart) : Method Unit := do
  check (·.requirePendingValueKind part.id .toolResult)
  check fun a => deny (part.callId ∉ a.toolCallIds) .unknownToolCallIdentity
  pushPublic (.toolResult part)
  markValueEmitted part.id

/-- The part named by a completion can be closed. -/
def requireClosable (a : LlmStreamAssembler) (partId : String) :
    Except StreamInvariantError Unit :=
  match a.parts.lookup partId with
  | none => .error .unknownPart
  | some part =>
    if part.complete then .error .duplicatePartComplete
    else deny (part.kind != .text && !part.valueEmitted) .missingPartValue

def applyPartComplete (partId : String) : Method Unit := do
  check (·.requireClosable partId)
  update fun a => { a with parts := a.parts.modify partId ({ · with complete := true }) }

/-- Everything but the start of the response. -/
def applyStarted : LlmStreamEventData → Method Unit
  | .responseStart _ => check fun _ => .error .duplicateResponseStart
  | .partStart partId kind => applyPartStart partId kind
  | .textDelta partId text => applyTextDelta partId text
  | .structuredComplete part => completePublicPart part.part.id .structured (.structured part)
  | .toolCallDelta partId correlationId delta => applyToolCallDelta partId correlationId delta
  | .toolCallComplete correlationId part => applyToolCallComplete correlationId part
  | .toolResultComplete part => applyToolResultComplete part
  | .safeReasoning part => completePublicPart part.id .safeReasoning (.safeReasoning part)
  | .media media => completePublicPart media.id .media (.media media)
  | .citation part => completePublicPart part.id .citation (.citation part)
  | .usage _ | .warning _ => pure ()
  | .partComplete partId => applyPartComplete partId

def apply (data : LlmStreamEventData) : Method Unit :=
  match data with
  | .responseStart responseId => applyResponseStart responseId
  | data => do
    check fun a => deny (!a.responseStarted) .responseNotStarted
    applyStarted data

/-! ## 4. The calls -/

def emit (data : LlmStreamEventData) : Method LlmStreamEvent := do
  check fun a => deny a.terminal .eventAfterTerminal
  check (·.ensureNonterminalSlot)
  check fun a => deny (!a.nonterminalEventFits data) .eventPayloadLimitExceeded
  let acceptedSerializedBytes ← check (·.prospectiveAcceptedBytes data)
  check (·.ensureTerminalSnapshotFits acceptedSerializedBytes)
  apply data
  update fun a => { a with acceptedSerializedBytes }
  let event ← check fun a => .ok (a.event (.event data))
  advanceSequence
  return event

def terminate (state : StreamTerminalState) : Method LlmStreamEvent := do
  check fun a => deny a.terminal .duplicateTerminal
  check (·.ensureEventSlot)
  check fun a => deny (!a.responseStarted) .responseNotStarted
  check (·.lifecycle state)
  let event ← check fun a => .ok (a.event (.terminal ⟨state, a.accepted⟩))
  check fun a => deny (!serializedFits event.toJson a.limits.maxEventBytes.get)
    .eventPayloadLimitExceeded
  update fun a => { a with terminal := true }
  advanceSequence
  return event

def finish (a : LlmStreamAssembler) : Except StreamInvariantError Unit :=
  deny (!a.terminal) .missingTerminal

end LlmStreamAssembler

/-! ## 5. A stream and its log -/

inductive Call
  | emit (data : LlmStreamEventData)
  | terminate (state : StreamTerminalState)

def Call.perform : Call → Method LlmStreamEvent
  | .emit data => LlmStreamAssembler.emit data
  | .terminate state => LlmStreamAssembler.terminate state

/-- An assembler and the events its calls have returned, oldest first. -/
structure Stream where
  assembler : LlmStreamAssembler
  events : List LlmStreamEvent

namespace Stream

def start (requestId : String) (limits : StreamLimits) : Stream := ⟨.new requestId limits, []⟩

/-- One call, whether it succeeds or not. -/
def call (w : Stream) (c : Call) : Stream :=
  match c.perform w.assembler with
  | .ok event a => ⟨a, w.events ++ [event]⟩
  | .error _ a => ⟨a, w.events⟩

/-- The stream after a sequence of calls. -/
def after (requestId : String) (limits : StreamLimits) (calls : List Call) : Stream :=
  calls.foldl call (start requestId limits)

end Stream

end Omnius.Streaming
