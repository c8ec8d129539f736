/-
# Durable tasks

A task is one long-running capability invocation.  Its SNAPSHOT is the authoritative state: an
immutable identity, a version that every change increases, a generation that every resumption
increases, and a state -- working, waiting for a round of client input, or one of three ends.

`TaskSnapshot.transitioned` is the one place where a snapshot changes, and `InputRound.apply` the
one place where a round does: it fills what is pending and ignores everything else.

Instants are counted in microseconds, the resolution of the database clock.  What is decided
elsewhere -- the digest, the official request type, how an instant is printed -- is in `Codecs`.

Translated from `crates/mcp-tasks/src/domain.rs`.
-/
import Omnius.Lib.Json
import Omnius.Lib.SortedMap
import Mathlib.Data.String.Basic

namespace Omnius.Tasks

open Omnius.Lib

abbrev Instant := Nat

abbrev Digest := Vector UInt8 32

/-! ## 1. Bounded values -/

/-- The most a task input or a batch of input responses may serialise to. -/
def maxTaskInputBytes : Nat := 1048576

def maxTaskResultBytes : Nat := 16 * 1024 * 1024 + 4096

def maxInputRequests : Nat := 64

def maxInputKeyBytes : Nat := 128

def maxReservationRefBytes : Nat := 256

def maxRequestStateBytes : Nat := 8192

inductive TaskValueError where
  | empty | tooLong | invalid
deriving DecidableEq

def byteLength (value : String) : Nat := Text.bytes value.toList

def isGraphic (c : Char) : Bool := '!' ≤ c && c ≤ '~'

def validateGraphic (value : String) (max : Nat) : Except TaskValueError Unit :=
  if value.toList.isEmpty then .error .empty
  else if byteLength value > max then .error .tooLong
  else if !value.toList.all isGraphic then .error .invalid
  else .ok ()

def validateSerialized (value : Json) (max : Nat) : Except TaskValueError Unit :=
  if value.size > max then .error .tooLong else .ok ()

def validateJsonObject (value : Json) (max : Nat) : Except TaskValueError Unit :=
  match value with
  | .object _ => validateSerialized value max
  | _ => .error .invalid

structure BudgetReservationRef where
  text : String
  valid : validateGraphic text maxReservationRefBytes = .ok ()
deriving DecidableEq

structure InputKey where
  text : String
  valid : validateGraphic text maxInputKeyBytes = .ok ()
deriving DecidableEq

/-- Keys are ordered by their text. -/
instance : LinearOrder InputKey :=
  LinearOrder.lift' InputKey.text (by rintro ⟨_, _⟩ ⟨_, _⟩ rfl; rfl)

def validateRequestState (value : String) : Except TaskValueError Unit :=
  if value.toList.isEmpty || byteLength value > maxRequestStateBytes
      || !value.toList.all isGraphic then .error .invalid
  else .ok ()

structure TaskRequestState where
  text : String
  valid : validateRequestState text = .ok ()
deriving DecidableEq

/-! ## 2. Identity, budget and execution -/

structure TaskId where
  text : String
deriving DecidableEq

structure JobId where
  text : String
deriving DecidableEq

structure TaskOwner where
  subjectId : String
  tenantId : Option String
deriving DecidableEq

structure CapabilityKey where
  (id version : String)
deriving DecidableEq

structure TaskIdentity where
  (requestId correlationId : String)
  causationId : Option String
deriving DecidableEq

structure TaskIdempotency where
  key : String
  fingerprint : Digest
deriving DecidableEq

structure BudgetBounds where
  (maxInputBytes maxOutputBytes maxWorkUnits : Nat)
deriving DecidableEq

structure TaskBudget where
  bounds : BudgetBounds
  reservation : BudgetReservationRef
deriving DecidableEq

inductive TenantMode where
  | global | tenant | principal
deriving DecidableEq

inductive ConfirmationEvidence where
  | notProvided | confirmed | notRequiredByPolicy
deriving DecidableEq

/-- What decides about values outside of this component. -/
structure Codecs where
  sha256 : String → Digest
  /-- The digest of a capability revision and a normalised input. -/
  invocationDigest : CapabilityKey → Json → Digest
  /-- The official input-request type reads the value and writes it back unchanged. -/
  inputRequest : Json → Bool
  /-- The text of an instant. -/
  rfc3339 : Instant → String
  rfc3339_short : ∀ t, byteLength (rfc3339 t) ≤ 35

structure TaskExecution where
  capability : CapabilityKey
  tenantMode : TenantMode
  confirmation : ConfirmationEvidence
  input : Json
  idempotencyKey : String
  budget : TaskBudget
  valid : validateJsonObject input maxTaskInputBytes = .ok ()
deriving DecidableEq

/-- The digest of an invocation, if its input is within bounds. -/
def RequestFingerprint.forInvocation (codecs : Codecs) (capability : CapabilityKey)
    (normalizedInput : Json) : Except TaskValueError Digest :=
  if normalizedInput.size > maxTaskInputBytes then .error .tooLong
  else .ok (codecs.invocationDigest capability normalizedInput)

/-- Lifetime and polling of a task, within the bounds of the configuration.  Durations are in
microseconds. -/
structure TaskConfig where
  (ttl pollInterval : Nat)
  ttl_pos : 1000 ≤ ttl
  ttl_le : ttl ≤ 8760 * 3600 * 1000000
  poll_pos : 100 * 1000 ≤ pollInterval
  poll_le : pollInterval ≤ 60 * 1000000

/-! ## 3. Rounds of input -/

structure InputExchange where
  request : Json
  response : Option Json
deriving DecidableEq

namespace InputExchange

def pending (codecs : Codecs) (request : Json) : Except TaskValueError InputExchange :=
  match validateJsonObject request maxTaskInputBytes with
  | .error e => .error e
  | .ok () => if codecs.inputRequest request then .ok ⟨request, none⟩ else .error .invalid

def isPending (exchange : InputExchange) : Bool := exchange.response.isNone

def toJson (exchange : InputExchange) : Json :=
  .object [("request", exchange.request), ("response", exchange.response.getD .null)]

end InputExchange

structure InputResponses where
  responses : SortedMap InputKey Json

namespace InputResponses

variable (responses : SortedMap InputKey Json)

def toJson : Json :=
  .object (responses.entries.map fun e => (e.1.text, e.2))

/-- Accepts a batch that is not empty, not too long, made of bounded objects, and bounded. -/
def new : Except TaskValueError InputResponses :=
  if responses.isEmpty || responses.size > maxInputRequests then .error .invalid
  else
    match responses.traverse fun _ response =>
      (validateJsonObject response maxTaskInputBytes).map fun _ => response with
    | .error e => .error e
    | .ok validated =>
      match validateSerialized (toJson validated) maxTaskInputBytes with
      | .error e => .error e
      | .ok () => .ok ⟨validated⟩

end InputResponses

structure InputRound where
  number : Nat
  requestState : TaskRequestState
  exchanges : SortedMap InputKey InputExchange
deriving DecidableEq

/-- What applying a batch of responses gives. -/
structure InputRoundUpdate where
  round : InputRound
  (changed complete : Bool)

namespace InputRound

def exchangesJson (exchanges : SortedMap InputKey InputExchange) : Json :=
  .object (exchanges.entries.map fun e => (e.1.text, e.2.toJson))

def toJson (round : InputRound) : Json :=
  .object [("number", .raw (toString round.number)),
    ("request_state", .string round.requestState.text),
    ("exchanges", exchangesJson round.exchanges)]

def new (number : Nat) (requestState : TaskRequestState)
    (exchanges : SortedMap InputKey InputExchange) : Except TaskValueError InputRound :=
  if number = 0 || exchanges.isEmpty || exchanges.size > maxInputRequests then .error .invalid
  else
    match validateSerialized (exchangesJson exchanges) maxTaskInputBytes with
    | .error e => .error e
    | .ok () => .ok ⟨number, requestState, exchanges⟩

def ofRequests (codecs : Codecs) (number : Nat) (requestState : TaskRequestState)
    (requests : SortedMap InputKey Json) : Except TaskValueError InputRound :=
  match requests.traverse fun _ request => InputExchange.pending codecs request with
  | .error e => .error e
  | .ok exchanges => new number requestState exchanges

/-- No request of the round is outstanding. -/
def isComplete (round : InputRound) : Bool :=
  round.exchanges.entries.all fun e => !e.2.isPending

/-- Fills one exchange, if it is there and pending. -/
def answer (exchange : InputExchange) (response : Json) : InputExchange :=
  if exchange.response.isNone then { exchange with response := some response } else exchange

/-- Applies responses to pending keys; unknown and answered keys are ignored. -/
def apply (round : InputRound) (responses : InputResponses) : InputRoundUpdate :=
  let exchanges := responses.responses.entries.foldl
    (fun exchanges e => exchanges.modify e.1 fun exchange => answer exchange e.2) round.exchanges
  let changed := responses.responses.entries.any fun e =>
    (round.exchanges.get? e.1).any (·.isPending)
  let next : InputRound := { round with exchanges }
  ⟨next, changed, next.isComplete⟩

/-- The same round, with at least the responses it had. -/
def isResponseSuccessor (round next : InputRound) : Bool :=
  round.number = next.number && round.requestState = next.requestState
    && round.exchanges.size = next.exchanges.size
    && round.exchanges.entries.all fun e =>
      match next.exchanges.get? e.1 with
      | none => false
      | some candidate => e.2.request = candidate.request
        && match e.2.response with
          | some response => candidate.response = some response
          | none => true

end InputRound

/-! ## 4. States -/

inductive TaskStatus where
  | working | inputRequired | completed | failed | cancelled
deriving DecidableEq

def TaskStatus.isTerminal : TaskStatus → Bool
  | .completed | .failed | .cancelled => true
  | .working | .inputRequired => false

def fieldOf (fields : List (String × Json)) (name : String) : Option Json :=
  (fields.find? (·.1 = name)).map (·.2)

/-- The shape of a projected tool result. -/
def validatedProjected (fields : List (String × Json)) : Except TaskValueError Unit :=
  match validateSerialized (.object fields) maxTaskResultBytes with
  | .error e => .error e
  | .ok () =>
    match fieldOf fields "isError", fieldOf fields "content" with
    | some (.bool isError), some (.array content) =>
      let hasStructured := (fieldOf fields "structuredContent").isSome
      if fieldOf fields "resultType" ≠ some (.string "complete")
          || (isError && (hasStructured || content.isEmpty))
          || (!isError && content.isEmpty && !hasStructured)
          || fields.any fun f =>
            !(["resultType", "content", "structuredContent", "isError"].contains f.1) then
        .error .invalid
      else .ok ()
    | _, _ => .error .invalid

/-- A final result, in the representation of a synchronous tool call. -/
structure CanonicalTaskResult where
  fields : List (String × Json)
  valid : validatedProjected fields = .ok ()
deriving DecidableEq

inductive TaskFailureCode where
  | capabilityRejected | deadlineExceeded | executionFailed | invalidResult | expired
  | indeterminate
deriving DecidableEq

inductive TaskState where
  | working
  | inputRequired (round : InputRound)
  | completed (result : CanonicalTaskResult)
  | failed (failure : TaskFailureCode)
  | cancelled
deriving DecidableEq

namespace TaskState

def status : TaskState → TaskStatus
  | .working => .working
  | .inputRequired _ => .inputRequired
  | .completed _ => .completed
  | .failed _ => .failed
  | .cancelled => .cancelled

def isTerminal (state : TaskState) : Bool := state.status.isTerminal

end TaskState

/-! ## 5. Snapshots -/

structure TaskSnapshot where
  taskId : TaskId
  owner : TaskOwner
  capability : CapabilityKey
  identity : TaskIdentity
  idempotency : TaskIdempotency
  budget : TaskBudget
  currentJobId : JobId
  (generation version : Nat)
  state : TaskState
  cancellationRequested : Bool
  (createdAt updatedAt expiresAt : Instant)
  pollIntervalMs : Nat
deriving DecidableEq

inductive TaskTransition where
  | requireInput (round : InputRound)
  | recordInput (round : InputRound)
  | resume (answeredRound : InputRound) (jobId : JobId) (generation : Nat)
  | requestCancellation
  | complete (result : CanonicalTaskResult)
  | fail (failure : TaskFailureCode)
  | cancel

inductive TaskTransitionError where
  | staleVersion | terminal | invalid | nonMonotonicTime | exhausted

/-- The next value of a 64-bit counter. -/
def checkedNext (n : Nat) : Option Nat := if n + 1 < 2 ^ 64 then some (n + 1) else none

namespace TaskSnapshot

def initial (taskId : TaskId) (owner : TaskOwner) (capability : CapabilityKey)
    (identity : TaskIdentity) (idempotency : TaskIdempotency) (budget : TaskBudget)
    (currentJobId : JobId) (createdAt : Instant) (config : TaskConfig) : TaskSnapshot where
  taskId
  owner
  capability
  identity
  idempotency
  budget
  currentJobId
  generation := 1
  version := 1
  state := .working
  cancellationRequested := false
  createdAt
  updatedAt := createdAt
  expiresAt := createdAt + config.ttl
  pollIntervalMs := config.pollInterval / 1000

/-- The repository's time in place of the caller's, with the same lifetime. -/
def withAuthoritativeCreationTime (snapshot : TaskSnapshot) (now : Instant) :
    Except TaskValueError TaskSnapshot :=
  if snapshot.generation ≠ 1 || snapshot.version ≠ 1 || snapshot.state ≠ .working
      || snapshot.cancellationRequested || snapshot.createdAt ≠ snapshot.updatedAt then
    .error .invalid
  else
    let ttl := snapshot.expiresAt - snapshot.createdAt
    if ttl = 0 then .error .invalid
    else .ok { snapshot with createdAt := now, updatedAt := now, expiresAt := now + ttl }

/-- What a transition makes of a live snapshot whose version and time have been advanced. -/
def applyTransition (snapshot next : TaskSnapshot) (now : Instant) :
    TaskTransition → Except TaskTransitionError TaskSnapshot
  | .requireInput round =>
    if snapshot.state ≠ .working || now ≥ snapshot.expiresAt then .error .invalid
    else .ok { next with state := .inputRequired round }
  | .recordInput round =>
    match snapshot.state with
    | .inputRequired currentRound =>
      if !currentRound.isResponseSuccessor round || round.isComplete
          || now ≥ snapshot.expiresAt then .error .invalid
      else .ok { next with state := .inputRequired round }
    | _ => .error .invalid
  | .resume answeredRound jobId generation =>
    match checkedNext snapshot.generation with
    | none => .error .exhausted
    | some expectedGeneration =>
      match snapshot.state with
      | .inputRequired currentRound =>
        if !currentRound.isResponseSuccessor answeredRound || !answeredRound.isComplete
            || generation ≠ expectedGeneration || now ≥ snapshot.expiresAt then .error .invalid
        else .ok { next with
          currentJobId := jobId
          generation
          state := .working
          cancellationRequested := false }
      | _ => .error .invalid
  | .requestCancellation =>
    if snapshot.cancellationRequested then .ok snapshot
    else if now ≥ snapshot.expiresAt then .error .invalid
    else .ok { next with cancellationRequested := true }
  | .complete result =>
    if now ≥ snapshot.expiresAt then .error .invalid
    else .ok { next with state := .completed result }
  | .fail failure =>
    if (failure = .expired && now < snapshot.expiresAt)
        || (failure ≠ .expired && now ≥ snapshot.expiresAt) then .error .invalid
    else .ok { next with state := .failed failure }
  | .cancel =>
    if now ≥ snapshot.expiresAt then .error .invalid
    else .ok { next with cancellationRequested := true, state := .cancelled }

def transitioned (snapshot : TaskSnapshot) (expectedVersion : Nat) (transition : TaskTransition)
    (now : Instant) : Except TaskTransitionError TaskSnapshot :=
  if snapshot.version ≠ expectedVersion then .error .staleVersion
  else if snapshot.state.isTerminal then .error .terminal
  else if now ≤ snapshot.updatedAt then .error .nonMonotonicTime
  else
    match checkedNext snapshot.version with
    | none => .error .exhausted
    | some nextVersion =>
      snapshot.applyTransition { snapshot with version := nextVersion, updatedAt := now } now
        transition

end TaskSnapshot

/-- A snapshot and the protected material its execution needs. -/
structure StoredTask where
  snapshot : TaskSnapshot
  execution : TaskExecution
deriving DecidableEq

end Omnius.Tasks
