/-
# Documents: what is written, and what is read back

A stored task is written as one JSON document, a completed round of input as another.  Writer and
reader each check what they handle, and not the same things:

* a task document is bounded by `taskDocumentMaxBytes` on both sides, but the reader builds the
  round of a waiting task anew (`validateRestoredState`), with the bound of a round of REQUESTS on
  exchanges that by now hold RESPONSES as well;
* a completed round is bounded by `inputRoundMaxBytes` on both sides, but the reader applies its
  responses as ONE batch, with the bound of a batch, although they came in several.

The JSON text is not parsed here: a document is the value it was written from, which is what reading
back means for a serialiser and a payload protector that round-trip.

Translated from `crates/mcp-tasks/src/postgres.rs`.
-/
import Omnius.Tasks.Domain

namespace Omnius.Tasks

open Omnius.Lib

inductive RepositoryError where
  | unavailable | integrity | transactionConflict
deriving DecidableEq

def taskDocumentMaxBytes : Nat := 18 * 1024 * 1024

def inputRoundMaxBytes : Nat := 1200000

/-! ## 1. The text of a task -/

def optionJson (value : Option String) : Json :=
  match value with
  | some text => .string text
  | none => .null

def TaskOwner.toJson (owner : TaskOwner) : Json :=
  .object [("subject_id", .string owner.subjectId), ("tenant_id", optionJson owner.tenantId)]

def CapabilityKey.toJson (capability : CapabilityKey) : Json :=
  .object [("id", .string capability.id), ("version", .string capability.version)]

def TaskIdentity.toJson (identity : TaskIdentity) : Json :=
  .object [("request_id", .string identity.requestId),
    ("correlation_id", .string identity.correlationId),
    ("causation_id", optionJson identity.causationId)]

def TaskIdempotency.toJson (idempotency : TaskIdempotency) : Json :=
  .object [("key", .string idempotency.key),
    ("fingerprint", .array (idempotency.fingerprint.toList.map fun byte =>
      .raw (toString byte.toNat)))]

def TaskBudget.toJson (budget : TaskBudget) : Json :=
  .object [("bounds", .object [
      ("max_input_bytes", .raw (toString budget.bounds.maxInputBytes)),
      ("max_output_bytes", .raw (toString budget.bounds.maxOutputBytes)),
      ("max_work_units", .raw (toString budget.bounds.maxWorkUnits))]),
    ("reservation", .string budget.reservation.text)]

def TenantMode.label : TenantMode → String
  | .global => "global"
  | .tenant => "tenant"
  | .principal => "principal"

def ConfirmationEvidence.label : ConfirmationEvidence → String
  | .notProvided => "not_provided"
  | .confirmed => "confirmed"
  | .notRequiredByPolicy => "not_required_by_policy"

def TaskFailureCode.label : TaskFailureCode → String
  | .capabilityRejected => "capability_rejected"
  | .deadlineExceeded => "deadline_exceeded"
  | .executionFailed => "execution_failed"
  | .invalidResult => "invalid_result"
  | .expired => "expired"
  | .indeterminate => "indeterminate"

def TaskState.toJson : TaskState → Json
  | .working => .object [("status", .string "working")]
  | .inputRequired round =>
    .object [("status", .string "input_required"), ("round", round.toJson)]
  | .completed result =>
    .object [("status", .string "completed"), ("result", .object result.fields)]
  | .failed failure =>
    .object [("status", .string "failed"), ("failure", .string failure.label)]
  | .cancelled => .object [("status", .string "cancelled")]

def TaskSnapshot.toJson (codecs : Codecs) (snapshot : TaskSnapshot) : Json :=
  .object [("task_id", .string snapshot.taskId.text),
    ("owner", snapshot.owner.toJson),
    ("capability", snapshot.capability.toJson),
    ("identity", snapshot.identity.toJson),
    ("idempotency", snapshot.idempotency.toJson),
    ("budget", snapshot.budget.toJson),
    ("current_job_id", .string snapshot.currentJobId.text),
    ("generation", .raw (toString snapshot.generation)),
    ("version", .raw (toString snapshot.version)),
    ("state", snapshot.state.toJson),
    ("cancellation_requested", .bool snapshot.cancellationRequested),
    ("created_at", .string (codecs.rfc3339 snapshot.createdAt)),
    ("updated_at", .string (codecs.rfc3339 snapshot.updatedAt)),
    ("expires_at", .string (codecs.rfc3339 snapshot.expiresAt)),
    ("poll_interval_ms", .raw (toString snapshot.pollIntervalMs))]

def TaskExecution.toJson (execution : TaskExecution) : Json :=
  .object [("capability", execution.capability.toJson),
    ("tenant_mode", .string execution.tenantMode.label),
    ("confirmation", .string execution.confirmation.label),
    ("input", execution.input),
    ("idempotency_key", .string execution.idempotencyKey),
    ("budget", execution.budget.toJson)]

def StoredTask.toJson (codecs : Codecs) (stored : StoredTask) : Json :=
  .object [("snapshot", stored.snapshot.toJson codecs), ("execution", stored.execution.toJson)]

/-! ## 2. Task documents -/

section

variable (codecs : Codecs)

/-- Snapshot and execution are of the same invocation. -/
def validateStoredConsistency (stored : StoredTask) :
    Except RepositoryError Unit :=
  match RequestFingerprint.forInvocation codecs stored.execution.capability
      stored.execution.input with
  | .error _ => .error .integrity
  | .ok fingerprint =>
    if stored.snapshot.capability ≠ stored.execution.capability
        || stored.snapshot.budget ≠ stored.execution.budget
        || stored.snapshot.idempotency.key ≠ stored.execution.idempotencyKey
        || stored.snapshot.idempotency.fingerprint ≠ fingerprint then .error .integrity
    else .ok ()

def encodeStoredTask (stored : StoredTask) : Except RepositoryError StoredTask :=
  match validateStoredConsistency codecs stored with
  | .error e => .error e
  | .ok () =>
    if (stored.toJson codecs).size > taskDocumentMaxBytes then .error .integrity else .ok stored

/-- One exchange, built anew: its key, its request and its response are checked. -/
def restoreExchange (key : InputKey) (exchange : InputExchange) :
    Except TaskValueError InputExchange :=
  match validateGraphic key.text maxInputKeyBytes with
  | .error e => .error e
  | .ok () =>
    match InputExchange.pending codecs exchange.request with
    | .error e => .error e
    | .ok restored =>
      match exchange.response with
      | none => .ok restored
      | some response =>
        match validateJsonObject response maxTaskInputBytes with
        | .error e => .error e
        | .ok () => .ok { restored with response := some response }

def validateRestoredState : TaskState → Except TaskValueError TaskState
  | .inputRequired round =>
    match validateRequestState round.requestState.text with
    | .error e => .error e
    | .ok () =>
      match round.exchanges.traverse (restoreExchange codecs) with
      | .error e => .error e
      | .ok exchanges =>
        match InputRound.new round.number round.requestState exchanges with
        | .error e => .error e
        | .ok round => .ok (.inputRequired round)
  | state => .ok state

end

/-- A task that expired did so at its time, and no other change came that late. -/
def expiryTimingIsValid (state : TaskState) (updatedAt expiresAt : Instant) : Bool :=
  match state with
  | .failed .expired => updatedAt ≥ expiresAt
  | _ => updatedAt < expiresAt

def TaskSnapshot.restore (codecs : Codecs) (parts : TaskSnapshot) :
    Except TaskValueError TaskSnapshot :=
  match validateRestoredState codecs parts.state with
  | .error e => .error e
  | .ok state =>
    let ttlMillis := (parts.expiresAt - parts.createdAt) / 1000
    if parts.createdAt > parts.updatedAt || ttlMillis = 0
        || ttlMillis > 365 * 24 * 60 * 60 * 1000
        || !(100 ≤ parts.pollIntervalMs && parts.pollIntervalMs ≤ 60000)
        || parts.generation > parts.version
        || (state = .cancelled && !parts.cancellationRequested)
        || !expiryTimingIsValid state parts.updatedAt parts.expiresAt then .error .invalid
    else .ok { parts with state }

def decodeStoredTask (codecs : Codecs) (document : StoredTask) :
    Except RepositoryError StoredTask :=
  if (document.toJson codecs).size > taskDocumentMaxBytes then .error .integrity
  else if validateGraphic document.execution.budget.reservation.text maxReservationRefBytes
      ≠ .ok () then .error .integrity
  else if validateJsonObject document.execution.input maxTaskInputBytes ≠ .ok () then
    .error .integrity
  else if validateGraphic document.snapshot.budget.reservation.text maxReservationRefBytes
      ≠ .ok () then .error .integrity
  else if document.snapshot.generation = 0 || document.snapshot.version = 0 then .error .integrity
  else
    match document.snapshot.restore codecs with
    | .error _ => .error .integrity
    | .ok snapshot =>
      let stored : StoredTask := ⟨snapshot, document.execution⟩
      match validateStoredConsistency codecs stored with
      | .error e => .error e
      | .ok () => .ok stored

/-! ## 3. Round documents -/

/-- A completed round may be written: it is bounded, and nothing is pending. -/
def encodeCompletedRound (round : InputRound) : Except RepositoryError InputRound :=
  if round.toJson.size > inputRoundMaxBytes || !round.isComplete then .error .integrity
  else .ok round

def responsesOf (round : InputRound) : Except RepositoryError (SortedMap InputKey Json) :=
  round.exchanges.traverse fun _ exchange =>
    match exchange.response with
    | none => .error .integrity
    | some response => .ok response

/-- The question of an exchange, built anew. -/
def reopenExchange (codecs : Codecs) (key : InputKey) (exchange : InputExchange) :
    Except TaskValueError InputExchange :=
  match validateGraphic key.text maxInputKeyBytes with
  | .error e => .error e
  | .ok () => InputExchange.pending codecs exchange.request

def decodeCompletedRound (codecs : Codecs) (document : InputRound) :
    Except RepositoryError InputRound :=
  if document.toJson.size > inputRoundMaxBytes then .error .integrity
  else
    match document.exchanges.traverse (reopenExchange codecs) with
    | .error _ => .error .integrity
    | .ok exchanges =>
      match responsesOf document with
      | .error e => .error e
      | .ok responses =>
        match InputRound.new document.number document.requestState exchanges,
            InputResponses.new responses with
        | .ok pending, .ok responses =>
          let restored := pending.apply responses
          if !restored.changed || !restored.complete then .error .integrity
          else .ok restored.round
        | _, _ => .error .integrity

end Omnius.Tasks
