/-
# The idempotency store

One row per identity.  `claim` inserts the row, or locks it and says what it is: a row past its
expiry is TAKEN OVER in place, a live row of another fingerprint is a conflict, a live row of the
same fingerprint is in progress or replays its response.  `complete` writes the response into the
row that matches: fingerprint, in progress, not expired.

What the row does not hold is WHO claimed it.  The model keeps that beside the row, in a history
of every call and its result, and `period` reads off the history which call began the row's
current claim period and what completed it.

A call is one transaction, so it is one step; each SQL statement reads the database clock once.
Instants and lifetimes are in microseconds, the resolution of the column.

Translated from `crates/idempotency/src/lib.rs`.
-/
import Omnius.Lib.Machine

namespace Omnius.Idempotency

open Omnius.Lib

/-! ## 1. Values -/

/-- A SHA-256 digest of the canonical request. -/
structure RequestFingerprint where
  bytes : List UInt8
  length_eq : bytes.length = 32
deriving DecidableEq

def RequestFingerprint.fromDigest (digest : List UInt8) : Option RequestFingerprint :=
  if h : digest.length = 32 then some ⟨digest, h⟩ else none

inductive SafeResponseError where
  | invalidStatus | invalidContentType | bodyTooLarge

def maxContentTypeBytes : Nat := 255

def maxResponseBytes : Nat := 2 * 1024 * 1024

/-- Printable ASCII without a blank at either end, which is what `trim` and the byte range leave. -/
def contentTypeIsValid (value : String) : Bool :=
  !value.isEmpty && value.utf8ByteSize ≤ maxContentTypeBytes
    && value.toList.head? ≠ some ' ' && value.toList.getLast? ≠ some ' '
    && value.toList.all fun c => 0x20 ≤ c.toNat && c.toNat ≤ 0x7e

def validateResponse (status : Nat) (contentType : Option String) (body : List UInt8) :
    Except SafeResponseError Unit :=
  if !(100 ≤ status && status ≤ 599) then .error .invalidStatus
  else if contentType.any fun value => !contentTypeIsValid value then .error .invalidContentType
  else if body.length > maxResponseBytes then .error .bodyTooLarge
  else .ok ()

/-- A response that may be replayed. -/
structure SafeResponse where
  status : Nat
  contentType : Option String
  body : List UInt8
  valid : validateResponse status contentType body = .ok ()

def SafeResponse.new (status : Nat) (contentType : Option String) (body : List UInt8) :
    Except SafeResponseError SafeResponse :=
  match h : validateResponse status contentType body with
  | .error e => .error e
  | .ok () => .ok ⟨status, contentType, body, h⟩

structure IdempotencyConfig where
  enabled : Bool
  (ttl maxResponseBytes : Nat)

inductive IdempotencyConfigError where
  | invalidTtl | invalidResponseBound

def minTtl : Nat := 1000000

def maxTtl : Nat := 720 * 60 * 60 * 1000000

def IdempotencyConfig.validate (config : IdempotencyConfig) : Except IdempotencyConfigError Unit :=
  if config.ttl < minTtl || config.ttl > maxTtl then .error .invalidTtl
  else if config.maxResponseBytes = 0
      || config.maxResponseBytes > Idempotency.maxResponseBytes then .error .invalidResponseBound
  else .ok ()

structure PostgresIdempotencyStore where
  config : IdempotencyConfig
  valid : config.validate = .ok ()

/-! ## 2. The row -/

inductive RecordStatus where
  | inProgress | completed
deriving DecidableEq

structure Record where
  requestHash : List UInt8
  status : RecordStatus
  responseStatus : Option Nat
  responseContentType : Option String
  responseBody : Option (List UInt8)
  expiresAt : Nat
  completedAt : Option Nat

def Record.isCleanInProgress (record : Record) : Bool :=
  record.responseStatus.isNone && record.responseContentType.isNone
    && record.responseBody.isNone && record.completedAt.isNone

inductive IdempotencyStoreError where
  | conflict | claimLost | claimExpired | responseTooLarge | corruptData

inductive ClaimOutcome where
  | started
  | replay (response : SafeResponse)
  | inProgress

/-- A new claim: the row an insertion writes, and the row a takeover leaves. -/
def Record.claimed (fingerprint : RequestFingerprint) (expiresAt : Nat) : Record where
  requestHash := fingerprint.bytes
  status := .inProgress
  responseStatus := none
  responseContentType := none
  responseBody := none
  expiresAt := expiresAt
  completedAt := none

def Record.complete (record : Record) (response : SafeResponse) (now : Nat) : Record :=
  { record with
    status := .completed
    responseStatus := some response.status
    responseContentType := response.contentType
    responseBody := some response.body
    completedAt := some now }

def restoreResponse (record : Record) (configuredMax : Nat) :
    Except IdempotencyStoreError SafeResponse :=
  match record.responseStatus, record.responseBody with
  | some status, some body =>
    if record.completedAt.isNone || body.length > configuredMax then .error .corruptData
    else
      match SafeResponse.new status record.responseContentType body with
      | .error _ => .error .corruptData
      | .ok response => .ok response
  | _, _ => .error .corruptData

/-! ## 3. Claim and complete -/

/-- What the statements of one call read from the database clock. -/
structure ClaimClock where
  (insertedAt lockedAt reclaimedAt : Nat)

structure CompleteClock where
  (updatedAt lockedAt : Nat)

/-- What a live row says to a claim. -/
def classify (store : PostgresIdempotencyStore) (existing : Record)
    (fingerprint : RequestFingerprint) : Except IdempotencyStoreError ClaimOutcome :=
  match RequestFingerprint.fromDigest existing.requestHash with
  | none => .error .corruptData
  | some stored =>
    if stored ≠ fingerprint then .error .conflict
    else
      match existing.status with
      | .inProgress =>
        if existing.isCleanInProgress then .ok .inProgress else .error .corruptData
      | .completed =>
        match restoreResponse existing store.config.maxResponseBytes with
        | .error e => .error e
        | .ok response => .ok (.replay response)

def claimInner (store : PostgresIdempotencyStore) (row : Option Record)
    (fingerprint : RequestFingerprint) (clock : ClaimClock) :
    Except IdempotencyStoreError ClaimOutcome × Option Record :=
  if !store.config.enabled then (.ok .started, row)
  else
    match row with
    | none => (.ok .started, some (.claimed fingerprint (clock.insertedAt + store.config.ttl)))
    | some existing =>
      if existing.expiresAt ≤ clock.lockedAt then
        -- the takeover looks at the clock again
        if existing.expiresAt ≤ clock.reclaimedAt then
          (.ok .started, some (.claimed fingerprint (clock.reclaimedAt + store.config.ttl)))
        else (.error .claimLost, row)
      else (classify store existing fingerprint, row)

/-- Why the update of a completion found no row. -/
def completionRefusal (row : Option Record) (fingerprint : RequestFingerprint) (now : Nat) :
    IdempotencyStoreError :=
  match row with
  | none => .claimLost
  | some existing =>
    if existing.expiresAt ≤ now then .claimExpired
    else
      match RequestFingerprint.fromDigest existing.requestHash with
      | none => .corruptData
      | some stored => if stored ≠ fingerprint then .conflict else .claimLost

/-- The condition of the completing update. -/
def Record.completable (record : Record) (fingerprint : RequestFingerprint) (now : Nat) : Bool :=
  record.requestHash = fingerprint.bytes && record.status = .inProgress && record.expiresAt > now

def completeInner (store : PostgresIdempotencyStore) (row : Option Record)
    (fingerprint : RequestFingerprint) (response : SafeResponse) (clock : CompleteClock) :
    Except IdempotencyStoreError Unit × Option Record :=
  if !store.config.enabled then (.ok (), row)
  else if response.body.length > store.config.maxResponseBytes then (.error .responseTooLarge, row)
  else
    match row.filter fun record => record.completable fingerprint clock.updatedAt with
    | some record => (.ok (), some (record.complete response clock.updatedAt))
    | none => (.error (completionRefusal row fingerprint clock.lockedAt), row)

/-! ## 4. Histories -/

inductive Event where
  | claimed (caller : Nat) (fingerprint : RequestFingerprint) (ttl : Nat) (clock : ClaimClock)
      (outcome : Except IdempotencyStoreError ClaimOutcome)
  | completed (caller : Nat) (fingerprint : RequestFingerprint) (response : SafeResponse)
      (clock : CompleteClock) (result : Except IdempotencyStoreError Unit)

/-- A claim period: the call that began it, and the completion it got. -/
structure Period where
  caller : Nat
  fingerprint : RequestFingerprint
  expiresAt : Nat
  completion : Option (SafeResponse × Nat)

/-- The current claim period, from the history of calls, the LATEST call first.  It is begun by the
latest `Started`; the clock that counts is that of the statement which wrote the row. -/
def period : List Event → Option Period
  | [] => none
  | .claimed caller fingerprint ttl clock (.ok .started) :: past =>
    let writtenAt := if (period past).isNone then clock.insertedAt else clock.reclaimedAt
    some ⟨caller, fingerprint, writtenAt + ttl, none⟩
  | .completed _ _ response clock (.ok ()) :: past =>
    (period past).map fun p => { p with completion := some (response, clock.updatedAt) }
  | _ :: past => period past

/-- The caller of the latest `Started` for a fingerprint. -/
def lastStarted (fingerprint : RequestFingerprint) : List Event → Option Nat
  | [] => none
  | .claimed caller claimed _ _ (.ok .started) :: past =>
    if claimed = fingerprint then some caller else lastStarted fingerprint past
  | _ :: past => lastStarted fingerprint past

structure World where
  row : Option Record
  history : List Event

inductive Action where
  | claim (caller : Nat) (store : PostgresIdempotencyStore) (fingerprint : RequestFingerprint)
      (clock : ClaimClock)
  | complete (caller : Nat) (store : PostgresIdempotencyStore) (fingerprint : RequestFingerprint)
      (response : SafeResponse) (clock : CompleteClock)

def World.act (w : World) : Action → World
  | .claim caller store fingerprint clock =>
    let (outcome, row) := claimInner store w.row fingerprint clock
    ⟨row, .claimed caller fingerprint store.config.ttl clock outcome :: w.history⟩
  | .complete caller store fingerprint response clock =>
    let (result, row) := completeInner store w.row fingerprint response clock
    ⟨row, .completed caller fingerprint response clock result :: w.history⟩

/-- The store of one identity: any number of callers, in any order, at any clock. -/
def machine : Machine World Action where
  start := ⟨none, []⟩
  step w a := some (w.act a)

def Action.store : Action → PostgresIdempotencyStore
  | .claim _ store _ _ => store
  | .complete _ store _ _ _ => store

end Omnius.Idempotency
