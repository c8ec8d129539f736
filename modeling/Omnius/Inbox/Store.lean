/-
# The transactional inbox: one producer/event identity and its receipt

A consumer CLAIMS a delivery by inserting the receipt of its identity, applies its business effect
and COMPLETES the claim; it may instead RELEASE it, which deletes the receipt.  `resume_with` makes
another claim value for a receipt that is still uncompleted, so several values for one receipt can
exist at a time, also in transactions that have long ended.

Every call runs in the caller's transaction.  The receipt's row is locked by the first statement
that writes or locks it and stays locked to the end of the transaction (`Locked`).  Calls that need
a second statement to classify what they found are two steps: in between other transactions run.
A statement waits for the holder only when it finds a committed row it would write or lock; the
`INSERT … ON CONFLICT DO NOTHING` waits for a transaction that has CHANGED the row but not for one
that only locked it.

`generation` is not a column: it numbers the receipts that were ever inserted under the identity, so
that a receipt can be told from the one that replaced it.

Translated from `crates/inbox/src/lib.rs`.
-/
import Mathlib.Algebra.Ring.Nat
import Omnius.Lib.Machine
import Omnius.Lib.RowLock

namespace Omnius.Inbox

open Omnius.Lib

/-! ## 1. Deliveries -/

/-- An identifier of 128 bits. -/
abbrev Uuid := Nat

/-- The version is the high half of the seventh byte. -/
def Uuid.versionNum (uuid : Uuid) : Nat := uuid / 2 ^ 76 % 16

/-- The immutable fields of a delivery, apart from its identity. -/
structure Immutable where
  eventType : List Char
  eventVersion : Nat
  tenantId : Option Uuid
  correlationId : Uuid
  causationId : Option Uuid
  payloadSha256 : List UInt8
deriving DecidableEq

/-- `ExistingReceipt::is_well_formed`, on the fields it reads. -/
def Immutable.isWellFormed (fields : Immutable) : Bool :=
  0 < fields.eventVersion && fields.payloadSha256.length = 32
    && fields.correlationId.versionNum = 7
    && fields.causationId.all (fun value => value.versionNum = 7)
    && fields.tenantId.all (fun value => value.versionNum = 7)

/-- The largest version PostgreSQL can hold. -/
def maxVersion : Nat := 32767

/-- A delivery that passed `InboxEvent::new`. -/
structure InboxEvent where
  fields : Immutable
  /-- Milliseconds. -/
  retention : Nat
  wellFormed : fields.isWellFormed = true
  versionFits : fields.eventVersion ≤ maxVersion
  retained : 1000 ≤ retention

inductive InboxStoreError where
  | corruptInput | claimLost | invalidProcessedAt | corruptData

/-! ## 2. The receipt -/

structure Receipt where
  generation : Nat
  fields : Immutable
  receivedAt : Nat
  processedAt : Option Nat
  expiresAt : Nat

/-- What proves the ownership of an uncompleted receipt. -/
structure ClaimedInboxEvent where
  generation : Nat
  event : InboxEvent
  receivedAt : Nat

inductive ClaimOutcome where
  | claimed | duplicate | inProgress | conflict

/-- The version as a `smallint`. -/
def InboxEvent.databaseVersion (event : InboxEvent) : Except InboxStoreError Nat :=
  if event.fields.eventVersion ≤ maxVersion then .ok event.fields.eventVersion
  else .error .corruptInput

/-- The row that the first statement of `claim_inner` inserts; it reads the clock twice. -/
def InboxEvent.receipt (event : InboxEvent) (generation receivedAt stampedAt : Nat) : Receipt where
  generation := generation
  fields := event.fields
  receivedAt := receivedAt
  processedAt := none
  expiresAt := stampedAt + event.retention * 1000

/-- The second half of `claim_inner`, on the receipt it locked. -/
def classifyExisting (existing : Option Receipt) (event : InboxEvent) :
    Except InboxStoreError ClaimOutcome :=
  match existing with
  | none => .error .claimLost
  | some existing =>
    if !existing.fields.isWellFormed then .error .corruptData
    else if existing.fields ≠ event.fields then .ok .conflict
    else if existing.processedAt.isSome then .ok .duplicate
    else .ok .inProgress

/-- The condition of the fenced update and of the fenced deletion. -/
def ClaimedInboxEvent.owns (claim : ClaimedInboxEvent) (receipt : Receipt) : Bool :=
  receipt.receivedAt = claim.receivedAt && receipt.fields = claim.event.fields
    && receipt.processedAt.isNone

/-- What `complete_inner` and `release_inner` answer when they changed no row. -/
def classifyLost (existing : Option Receipt) (claim : ClaimedInboxEvent) : InboxStoreError :=
  match existing with
  | none => .claimLost
  | some existing =>
    if existing.fields.isWellFormed && existing.receivedAt = claim.receivedAt
        && existing.fields = claim.event.fields then .claimLost
    else .corruptData

/-- `resume_inner`, on the receipt it locked. -/
def resumeExisting (existing : Option Receipt) (event : InboxEvent) :
    Except InboxStoreError ClaimedInboxEvent :=
  match existing with
  | none => .error .claimLost
  | some existing =>
    if !existing.fields.isWellFormed || existing.fields ≠ event.fields then .error .corruptData
    else if existing.processedAt.isSome then .error .claimLost
    else .ok ⟨existing.generation, event, existing.receivedAt⟩

def Receipt.expired (receipt : Receipt) (now : Nat) : Bool :=
  receipt.processedAt.isSome && receipt.expiresAt ≤ now

/-! ## 3. The machine -/

/-- What a statement did to the receipt. -/
inductive Effect where
  | inserted (generation : Nat)
  | completed (generation : Nat)
  | released (generation : Nat)
  | cleaned (receipt : Receipt)

/-- A call that has run its first statement and still has to classify what it found. -/
inductive Call where
  | claim (event : InboxEvent)
  | complete (claim : ClaimedInboxEvent) (processedAt : Nat)
  | release (claim : ClaimedInboxEvent)

/-- A call that has returned: what its deciding statement saw, and what it answered. -/
inductive Answer where
  | claim (event : InboxEvent) (seen : Option Receipt)
      (outcome : Except InboxStoreError ClaimOutcome)
  | resume (event : InboxEvent) (seen : Option Receipt)
      (outcome : Except InboxStoreError ClaimedInboxEvent)
  | complete (claim : ClaimedInboxEvent) (processedAt : Nat) (seen : Option Receipt)
      (outcome : Except InboxStoreError Unit)
  | release (claim : ClaimedInboxEvent) (seen : Option Receipt)
      (outcome : Except InboxStoreError Unit)

structure World where
  receipt : Locked (Option Receipt) Effect
  /-- The receipts ever inserted, committed or not: when, and for which delivery. -/
  births : List (Nat × Immutable)
  /-- The claim values handed out, by transactions that are running or have ended. -/
  claims : List ClaimedInboxEvent
  /-- The transactions inside a call. -/
  calls : List (Nat × Call)
  /-- The last reading of the database clock. -/
  clock : Nat
  /-- Newest first. -/
  answers : List Answer

/-- A statement of the transaction `txn`, or its end. -/
inductive Action where
  | claim (txn : Nat) (event : InboxEvent) (receivedAt stampedAt : Nat)
  | resume (txn : Nat) (event : InboxEvent)
  | complete (txn claim processedAt : Nat)
  | release (txn claim : Nat)
  | classify (txn : Nat)
  | cleanup (txn now : Nat)
  | commit (txn : Nat)
  | rollback (txn : Nat)

namespace World

def idle (w : World) (txn : Nat) : Bool := w.calls.all (·.1 ≠ txn)

/-- The insertion finds the row committed and only locked by others, or can have it. -/
def insertable (w : World) (txn : Nat) : Bool :=
  w.receipt.free txn || w.receipt.holder.all (·.effects.isEmpty)

/-- There is no committed row to wait for, or the transaction can have it. -/
def lockable (w : World) (txn : Nat) : Bool :=
  w.receipt.free txn || (w.receipt.view txn).isNone

/-- The fenced statements wait only for a row that meets their condition. -/
def fenceable (w : World) (txn : Nat) (claim : ClaimedInboxEvent) : Bool :=
  w.receipt.free txn || ((w.receipt.view txn).filter claim.owns).isNone

def answer (w : World) (answer : Answer) : World := { w with answers := answer :: w.answers }

/-- `SELECT … FOR UPDATE`: an existing row is locked. -/
def lock (w : World) (txn : Nat) : World :=
  match w.receipt.view txn with
  | none => w
  | some row => { w with receipt := w.receipt.write txn (some row) [] }

def claim (w : World) (txn : Nat) (event : InboxEvent) (receivedAt stampedAt : Nat) : World :=
  match event.databaseVersion with
  | .error error => w.answer (.claim event (w.receipt.view txn) (.error error))
  | .ok _ =>
    match w.receipt.view txn with
    | some _ => { w with calls := (txn, .claim event) :: w.calls }
    | none =>
      let generation := w.births.length
      { w with
        receipt := w.receipt.write txn (some (event.receipt generation receivedAt stampedAt))
          [.inserted generation]
        births := w.births ++ [(receivedAt, event.fields)]
        claims := w.claims ++ [⟨generation, event, receivedAt⟩]
        clock := stampedAt
        answers := .claim event none (.ok .claimed) :: w.answers }

def resume (w : World) (txn : Nat) (event : InboxEvent) : World :=
  let existing := w.receipt.view txn
  let result := resumeExisting existing event
  { (w.lock txn).answer (.resume event existing result) with
    claims := w.claims ++ result.toOption.toList }

def complete (w : World) (txn : Nat) (claim : ClaimedInboxEvent) (processedAt : Nat) : World :=
  if processedAt < claim.receivedAt then
    w.answer (.complete claim processedAt (w.receipt.view txn) (.error .invalidProcessedAt))
  else match claim.event.databaseVersion with
    | .error error => w.answer (.complete claim processedAt (w.receipt.view txn) (.error error))
    | .ok _ =>
      match (w.receipt.view txn).filter claim.owns with
      | none => { w with calls := (txn, .complete claim processedAt) :: w.calls }
      | some row =>
        { w.answer (.complete claim processedAt (some row) (.ok ())) with
          receipt := w.receipt.write txn (some { row with processedAt := some processedAt })
            [.completed row.generation] }

def release (w : World) (txn : Nat) (claim : ClaimedInboxEvent) : World :=
  match claim.event.databaseVersion with
  | .error error => w.answer (.release claim (w.receipt.view txn) (.error error))
  | .ok _ =>
    match (w.receipt.view txn).filter claim.owns with
    | none => { w with calls := (txn, .release claim) :: w.calls }
    | some row =>
      { w.answer (.release claim (some row) (.ok ())) with
        receipt := w.receipt.write txn none [.released row.generation] }

/-- The answer of the second statement. -/
def classified (existing : Option Receipt) : Call → Answer
  | .claim event => .claim event existing (classifyExisting existing event)
  | .complete claim processedAt =>
    .complete claim processedAt existing (.error (classifyLost existing claim))
  | .release claim => .release claim existing (.error (classifyLost existing claim))

def classify (w : World) (txn : Nat) (call : Call) : World :=
  { (w.lock txn).answer (classified (w.receipt.view txn) call) with
    calls := w.calls.filter (·.1 ≠ txn) }

/-- Locked receipts are skipped; a full batch may pass over this one, which is no step. -/
def cleanup (w : World) (txn now : Nat) : World :=
  match (w.receipt.view txn).filter (·.expired now) with
  | none => { w with clock := now }
  | some row => { w with receipt := w.receipt.write txn none [.cleaned row], clock := now }

def next (w : World) : Action → Option World
  | .claim txn event receivedAt stampedAt =>
    if w.idle txn && w.insertable txn && w.clock ≤ receivedAt && receivedAt ≤ stampedAt then
      some (w.claim txn event receivedAt stampedAt)
    else none
  | .resume txn event =>
    if w.idle txn && w.lockable txn then some (w.resume txn event) else none
  | .complete txn index processedAt =>
    (w.claims[index]?).bind fun claim =>
      if w.idle txn && w.fenceable txn claim then some (w.complete txn claim processedAt) else none
  | .release txn index =>
    (w.claims[index]?).bind fun claim =>
      if w.idle txn && w.fenceable txn claim then some (w.release txn claim) else none
  | .classify txn =>
    if w.lockable txn then
      (w.calls.find? (·.1 = txn)).map fun call => w.classify txn call.2
    else none
  | .cleanup txn now =>
    if w.idle txn && w.receipt.free txn && w.clock ≤ now then some (w.cleanup txn now) else none
  | .commit txn =>
    if w.idle txn then some { w with receipt := w.receipt.commit txn } else none
  | .rollback txn =>
    if w.idle txn then some { w with receipt := w.receipt.rollback txn } else none

/-- No receipt, and no consumer at work. -/
def empty : World := ⟨⟨none, [], none⟩, [], [], [], 0, []⟩

end World

/-- Every number of consumers on one identity. -/
def machine : Machine World Action where
  start := .empty
  step := World.next

end Omnius.Inbox
