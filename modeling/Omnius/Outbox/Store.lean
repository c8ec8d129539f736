/-
# The transactional outbox: its rows, its statements and the machine of all relays

An event is APPENDED in the producer's transaction, CLAIMED by a relay that writes a lease into its
row, and then MARKED published or failed by whoever presents the lease's token in time.  A
CLEANUP deletes rows that are published, or out of attempts, and old enough.  Nothing but the row
connects two calls: a relay may stall for any time between its claim and its mark.

Every statement is atomic and reads the database clock more than once, first in its conditions and
then in what it writes.  A statement therefore carries TWO readings, `checkedAt ≤ stampedAt`; the
conditions of the claim and of the cleanup only become true with time, so the last of their
readings stands for all of them.  `SKIP LOCKED` passes over rows that other transactions hold:
which ones, the caller of the model chooses.

Instants are microseconds of the database clock, durations nanoseconds as in `Duration`.

Translated from `crates/outbox/src/lib.rs`.
-/
import Mathlib.Data.List.Sort
import Omnius.Lib.Machine
import Omnius.Lib.Attempt

namespace Omnius.Outbox

open Omnius.Lib

/-! ## 1. The configuration -/

inductive OutboxConfigError where
  | invalidLeaseOwner | invalidClaimBatch | invalidPollInterval | invalidLeaseDuration
  | invalidPublicationTimeout | invalidRetryDelay | invalidShutdownTimeout | invalidMaxAttempts
  | invalidRetention | invalidCleanupBatch | invalidRestartPolicy
deriving DecidableEq

def second : Nat := 1000000000
def hour : Nat := 3600 * second

def maxClaimBatch : Nat := 32
def maxCleanupBatch : Nat := 1000
def maxAttemptsBound : Nat := 100
def maxPollInterval : Nat := 60 * second
def maxLeaseDuration : Nat := hour
def maxPublicationTimeout : Nat := 600 * second
def maxRetryDelay : Nat := 24 * hour
def maxShutdownTimeout : Nat := hour
def minRetention : Nat := hour
def maxRetention : Nat := 8760 * hour
def maxRestarts : Nat := 32
def maxRestartBackoff : Nat := 60 * second
def maxJitterPercent : Nat := 50

structure OutboxRestartConfig where
  (maxRestarts initialBackoff maxBackoff jitterPercent : Nat)

structure OutboxConfig where
  leaseOwner : List Char
  (claimBatch pollInterval leaseDuration publicationTimeout retryDelay shutdownTimeout : Nat)
  (maxAttempts retention cleanupBatch : Nat)
  restart : OutboxRestartConfig

/-- One of the three marks every portable text allows. -/
def isMark (c : Char) : Bool := c = '_' || c = '.' || c = '-'

/-- The length limit counts bytes; the texts that pass have one byte a character. -/
def portableOwner : List Char → Bool
  | [] => false
  | c :: rest =>
    rest.length + 1 ≤ 128 && c.isAlphanum && (c :: rest).all fun c => c.isAlphanum || isMark c

def portableLower (max : Nat) : List Char → Bool
  | [] => false
  | c :: rest =>
    rest.length + 1 ≤ max && (c.isLower || c.isDigit)
      && (c :: rest).all fun c => c.isLower || c.isDigit || isMark c

/-- How long a relay may need for one batch. -/
def OutboxConfig.batchWindow (config : OutboxConfig) : Nat :=
  config.publicationTimeout * config.claimBatch + second

/-- The multiplication and the addition of the batch window are checked in the code; the bounds
tested before it keep them far from the limit. -/
def OutboxConfig.validate (config : OutboxConfig) : Except OutboxConfigError Unit := do
  if !portableOwner config.leaseOwner then .error .invalidLeaseOwner
  if config.claimBatch < 1 || maxClaimBatch < config.claimBatch then .error .invalidClaimBatch
  if config.pollInterval = 0 || maxPollInterval < config.pollInterval then
    .error .invalidPollInterval
  if config.publicationTimeout = 0 || maxPublicationTimeout < config.publicationTimeout then
    .error .invalidPublicationTimeout
  if config.retryDelay = 0 || maxRetryDelay < config.retryDelay then .error .invalidRetryDelay
  if config.leaseDuration < config.batchWindow || maxLeaseDuration < config.leaseDuration then
    .error .invalidLeaseDuration
  if config.shutdownTimeout < config.batchWindow
      || maxShutdownTimeout < config.shutdownTimeout then
    .error .invalidShutdownTimeout
  if config.maxAttempts < 1 || maxAttemptsBound < config.maxAttempts then
    .error .invalidMaxAttempts
  if config.retention < minRetention || maxRetention < config.retention then
    .error .invalidRetention
  if config.cleanupBatch < 1 || maxCleanupBatch < config.cleanupBatch then
    .error .invalidCleanupBatch
  if config.restart.maxRestarts < 1 || maxRestarts < config.restart.maxRestarts
      || config.restart.initialBackoff = 0
      || config.restart.maxBackoff < config.restart.initialBackoff
      || maxRestartBackoff < config.restart.maxBackoff
      || maxJitterPercent < config.restart.jitterPercent then
    .error .invalidRestartPolicy

def durationMicros (duration : Nat) : Nat := duration / 1000

/-! ## 2. The rows -/

/-- A class that passed `portableLower` with 64 bytes. -/
abbrev FailureClass := { value : List Char // portableLower 64 value = true }

def FailureClass.timeout : FailureClass := ⟨"timeout".toList, by decide⟩

/-- The three lease columns; they are all set or all `NULL`. -/
structure Lease where
  owner : List Char
  (token expiresAt : Nat)

structure OutboxEvent where
  /-- Which append wrote the row.  Not a column: it tells a row from a later one with its `id`. -/
  (serial id occurredAt availableAt attemptCount : Nat)
  lease : Option Lease
  publishedAt : Option Nat
  lastErrorClass : Option FailureClass

inductive OutboxError where
  | invalidRetryDelay | lostLease | database

section

variable (row : OutboxEvent)

/-- The condition of the claim on one row. -/
def OutboxEvent.claimable (config : OutboxConfig) (now : Nat) : Bool :=
  row.publishedAt.isNone && row.availableAt ≤ now && row.attemptCount < config.maxAttempts
    && row.lease.all fun lease => lease.expiresAt ≤ now

/-- The condition of both marks on one row. -/
def OutboxEvent.heldBy (token now : Nat) : Bool :=
  row.publishedAt.isNone && row.lease.any fun lease => lease.token = token && now < lease.expiresAt

/-- The age that the cleanup compares with the retention. -/
def OutboxEvent.agedFrom : Nat := row.publishedAt.getD row.availableAt

/-- The condition of the cleanup on one row. -/
def OutboxEvent.removable (config : OutboxConfig) (now : Nat) : Bool :=
  (row.lease.all fun lease => lease.expiresAt ≤ now)
    && (row.publishedAt.isSome || config.maxAttempts ≤ row.attemptCount)
    && row.agedFrom + durationMicros config.retention < now

def OutboxEvent.granted (lease : Lease) : OutboxEvent :=
  { row with lease := some lease, attemptCount := row.attemptCount + 1 }

def OutboxEvent.published (now : Nat) : OutboxEvent :=
  { row with publishedAt := some now, lease := none, lastErrorClass := none }

def OutboxEvent.failed (failure : FailureClass) (availableAt : Nat) :
    OutboxEvent :=
  { row with lastErrorClass := some failure, availableAt, lease := none }

end

/-! ## 3. The statements -/

/-- `ORDER BY available_at, occurred_at, id`. -/
def OutboxEvent.claimedBefore (a b : OutboxEvent) : Prop :=
  a.availableAt < b.availableAt ∨ (a.availableAt = b.availableAt ∧
    (a.occurredAt < b.occurredAt ∨ (a.occurredAt = b.occurredAt ∧ a.id ≤ b.id)))

instance : DecidableRel OutboxEvent.claimedBefore := fun _ _ =>
  inferInstanceAs (Decidable (_ ∨ (_ ∧ (_ ∨ (_ ∧ _)))))

/-- `ORDER BY COALESCE(published_at, available_at), id`. -/
def OutboxEvent.removedBefore (a b : OutboxEvent) : Prop :=
  a.agedFrom < b.agedFrom ∨ (a.agedFrom = b.agedFrom ∧ a.id ≤ b.id)

instance : DecidableRel OutboxEvent.removedBefore := fun _ _ =>
  inferInstanceAs (Decidable (_ ∨ (_ ∧ _)))

/-- The two readings of a statement, and the rows other transactions hold while it runs. -/
structure Moment where
  (checkedAt stampedAt : Nat)
  locked : List Nat

/-- An insertion, refused by the primary key. -/
def append (rows : List OutboxEvent) (serial id occurredAt availableAt : Nat) :
    Except OutboxError (List OutboxEvent) :=
  if rows.any (·.id = id) then .error .database
  else .ok (rows ++ [{ serial, id, occurredAt, availableAt, attemptCount := 0, lease := none,
                       publishedAt := none, lastErrorClass := none }])

section

variable (config : OutboxConfig)

/-- The rows a claim takes, in its order. -/
def claimCandidates (rows : List OutboxEvent) (moment : Moment) :
    List OutboxEvent :=
  ((rows.filter fun row =>
    row.claimable config moment.checkedAt && !moment.locked.contains row.id).insertionSort
      OutboxEvent.claimedBefore).take config.claimBatch

/-- The lease that the claim writes into the row `id`: the token with the row's ordinal. -/
def suppliedLease (candidates : List OutboxEvent) (tokens : List Nat)
    (stampedAt id : Nat) : Option Lease :=
  (((candidates.map (·.id)).zip tokens).find? (·.1 = id)).map fun (_, token) =>
    ⟨config.leaseOwner, token, stampedAt + durationMicros config.leaseDuration⟩

/-- The claim: the rows after it, and the claimed ones as the statement returns them. -/
def claim (rows : List OutboxEvent) (tokens : List Nat) (moment : Moment) :
    List OutboxEvent × List OutboxEvent :=
  let candidates := claimCandidates config rows moment
  let lease := suppliedLease config candidates tokens moment.stampedAt
  (rows.map fun row => (lease row.id).elim row row.granted,
   candidates.filterMap fun row => (lease row.id).map row.granted)

end

/-- An `UPDATE`: the rows after it, and how many it changed. -/
def updateWhere (rows : List OutboxEvent) (condition : OutboxEvent → Bool)
    (change : OutboxEvent → OutboxEvent) : List OutboxEvent × Nat :=
  (rows.map fun row => if condition row then change row else row, rows.countP condition)

def affectedOne (affected : Nat) : Except OutboxError Unit :=
  if affected = 1 then .ok () else .error .lostLease

def markPublished (rows : List OutboxEvent) (id token : Nat) (moment : Moment) :
    List OutboxEvent × Except OutboxError Unit :=
  let (rows, affected) := updateWhere rows
    (fun row => row.id = id && row.heldBy token moment.checkedAt)
    (·.published moment.stampedAt)
  (rows, affectedOne affected)

def markFailed (rows : List OutboxEvent) (id token : Nat) (failure : FailureClass)
    (retryDelay : Nat) (moment : Moment) : List OutboxEvent × Except OutboxError Unit :=
  if retryDelay = 0 || maxRetryDelay < retryDelay then (rows, .error .invalidRetryDelay)
  else
    let (rows, affected) := updateWhere rows
      (fun row => row.id = id && row.heldBy token moment.checkedAt)
      (·.failed failure (moment.stampedAt + durationMicros retryDelay))
    (rows, affectedOne affected)

def cleanupCandidates (config : OutboxConfig) (rows : List OutboxEvent) (moment : Moment) :
    List OutboxEvent :=
  ((rows.filter fun row =>
    row.removable config moment.checkedAt && !moment.locked.contains row.id).insertionSort
      OutboxEvent.removedBefore).take config.cleanupBatch

/-- The cleanup: the rows after it, and the deleted ones. -/
def cleanupRetained (config : OutboxConfig) (rows : List OutboxEvent) (moment : Moment) :
    List OutboxEvent × List OutboxEvent :=
  let candidates := cleanupCandidates config rows moment
  (rows.filter fun row => !(candidates.map (·.id)).contains row.id, candidates)

/-! ## 4. The machine

Any caller may make any call at any time with any token, its own or a stale one.  What a call did is
kept in a history, newest event first. -/

structure Grant where
  token : Nat
  /-- The reading at which the row was found claimable. -/
  checkedAt : Nat
  /-- The reading the expiry is counted from: the time of the claim. -/
  (grantedAt expiresAt : Nat)
deriving DecidableEq

inductive Event where
  | granted (grant : Grant)
  | published (token checkedAt publishedAt : Nat)
  | failed (token checkedAt availableAt : Nat)
  | deleted (checkedAt : Nat)
deriving DecidableEq

structure World where
  rows : List OutboxEvent
  /-- The last reading of the database clock. -/
  clock : Nat
  /-- The serial of the next append. -/
  appends : Nat
  /-- Each event with the serial of its row. -/
  history : List (Nat × Event)

inductive Action where
  | append (id occurredAt availableAt : Nat)
  | claim (tokens : List Nat) (moment : Moment)
  | markPublished (id token : Nat) (moment : Moment)
  | markFailed (id token : Nat) (failure : FailureClass) (retryDelay : Nat) (moment : Moment)
  | cleanupRetained (moment : Moment)

namespace World

/-- The entries of a call in the history: for each row, what happened to it, if anything. -/
def records (rows : List OutboxEvent) (event : OutboxEvent → Option Event) : List (Nat × Event) :=
  rows.filterMap fun row => (event row).map (row.serial, ·)

def append (w : World) (id occurredAt availableAt : Nat) : World :=
  match Outbox.append w.rows w.appends id occurredAt availableAt with
  | .error _ => w
  | .ok rows => { w with rows, appends := w.appends + 1 }

/-- What a relay was handed with a returned row. -/
def grantOf (moment : Moment) (row : OutboxEvent) : Option Event :=
  row.lease.map fun lease =>
    .granted ⟨lease.token, moment.checkedAt, moment.stampedAt, lease.expiresAt⟩

def claim (config : OutboxConfig) (w : World) (tokens : List Nat) (moment : Moment) : World :=
  let (rows, claimed) := Outbox.claim config w.rows tokens moment
  { w with
    rows
    clock := moment.stampedAt
    history := records claimed (grantOf moment) ++ w.history }

/-- A mark: recorded for the rows with its `id` when it answers `ok`. -/
def mark (w : World) (id : Nat) (moment : Moment) (event : Event)
    (result : List OutboxEvent × Except OutboxError Unit) : World :=
  { w with
    rows := result.1
    clock := moment.stampedAt
    history := match result.2 with
      | .ok _ => records (w.rows.filter (·.id = id)) (fun _ => some event) ++ w.history
      | .error _ => w.history }

def cleanupRetained (config : OutboxConfig) (w : World) (moment : Moment) : World :=
  let (rows, deleted) := Outbox.cleanupRetained config w.rows moment
  { w with
    rows
    clock := moment.stampedAt
    history := records deleted (fun _ => some (.deleted moment.checkedAt)) ++ w.history }

/-- The clock does not run backwards. -/
def admits (w : World) (moment : Moment) : Bool :=
  w.clock ≤ moment.checkedAt && moment.checkedAt ≤ moment.stampedAt

def next (config : OutboxConfig) (w : World) : Action → Option World
  | .append id occurredAt availableAt => some (w.append id occurredAt availableAt)
  | .claim tokens moment => if w.admits moment then some (w.claim config tokens moment) else none
  | .markPublished id token moment =>
    if w.admits moment then
      some (w.mark id moment (.published token moment.checkedAt moment.stampedAt)
        (Outbox.markPublished w.rows id token moment))
    else none
  | .markFailed id token failure retryDelay moment =>
    if w.admits moment then
      some (w.mark id moment
        (.failed token moment.checkedAt (moment.stampedAt + durationMicros retryDelay))
        (Outbox.markFailed w.rows id token failure retryDelay moment))
    else none
  | .cleanupRetained moment =>
    if w.admits moment then some (w.cleanupRetained config moment) else none

end World

/-- Every number of producers and relays on an outbox that starts empty. -/
def machine (config : OutboxConfig) : Machine World Action where
  start := ⟨[], 0, 0, []⟩
  step := World.next config

/-- What happened to one row, newest first. -/
def taleOf (serial : Nat) (history : List (Nat × Event)) : List Event :=
  (history.filter (·.1 = serial)).map (·.2)

end Omnius.Outbox
