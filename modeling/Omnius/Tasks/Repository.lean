/-
# The task repository

One row of the task table, its completed rounds, its input keys and its delivery receipts, and the
nine operations of the repository on them.  Each operation is one transaction: it reads the database
clock, decodes the row, and either commits or fails and changes nothing.  An operation that finds
nothing to do (a stale fence, a terminal task) commits without a change.

A request for another task finds no row here, so the operations are about the ONE task of the world.
`persisted` and `leases` are not tables: they record every stored task that was ever written and
every lease that was ever granted, newest first.

Of the constraints of the schema, those are modelled that the operations do not already establish:
a resumption has a new job, and a completed round is filed under the generation that asked for it.

Translated from `crates/mcp-tasks/src/postgres.rs`.
-/
import Omnius.Tasks.Document
import Omnius.Lib.Machine
import Omnius.Lib.Table

namespace Omnius.Tasks

open Omnius.Lib

/-! ## 1. Requests and outcomes -/

/-- The event that asks for one execution of a task. -/
structure ExecutionIntent where
  jobId : JobId
  taskId : TaskId
  generation : Nat
  tenantId : Option String
  correlationId : String
  causationId : Option String

structure CancellationIntent where
  taskId : TaskId
  generation : Nat
  tenantId : Option String
  correlationId : String
  causationId : Option String

structure AtomicCreate where
  task : StoredTask
  executionIntent : ExecutionIntent

inductive CreateOutcome where
  | created (snapshot : TaskSnapshot)
  | existing (snapshot : TaskSnapshot)
  | fingerprintConflict
  /-- The request is in the scope of another task. -/
  | elsewhere

structure AtomicInputUpdate where
  owner : TaskOwner
  taskId : TaskId
  (expectedVersion expectedGeneration expectedRound : Nat)
  responses : InputResponses
  resumeIntent : ExecutionIntent

inductive InputUpdateOutcome where
  | notFound
  | acknowledged (snapshot : TaskSnapshot)
  | resumed (snapshot : TaskSnapshot)

structure AtomicCancellation where
  owner : TaskOwner
  taskId : TaskId
  (expectedVersion expectedGeneration : Nat)
  cancellationIntent : CancellationIntent

inductive CancellationOutcome where
  | notFound
  | stale (snapshot : TaskSnapshot)
  | terminal (snapshot : TaskSnapshot)
  | cancelled (snapshot : TaskSnapshot)
  | signalled (snapshot : TaskSnapshot)
  | alreadyRequested (snapshot : TaskSnapshot)

structure ExecutionClaim where
  taskId : TaskId
  generation : Nat
  jobId : JobId

structure TaskLease where
  task : StoredTask
  version : Nat
  claimedAt : Instant
  inputHistory : List InputRound

inductive ClaimOutcome where
  | leased (lease : TaskLease)
  | inactive | stale | notFound

/-- What names a lease in a request of its holder. -/
structure LeaseRef where
  taskId : TaskId
  (generation expectedVersion : Nat)
  leaseClaimedAt : Instant
  jobId : JobId
deriving DecidableEq

inductive AbandonOutcome where
  | released | cancelled | stale | notFound

structure RequireInput extends LeaseRef where
  round : InputRound

inductive TerminalSettlement where
  | completed (result : CanonicalTaskResult)
  | failed (failure : TaskFailureCode)
  | cancelled

structure SettleExecution extends LeaseRef where
  settlement : TerminalSettlement

inductive SettlementOutcome where
  | applied (snapshot : TaskSnapshot)
  | stale | notFound

/-! ## 2. The tables -/

/-- The columns next to the protected document. -/
structure TaskColumns where
  taskId : TaskId
  owner : TaskOwner
  capability : CapabilityKey
  (idempotencyKeySha256 requestFingerprint : Digest)
  currentJobId : JobId
  (generation version : Nat)
  status : TaskStatus
  cancellationRequested : Bool
  (createdAt updatedAt expiresAt : Instant)
deriving DecidableEq

/-- What a worker must name to write. -/
structure LeaseFence where
  jobId : JobId
  (generation version : Nat)
  (claimedAt expiresAt : Instant)

structure TaskRow where
  columns : TaskColumns
  document : StoredTask
  lease : Option LeaseFence

structure RoundRow where
  (roundNumber completedGeneration taskVersion : Nat)
  document : InputRound

/-- A delivery receipt.  Of its immutable header only the generation can differ between two
deliveries of one job to this task. -/
structure Receipt where
  generation : Nat
  processed : Bool

/-- A lease that was granted, and the claim it answered. -/
structure Grant where
  claim : ExecutionClaim
  lease : TaskLease

structure World where
  row : Option TaskRow
  /-- Completed rounds, in the order of their numbers. -/
  rounds : List RoundRow
  inputKeys : List Digest
  receipts : Table JobId Receipt
  clock : Instant
  persisted : List StoredTask
  leases : List Grant

def World.empty : World := ⟨none, [], [], ∅, 0, [], []⟩

def World.snapshot? (w : World) : Option TaskSnapshot := w.row.map (·.document.snapshot)

def columnsOf (codecs : Codecs) (snapshot : TaskSnapshot) : TaskColumns where
  taskId := snapshot.taskId
  owner := snapshot.owner
  capability := snapshot.capability
  idempotencyKeySha256 := codecs.sha256 snapshot.idempotency.key
  requestFingerprint := snapshot.idempotency.fingerprint
  currentJobId := snapshot.currentJobId
  generation := snapshot.generation
  version := snapshot.version
  status := snapshot.state.status
  cancellationRequested := snapshot.cancellationRequested
  createdAt := snapshot.createdAt
  updatedAt := snapshot.updatedAt
  expiresAt := snapshot.expiresAt

/-! ## 3. Reading and writing the row -/

structure TaskRecord where
  stored : StoredTask
  lease : Option LeaseFence

/-- The lease columns agree with the snapshot. -/
def leaseIsValid (snapshot : TaskSnapshot) (lease : LeaseFence) : Bool :=
  !(lease.claimedAt ≥ lease.expiresAt || lease.jobId ≠ snapshot.currentJobId
    || lease.generation ≠ snapshot.generation || lease.version > snapshot.version)

/-- Only a working task is leased, at its version, or one below it once cancellation is requested;
a request for cancellation without a lease does not stay. -/
def leaseFitsState (snapshot : TaskSnapshot) (lease : Option LeaseFence) : Bool :=
  if snapshot.state = .working then
    match snapshot.cancellationRequested, lease with
    | true, some lease => snapshot.version = lease.version + 1
    | false, some lease => snapshot.version = lease.version
    | false, none => true
    | true, none => false
  else lease.isNone

/-- Refuses a row whose document, columns and lease disagree. -/
def decodeTaskRecord (codecs : Codecs) (row : TaskRow) : Except RepositoryError TaskRecord := do
  let stored ← decodeStoredTask codecs row.document
  if row.columns ≠ columnsOf codecs stored.snapshot then .error .integrity
  else if !(row.lease.all (leaseIsValid stored.snapshot)) then .error .integrity
  else if !leaseFitsState stored.snapshot row.lease then .error .integrity
  else .ok ⟨stored, row.lease⟩

def counterToI64 (value : Nat) : Except RepositoryError Unit :=
  if value < 2 ^ 63 then .ok () else .error .integrity

/-- Writes a new version of the task over the one that was read. -/
def persistTask (codecs : Codecs) (w : World) (row : TaskRow) (stored : StoredTask)
    (expectedVersion : Nat) (lease : Option LeaseFence) : Except RepositoryError World := do
  let document ← encodeStoredTask codecs stored
  counterToI64 stored.snapshot.generation
  counterToI64 stored.snapshot.version
  if row.columns.version ≠ expectedVersion then .error .transactionConflict
  else if stored.snapshot.generation = row.columns.generation + 1
      && stored.snapshot.currentJobId = row.columns.currentJobId then .error .integrity
  else .ok { w with
    row := some {
      columns := { row.columns with
        currentJobId := stored.snapshot.currentJobId
        generation := stored.snapshot.generation
        version := stored.snapshot.version
        status := stored.snapshot.state.status
        cancellationRequested := stored.snapshot.cancellationRequested
        updatedAt := stored.snapshot.updatedAt }
      document
      lease }
    persisted := stored :: w.persisted }

/-- Takes one transition and writes the result. -/
def advance (codecs : Codecs) (w : World) (row : TaskRow) (record : TaskRecord)
    (transition : TaskTransition) (now : Instant) (lease : Option LeaseFence) :
    Except RepositoryError (World × TaskSnapshot) := do
  let snapshot := record.stored.snapshot
  match snapshot.transitioned snapshot.version transition now with
  | .error _ => .error .integrity
  | .ok next =>
    let w ← persistTask codecs w row ⟨next, record.stored.execution⟩ snapshot.version lease
    .ok (w, next)

/-! ## 4. Delivery receipts -/

section

variable (w : World)

/-- The unprocessed receipt of a delivery must be there. -/
def resumeDeliveryReceipt (snapshot : TaskSnapshot) (jobId : JobId) :
    Except RepositoryError Unit :=
  match w.receipts.lookup jobId with
  | none => .error .integrity
  | some receipt =>
    if receipt.generation ≠ snapshot.generation || receipt.processed then .error .integrity
    else .ok ()

/-- Files a receipt; `false` when the delivery has been processed before. -/
def claimDeliveryReceipt (snapshot : TaskSnapshot) (jobId : JobId) :
    Except RepositoryError (World × Bool) :=
  match w.receipts.lookup jobId with
  | none => .ok ({ w with receipts := w.receipts.insert jobId ⟨snapshot.generation, false⟩ }, true)
  | some receipt =>
    if receipt.generation ≠ snapshot.generation then .error .integrity
    else if receipt.processed then .ok (w, false)
    else .error .integrity

def releaseDeliveryReceipt (jobId : JobId) : World :=
  { w with receipts := w.receipts.erase jobId }

variable (snapshot : TaskSnapshot)

def completeDeliveryReceipt (jobId : JobId) : World :=
  { w with receipts := w.receipts.insert jobId ⟨snapshot.generation, true⟩ }

/-- The receipt of the delivery that ends a task: that of its lease, or a new one. -/
def holdDeliveryReceipt (lease : Option LeaseFence)
    (jobId : JobId) : Except RepositoryError (World × Bool) :=
  if lease.isSome then (resumeDeliveryReceipt w snapshot jobId).map fun _ => (w, true)
  else claimDeliveryReceipt w snapshot jobId

def releaseExpiredLease (lease : Option LeaseFence)
    (jobId : JobId) : Except RepositoryError World :=
  if lease.isSome then
    (resumeDeliveryReceipt w snapshot jobId).map fun _ => releaseDeliveryReceipt w jobId
  else .ok w

end

/-- The end of a task whose time is up, and of the delivery that held it. -/
def expireTask (codecs : Codecs) (w : World) (row : TaskRow) (record : TaskRecord)
    (now : Instant) : Except RepositoryError (World × TaskSnapshot) := do
  let snapshot := record.stored.snapshot
  if record.lease.isSome then
    resumeDeliveryReceipt w snapshot snapshot.currentJobId
    let (w, next) ← advance codecs w row record (.fail .expired) now none
    .ok (completeDeliveryReceipt w snapshot snapshot.currentJobId, next)
  else advance codecs w row record (.fail .expired) now none

/-! ## 5. Checks on requests -/

def eventIdentityIsValid (snapshot : TaskSnapshot) (tenantId : Option String)
    (correlationId : String) (causationId : Option String) : Bool :=
  tenantId = snapshot.owner.tenantId && correlationId = snapshot.identity.correlationId
    && causationId = snapshot.identity.causationId

def validateNewTask (codecs : Codecs) (stored : StoredTask) (intent : ExecutionIntent) :
    Except RepositoryError Unit := do
  validateStoredConsistency codecs stored
  let snapshot := stored.snapshot
  if snapshot.generation ≠ 1 || snapshot.version ≠ 1 || snapshot.state ≠ .working
      || snapshot.cancellationRequested || snapshot.createdAt ≠ snapshot.updatedAt then
    .error .integrity
  else if intent.jobId ≠ snapshot.currentJobId || intent.taskId ≠ snapshot.taskId
      || intent.generation ≠ snapshot.generation then .error .integrity
  else if !eventIdentityIsValid snapshot intent.tenantId intent.correlationId
      intent.causationId then .error .integrity
  else .ok ()

def validateResumeIntent (snapshot : TaskSnapshot) (intent : ExecutionIntent) :
    Except RepositoryError Unit :=
  if intent.taskId ≠ snapshot.taskId
      || checkedNext snapshot.generation ≠ some intent.generation then .error .integrity
  else if !eventIdentityIsValid snapshot intent.tenantId intent.correlationId
      intent.causationId then .error .integrity
  else .ok ()

def validateCancellationIntent (snapshot : TaskSnapshot) (intent : CancellationIntent) :
    Except RepositoryError Unit :=
  if intent.taskId ≠ snapshot.taskId || intent.generation ≠ snapshot.generation then
    .error .integrity
  else if !eventIdentityIsValid snapshot intent.tenantId intent.correlationId
      intent.causationId then .error .integrity
  else .ok ()

def validateExistingIdentity (existing requested : TaskSnapshot) : Except RepositoryError Unit :=
  if existing.owner ≠ requested.owner || existing.capability ≠ requested.capability
      || existing.idempotency.key ≠ requested.idempotency.key
      || existing.idempotency.fingerprint ≠ requested.idempotency.fingerprint then
    .error .integrity
  else .ok ()

/-- The keys of a round are new in the lifetime of the task. -/
def validateNewInputKeys (codecs : Codecs) (inputKeys : List Digest) (round : InputRound) :
    Except RepositoryError (List Digest) :=
  round.exchanges.entries.foldlM (fun keys e =>
    let digest := codecs.sha256 e.1.text
    if digest ∈ keys then .error .integrity else .ok (digest :: keys)) inputKeys

/-- Files a completed round under the generation that asked for it. -/
def insertInputHistory (w : World) (next : TaskSnapshot) (completedGeneration : Nat)
    (round : InputRound) : Except RepositoryError World := do
  let document ← encodeCompletedRound round
  counterToI64 round.number
  if completedGeneration ≠ round.number || next.version ≤ completedGeneration
      || w.rounds.any (·.roundNumber = round.number) then .error .integrity
  else .ok { w with rounds := w.rounds ++ [⟨round.number, completedGeneration, next.version,
    document⟩] }

/-- The completed rounds from number `expected` on. -/
def loadRounds (codecs : Codecs) (snapshot : TaskSnapshot) :
    Nat → List RoundRow → Except RepositoryError (List InputRound)
  | _, [] => .ok []
  | expected, row :: rest => do
    if row.roundNumber ≠ expected || row.completedGeneration ≠ expected
        || row.taskVersion > snapshot.version then .error .integrity
    else
      let round ← decodeCompletedRound codecs row.document
      if round.number ≠ expected then .error .integrity
      else
        let others ← loadRounds codecs snapshot (expected + 1) rest
        .ok (round :: others)

def loadInputHistory (codecs : Codecs) (w : World) (snapshot : TaskSnapshot) :
    Except RepositoryError (List InputRound) :=
  if snapshot.generation = 0 || snapshot.generation - 1 ≠ w.rounds.length then .error .integrity
  else loadRounds codecs snapshot 1 w.rounds

/-! ## 6. Operations -/

def executionTimeout : Nat := 3600 * 1000000

/-- Inserts the task, or finds it by its idempotency scope. -/
def createAtomic (codecs : Codecs) (w : World) (now : Instant) (request : AtomicCreate) :
    Except RepositoryError (World × CreateOutcome) := do
  validateNewTask codecs request.task request.executionIntent
  match request.task.snapshot.withAuthoritativeCreationTime now with
  | .error _ => .error .integrity
  | .ok snapshot =>
    match w.row with
    | none =>
      let stored : StoredTask := ⟨snapshot, request.task.execution⟩
      let document ← encodeStoredTask codecs stored
      .ok ({ w with
        row := some ⟨columnsOf codecs snapshot, document, none⟩
        persisted := stored :: w.persisted }, .created snapshot)
    | some row =>
      if row.columns.owner ≠ snapshot.owner || row.columns.capability ≠ snapshot.capability
          || row.columns.idempotencyKeySha256 ≠ codecs.sha256 snapshot.idempotency.key then
        .ok (w, .elsewhere)
      else if row.columns.requestFingerprint ≠ snapshot.idempotency.fingerprint then
        .ok (w, .fingerprintConflict)
      else
        let record ← decodeTaskRecord codecs row
        validateExistingIdentity record.stored.snapshot snapshot
        .ok (w, .existing record.stored.snapshot)

/-- The row of a task, if its owner asks. -/
def World.ownedRow (w : World) (owner : TaskOwner) (taskId : TaskId) : Option TaskRow :=
  w.row.filter fun row => row.columns.taskId = taskId && row.columns.owner = owner

def World.taskRow (w : World) (taskId : TaskId) : Option TaskRow :=
  w.row.filter fun row => row.columns.taskId = taskId

section

variable (codecs : Codecs)

variable (w : World)

variable (now : Instant)

def get (owner : TaskOwner) (taskId : TaskId) :
    Except RepositoryError (World × Option TaskSnapshot) := do
  match w.ownedRow owner taskId with
  | none => .ok (w, none)
  | some row =>
    let record ← decodeTaskRecord codecs row
    let snapshot := record.stored.snapshot
    if !snapshot.state.isTerminal && now ≥ snapshot.expiresAt then
      let (w, next) ← expireTask codecs w row record now
      .ok (w, some next)
    else .ok (w, some snapshot)

/-- An answer to an old version is acknowledged and changes nothing. -/
def updateInputAtomic
    (request : AtomicInputUpdate) : Except RepositoryError (World × InputUpdateOutcome) := do
  match w.ownedRow request.owner request.taskId with
  | none => .ok (w, .notFound)
  | some row =>
    let record ← decodeTaskRecord codecs row
    let snapshot := record.stored.snapshot
    if snapshot.version ≠ request.expectedVersion
        || snapshot.generation ≠ request.expectedGeneration then .ok (w, .acknowledged snapshot)
    else
      match snapshot.state with
      | .inputRequired round =>
        if round.number ≠ request.expectedRound then .ok (w, .acknowledged snapshot)
        else if now ≥ snapshot.expiresAt then
          let (w, next) ← advance codecs w row record (.fail .expired) now none
          .ok (w, .acknowledged next)
        else
          let update := round.apply request.responses
          if !update.changed then .ok (w, .acknowledged snapshot)
          else if update.complete then
            validateResumeIntent snapshot request.resumeIntent
            let (w, next) ← advance codecs w row record (.resume update.round
              request.resumeIntent.jobId request.resumeIntent.generation) now none
            let w ← insertInputHistory w next request.expectedGeneration update.round
            .ok (w, .resumed next)
          else
            let (w, next) ← advance codecs w row record (.recordInput update.round) now none
            .ok (w, .acknowledged next)
      | _ => .ok (w, .acknowledged snapshot)

def cancelAtomic (request : AtomicCancellation) :
    Except RepositoryError (World × CancellationOutcome) := do
  match w.ownedRow request.owner request.taskId with
  | none => .ok (w, .notFound)
  | some row =>
    let record ← decodeTaskRecord codecs row
    let snapshot := record.stored.snapshot
    if snapshot.version ≠ request.expectedVersion
        || snapshot.generation ≠ request.expectedGeneration then .ok (w, .stale snapshot)
    else if snapshot.state.isTerminal then .ok (w, .terminal snapshot)
    else if snapshot.cancellationRequested then .ok (w, .alreadyRequested snapshot)
    else if now ≥ snapshot.expiresAt then
      let (w, next) ← expireTask codecs w row record now
      .ok (w, .terminal next)
    else
      validateCancellationIntent snapshot request.cancellationIntent
      let leased := record.lease.any fun lease =>
        lease.jobId = snapshot.currentJobId && lease.generation = snapshot.generation
          && lease.expiresAt > now
      if leased then
        let (w, next) ← advance codecs w row record .requestCancellation now record.lease
        .ok (w, .signalled next)
      else if record.lease.isSome then
        resumeDeliveryReceipt w snapshot snapshot.currentJobId
        let (w, next) ← advance codecs w row record .cancel now none
        .ok (completeDeliveryReceipt w snapshot snapshot.currentJobId, .cancelled next)
      else
        let (w, next) ← advance codecs w row record .cancel now none
        .ok (w, .cancelled next)

/-- A lease never outlives its task. -/
def claimExecution (claim : ExecutionClaim) :
    Except RepositoryError (World × ClaimOutcome) := do
  match w.taskRow claim.taskId with
  | none => .ok (w, .notFound)
  | some row =>
    let record ← decodeTaskRecord codecs row
    let snapshot := record.stored.snapshot
    if snapshot.currentJobId ≠ claim.jobId || snapshot.generation ≠ claim.generation
        || snapshot.state ≠ .working then .ok (w, .stale)
    else if record.lease.any fun lease => lease.expiresAt > now then .ok (w, .stale)
    else if now ≥ snapshot.expiresAt || snapshot.cancellationRequested then
      let (w, claimed) ← holdDeliveryReceipt w snapshot record.lease claim.jobId
      if !claimed then .ok (w, .stale)
      else
        let transition := if now ≥ snapshot.expiresAt then .fail .expired else .cancel
        let (w, _) ← advance codecs w row record transition now none
        .ok (completeDeliveryReceipt w snapshot claim.jobId, .inactive)
    else
      let w ← releaseExpiredLease w snapshot record.lease claim.jobId
      let (w, claimed) ← claimDeliveryReceipt w snapshot claim.jobId
      if !claimed then .ok (w, .stale)
      else
        let history ← loadInputHistory codecs w snapshot
        let fence : LeaseFence := ⟨claim.jobId, claim.generation, snapshot.version, now,
          min (now + executionTimeout) snapshot.expiresAt⟩
        let lease : TaskLease := ⟨record.stored, snapshot.version, now, history⟩
        .ok ({ w with
          row := some { row with lease := some fence }
          leases := ⟨claim, lease⟩ :: w.leases }, .leased lease)

end

/-- The row's lease is the one that a request names. -/
def exactLease (lease : Option LeaseFence) (ref : LeaseRef) : Bool :=
  lease.any fun lease => lease.jobId = ref.jobId && lease.generation = ref.generation
    && lease.version = ref.expectedVersion && lease.claimedAt = ref.leaseClaimedAt

def abandonExecution (codecs : Codecs) (w : World) (now : Instant) (claim : LeaseRef) :
    Except RepositoryError (World × AbandonOutcome) := do
  match w.taskRow claim.taskId with
  | none => .ok (w, .notFound)
  | some row =>
    let record ← decodeTaskRecord codecs row
    let snapshot := record.stored.snapshot
    if !exactLease record.lease claim || snapshot.currentJobId ≠ claim.jobId
        || snapshot.generation ≠ claim.generation then .ok (w, .stale)
    else
      let cancellationAdvanced := snapshot.cancellationRequested && snapshot.state = .working
        && snapshot.version = claim.expectedVersion + 1
      if snapshot.version ≠ claim.expectedVersion && !cancellationAdvanced then .error .integrity
      else
        resumeDeliveryReceipt w snapshot claim.jobId
        if snapshot.version = claim.expectedVersion then
          .ok ({ releaseDeliveryReceipt w claim.jobId with
            row := some { row with lease := none } }, .released)
        else
          let (w, _) ← advance codecs w row record .cancel now none
          .ok (completeDeliveryReceipt w snapshot claim.jobId, .cancelled)

def requireInput (codecs : Codecs) (w : World) (now : Instant) (request : RequireInput) :
    Except RepositoryError (World × SettlementOutcome) := do
  match w.taskRow request.taskId with
  | none => .ok (w, .notFound)
  | some row =>
    let record ← decodeTaskRecord codecs row
    let snapshot := record.stored.snapshot
    if !exactLease record.lease request.toLeaseRef || snapshot.generation ≠ request.generation
        || snapshot.version ≠ request.expectedVersion
        || snapshot.currentJobId ≠ request.jobId || snapshot.state ≠ .working
        || snapshot.cancellationRequested || now ≥ snapshot.expiresAt then .ok (w, .stale)
    else
      let inputKeys ← validateNewInputKeys codecs w.inputKeys request.round
      resumeDeliveryReceipt w snapshot request.jobId
      let (w, next) ← advance codecs { w with inputKeys } row record
        (.requireInput request.round) now none
      .ok (completeDeliveryReceipt w snapshot request.jobId, .applied next)

/-- The end a worker reports, unless the task's time is up. -/
def settlementTransition (snapshot : TaskSnapshot) (now : Instant) :
    TerminalSettlement → TaskTransition
  | settlement =>
    if now ≥ snapshot.expiresAt then .fail .expired
    else match settlement with
      | .completed result => .complete result
      | .failed failure => .fail failure
      | .cancelled => .cancel

def settleExecution (codecs : Codecs) (w : World) (now : Instant)
    (settlement : SettleExecution) : Except RepositoryError (World × SettlementOutcome) := do
  match w.taskRow settlement.taskId with
  | none => .ok (w, .notFound)
  | some row =>
    let record ← decodeTaskRecord codecs row
    let snapshot := record.stored.snapshot
    let cancellationAdvanced := snapshot.cancellationRequested
      && snapshot.version = settlement.expectedVersion + 1
    if !exactLease record.lease settlement.toLeaseRef
        || snapshot.currentJobId ≠ settlement.jobId
        || snapshot.generation ≠ settlement.generation || snapshot.state ≠ .working
        || (snapshot.version ≠ settlement.expectedVersion && !cancellationAdvanced) then
      .ok (w, .stale)
    else
      resumeDeliveryReceipt w snapshot settlement.jobId
      let (w, next) ← advance codecs w row record
        (settlementTransition snapshot now settlement.settlement) now none
      .ok (completeDeliveryReceipt w snapshot settlement.jobId, .applied next)

/-- The task's part in a batch that ends what has expired. -/
def expireBatch (codecs : Codecs) (w : World) (now : Instant) :
    Except RepositoryError World := do
  match w.row.filter fun row => !row.columns.status.isTerminal && row.columns.expiresAt ≤ now with
  | none => .ok w
  | some row =>
    let record ← decodeTaskRecord codecs row
    let snapshot := record.stored.snapshot
    if snapshot.state.isTerminal || snapshot.expiresAt > now then .error .integrity
    else
      let (w, _) ← expireTask codecs w row record now
      .ok w

/-! ## 7. Runs -/

/-- What clients, workers and the sweeper ask for. -/
inductive Action where
  | create (request : AtomicCreate)
  | get (owner : TaskOwner) (taskId : TaskId)
  | updateInput (request : AtomicInputUpdate)
  | cancel (request : AtomicCancellation)
  | claim (request : ExecutionClaim)
  | abandon (request : LeaseRef)
  | requireInput (request : RequireInput)
  | settle (request : SettleExecution)
  | expireBatch
  /-- A processed receipt is removed when its retention is over. -/
  | cleanInbox (jobId : JobId)

def World.act (codecs : Codecs) (w : World) (now : Instant) :
    Action → Except RepositoryError World
  | .create request => (createAtomic codecs w now request).map (·.1)
  | .get owner taskId => (Tasks.get codecs w now owner taskId).map (·.1)
  | .updateInput request => (updateInputAtomic codecs w now request).map (·.1)
  | .cancel request => (cancelAtomic codecs w now request).map (·.1)
  | .claim request => (claimExecution codecs w now request).map (·.1)
  | .abandon request => (abandonExecution codecs w now request).map (·.1)
  | .requireInput request => (Tasks.requireInput codecs w now request).map (·.1)
  | .settle request => (settleExecution codecs w now request).map (·.1)
  | .expireBatch => Tasks.expireBatch codecs w now
  | .cleanInbox jobId =>
    if (w.receipts.lookup jobId).any (·.processed) then
      .ok { w with receipts := w.receipts.erase jobId }
    else .ok w

/-- Operations one after another, each at a later time of the database clock.  A failed one is
rolled back. -/
def repository (codecs : Codecs) : Machine World (Instant × Action) where
  start := .empty
  step w a :=
    if a.1 ≤ w.clock then none
    else match w.act codecs a.1 a.2 with
      | .ok w' => some { w' with clock := a.1 }
      | .error _ => some { w with clock := a.1 }

/-! ## 8. Requests -/

namespace Grant

/-- What the job handler names in every request it makes under a lease. -/
def ref (grant : Grant) : LeaseRef where
  taskId := grant.claim.taskId
  generation := grant.claim.generation
  expectedVersion := grant.lease.version
  leaseClaimedAt := grant.lease.claimedAt
  jobId := grant.claim.jobId

/-- The number of the round that the job handler asks for: the one after the last completed. -/
def roundNumber (grant : Grant) : Option Nat :=
  match grant.lease.inputHistory.getLast? with
  | none => some 1
  | some round => checkedNext round.number

end Grant

/-- A worker request is built from a lease that was granted, as the job handler builds it. -/
def Action.FromHandler (codecs : Codecs) (w : World) : Action → Prop
  | .abandon request => ∃ grant ∈ w.leases, request = grant.ref
  | .requireInput request => ∃ grant ∈ w.leases, request.toLeaseRef = grant.ref ∧
      ∃ number requestState requests, grant.roundNumber = some number ∧
        InputRound.ofRequests codecs number requestState requests = .ok request.round
  | .settle request => ∃ grant ∈ w.leases, request.toLeaseRef = grant.ref
  | _ => True

/-- The request is made of values that the constructors of the component return. -/
def Action.Constructed (codecs : Codecs) : Action → Prop
  | .create request => ∃ taskId owner capability identity idempotency budget jobId createdAt config,
      request.task.snapshot = .initial taskId owner capability identity idempotency budget jobId
        createdAt config
  | .requireInput request => ∃ number requestState requests,
      InputRound.ofRequests codecs number requestState requests = .ok request.round
  | .updateInput request => ∃ responses, InputResponses.new responses = .ok request.responses
  | _ => True

def InputRound.answers (round : InputRound) : SortedMap InputKey Json :=
  round.exchanges.mapWithKey fun _ exchange => exchange.response.getD .null

/-- The batch is the owner's, in time, and about the round that waits: no fence refuses it. -/
structure AtomicInputUpdate.Accepted (request : AtomicInputUpdate) (w : World) (now : Instant)
    (row : TaskRow) (round : InputRound) : Prop where
  owned : w.ownedRow request.owner request.taskId = some row
  version : row.document.snapshot.version = request.expectedVersion
  generation : row.document.snapshot.generation = request.expectedGeneration
  waiting : row.document.snapshot.state = .inputRequired round
  number : round.number = request.expectedRound
  live : now < row.document.snapshot.expiresAt

/-- What an accepted batch of answers makes of the waiting round is within the bounds of the reader:
a round that stays open with questions and answers, a complete one with all its answers. -/
def Action.Fits (w : World) (now : Instant) : Action → Prop
  | .updateInput request => ∀ row round, request.Accepted w now row round →
      if (round.apply request.responses).round.isComplete then
        (InputResponses.toJson (round.apply request.responses).round.answers).size ≤
          maxTaskInputBytes
      else
        (InputRound.exchangesJson (round.apply request.responses).round.exchanges).size ≤
          maxTaskInputBytes
  | _ => True

end Omnius.Tasks
