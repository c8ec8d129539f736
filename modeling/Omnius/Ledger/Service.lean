/-
# The ledger service: clients that load, decide and swap

`UsageLedger` holds no state of its own.  `reserve` is one repository call.  `commit`, `reconcile`
and `release` are a LOOP: load the reservation, decide from what was loaded, and try to swap it for
its successor; when somebody else was faster, load again, sixteen times at most.  When the
reservation already is what the call asks for, the event of its version is read and handed back as a
REPLAY.

Each repository call is one action of the machine, and a call of the service in progress is a
`Client` that remembers how far it has come, so a run is any interleaving of any number of clients.
The repository may refuse a call, or take it and lose the answer, and a client may be abandoned at
any point.

Histories are kept that no code keeps: `log` and `reserves`, what was returned, and `history`, what
was stored under each key, newest first.

Translated from `crates/llm-usage-ledger/src/service.rs`.
-/
import Omnius.Ledger.Repository
import Omnius.Lib.Machine

namespace Omnius.Ledger

open Omnius.Lib

/-! ## 1. What a call decides from what it loaded -/

inductive LedgerError
  | repository (error : RepositoryError)
  | budgetExhausted (exhaustion : BudgetExhaustion)
  | idempotencyConflict | notFound | transitionConflict | arithmetic | underreportedUsage
  | concurrentModification | versionExhausted | corruptState
deriving DecidableEq

structure LedgerOperation where
  reservation : Reservation
  event : LedgerEvent
  replayed : Bool
deriving DecidableEq

/-- A call of `commit`, `reconcile` or `release`. -/
inductive Call
  | commit (tenant : TenantId) (id : ReservationId) (evidence : UsageEvidence)
  | reconcile (tenant : TenantId) (id : ReservationId) (actual : UsageBreakdown)
  | release (tenant : TenantId) (id : ReservationId)

def Call.tenant : Call → TenantId
  | .commit tenant _ _ | .reconcile tenant _ _ | .release tenant _ => tenant

def Call.id : Call → ReservationId
  | .commit _ id _ | .reconcile _ id _ | .release _ id => id

def ensureDispatchedRequestsArePreserved (actual : UsageBreakdown) : Except LedgerError Unit :=
  match actual.includesDispatchedRequest with
  | .error _ => .error .arithmetic
  | .ok preserved => if !preserved then .error .underreportedUsage else .ok ()

/-- The reservation is there already, or a transition to make. -/
inductive Plan
  | replay
  | transition (state : ReservationState) (kind : LedgerEventKind)

/-- The state match of `commit`. -/
def planCommit (evidence : UsageEvidence) : ReservationState → Except LedgerError Plan
  | .committed existing =>
    if existing = evidence then .ok .replay else .error .transitionConflict
  | .reconciled actual =>
    if evidence = .actual actual then .ok .replay else .error .transitionConflict
  | .reserved => .ok (.transition
      (match evidence with
        | .actual actual => .reconciled actual
        | .missing => .committed .missing
        | .ambiguous observed => .committed (.ambiguous observed))
      .committed)
  | .released => .error .transitionConflict

/-- The state match of `reconcile`. -/
def planReconcile (actual : UsageBreakdown) : ReservationState → Except LedgerError Plan
  | .reconciled existing =>
    if existing = actual then .ok .replay else .error .transitionConflict
  | .committed _ => .ok (.transition (.reconciled actual) .reconciled)
  | .reserved | .released => .error .transitionConflict

/-- The state match of `release`. -/
def planRelease : ReservationState → Except LedgerError Plan
  | .released => .ok .replay
  | .reserved => .ok (.transition .released .released)
  | .committed _ | .reconciled _ => .error .transitionConflict

/-- Complete provider usage has to include the dispatched request. -/
def Call.check : Call → Except LedgerError Unit
  | .commit _ _ (.actual actual) | .reconcile _ _ actual =>
    ensureDispatchedRequestsArePreserved actual
  | .commit _ _ .missing | .commit _ _ (.ambiguous _) | .release _ _ => .ok ()

def Call.planFor : Call → ReservationState → Except LedgerError Plan
  | .commit _ _ evidence, state => planCommit evidence state
  | .reconcile _ _ actual, state => planReconcile actual state
  | .release _ _, state => planRelease state

/-- What a call does with the reservation it has loaded. -/
def Call.plan (call : Call) (current : Reservation) : Except LedgerError Plan :=
  match call.check with
  | .error e => .error e
  | .ok _ => call.planFor current.state

/-! ## 2. Clients -/

/-- Where a call stands between two calls of the repository. -/
inductive Phase
  | loading
  /-- In `replay`, before `event_at`. -/
  | replaying (current : Reservation)
  /-- In `apply_transition`, before `compare_and_set`. -/
  | swapping (current next : Reservation) (event : LedgerEvent)
deriving DecidableEq

/-- A call in progress, with its attempts left. -/
structure Client where
  call : Call
  /-- Rounds left, this one included. -/
  attempts : Nat
  phase : Phase

def maxCompareAndSetAttempts : Nat := 16

/-- From the loaded reservation to the next repository call. -/
def Call.loaded (call : Call) (current : Reservation) : Except LedgerError Phase :=
  match call.plan current with
  | .error e => .error e
  | .ok .replay => .ok (.replaying current)
  | .ok (.transition state kind) =>
    match current.transition state with
    | .error _ => .error .versionExhausted
    | .ok next =>
      match LedgerEvent.forTransition kind current.effectiveUsage next with
      | .error _ => .error .arithmetic
      | .ok event => .ok (.swapping current next event)

/-- What `reserve` makes of the decision. -/
def reserveResult : Except RepositoryError ReserveStoreDecision →
    Except LedgerError LedgerOperation
  | .error e => .error (.repository e)
  | .ok (.applied reservation event) => .ok ⟨reservation, event, false⟩
  | .ok (.replay reservation event) => .ok ⟨reservation, event, true⟩
  | .ok .conflict => .error .idempotencyConflict
  | .ok (.exhausted exhaustion) => .error (.budgetExhausted exhaustion)

/-- What becomes of a repository call. -/
inductive Answer
  | given
  /-- It fails before it takes effect. -/
  | refused
  /-- It takes effect and its answer does not arrive. -/
  | lost

/-! ## 3. The machine -/

/-- Reservations as they were stored, each with the event it was stored with, newest first. -/
abbrev Entries := List (Reservation × LedgerEvent)

abbrev History := Table ReservationKey Entries

def History.past (h : History) (key : ReservationKey) : Entries := (h.lookup key).getD []

/-- What a client's call returned. -/
structure Return where
  client : Nat
  call : Call
  result : Except LedgerError LedgerOperation

structure World (R : Repository) where
  store : R.State
  clients : Table Nat Client
  nextClient : Nat
  reserves : List (ReservationRequest × Except LedgerError LedgerOperation)
  log : List Return
  history : History

inductive Action
  | reserve (request : ReservationRequest) (answer : Answer)
  | begin (call : Call)
  | load (client : Nat) (answer : Answer)
  | eventAt (client : Nat) (answer : Answer)
  | compareAndSet (client : Nat) (answer : Answer)
  | abandon (client : Nat)

namespace World

variable {R : Repository}

def start (R : Repository) : World R := ⟨R.start, ∅, 0, [], [], ∅⟩

def unavailable : Except LedgerError LedgerOperation := .error (.repository .unavailable)

def finish (w : World R) (client : Nat) (call : Call)
    (result : Except LedgerError LedgerOperation) : World R :=
  { w with clients := w.clients.erase client, log := ⟨client, call, result⟩ :: w.log }

def setPhase (w : World R) (client : Nat) (c : Client) (phase : Phase) : World R :=
  { w with clients := w.clients.insert client { c with phase := phase } }

def stored (w : World R) (request : ReservationRequest) : World R :=
  { w with
    store := (R.reserve w.store request).2
    history := match (R.reserve w.store request).1 with
      | .ok (.applied reservation event) =>
        w.history.insert (request.scope.tenant, request.id) [(reservation, event)]
      | _ => w.history }

def reserve (w : World R) (request : ReservationRequest) : Answer → World R
  | .given => { w.stored request with
      reserves := (request, reserveResult (R.reserve w.store request).1) :: w.reserves }
  | .refused => { w with reserves := (request, unavailable) :: w.reserves }
  | .lost => { w.stored request with reserves := (request, unavailable) :: w.reserves }

/-- `reconcile` checks the total it was given before its loop. -/
def begin (w : World R) (call : Call) : World R :=
  let looping := { w with
    clients := w.clients.insert w.nextClient ⟨call, maxCompareAndSetAttempts, .loading⟩
    nextClient := w.nextClient + 1 }
  match call with
  | .reconcile _ _ actual =>
    match actual.checkedTotal with
    | .error _ => { w with
        nextClient := w.nextClient + 1
        log := ⟨w.nextClient, call, .error .arithmetic⟩ :: w.log }
    | .ok _ => looping
  | _ => looping

def load (w : World R) (client : Nat) (answer : Answer) : Option (World R) :=
  match w.clients.lookup client with
  | none => none
  | some c =>
    match c.phase, answer with
    | .loading, .given =>
      match R.load w.store c.call.tenant c.call.id with
      | .error e => some (w.finish client c.call (.error (.repository e)))
      | .ok none => some (w.finish client c.call (.error .notFound))
      | .ok (some current) =>
        match c.call.loaded current with
        | .error e => some (w.finish client c.call (.error e))
        | .ok phase => some (w.setPhase client c phase)
    | .loading, _ => some (w.finish client c.call unavailable)
    | _, _ => none

def eventAt (w : World R) (client : Nat) (answer : Answer) : Option (World R) :=
  match w.clients.lookup client with
  | none => none
  | some c =>
    match c.phase, answer with
    | .replaying current, .given =>
      match R.eventAt w.store c.call.tenant current.id current.version with
      | .error e => some (w.finish client c.call (.error (.repository e)))
      | .ok none => some (w.finish client c.call (.error .corruptState))
      | .ok (some event) => some (w.finish client c.call (.ok ⟨current, event, true⟩))
    | .replaying _, _ => some (w.finish client c.call unavailable)
    | _, _ => none

def swapped (w : World R) (tenant : TenantId) (current next : Reservation) (event : LedgerEvent) :
    World R :=
  { w with
    store := (R.compareAndSet w.store tenant current.version next event).2
    history := match (R.compareAndSet w.store tenant current.version next event).1 with
      | .ok .applied =>
        w.history.insert (tenant, next.id) ((next, event) :: w.history.past (tenant, next.id))
      | _ => w.history }

/-- The next round, if one is left. -/
def retry (w : World R) (client : Nat) (c : Client) : World R :=
  if c.attempts ≤ 1 then w.finish client c.call (.error .concurrentModification)
  else { w with clients := w.clients.insert client ⟨c.call, c.attempts - 1, .loading⟩ }

def compareAndSet (w : World R) (client : Nat) (answer : Answer) : Option (World R) :=
  match w.clients.lookup client with
  | none => none
  | some c =>
    match c.phase, answer with
    | .swapping current next event, .given =>
      match (R.compareAndSet w.store c.call.tenant current.version next event).1 with
      | .ok .applied => some ((w.swapped c.call.tenant current next event).finish client c.call
          (.ok ⟨next, event, false⟩))
      | .ok .versionConflict => some ((w.swapped c.call.tenant current next event).retry client c)
      | .ok .notFound => some ((w.swapped c.call.tenant current next event).finish client c.call
          (.error .corruptState))
      | .error e => some ((w.swapped c.call.tenant current next event).finish client c.call
          (.error (.repository e)))
    | .swapping current next event, .lost =>
      some ((w.swapped c.call.tenant current next event).finish client c.call unavailable)
    | .swapping .., .refused => some (w.finish client c.call unavailable)
    | _, _ => none

def step (w : World R) : Action → Option (World R)
  | .reserve request answer => some (w.reserve request answer)
  | .begin call => some (w.begin call)
  | .load client answer => w.load client answer
  | .eventAt client answer => w.eventAt client answer
  | .compareAndSet client answer => w.compareAndSet client answer
  | .abandon client => some { w with clients := w.clients.erase client }

end World

/-- The machine of a ledger over a repository. -/
def ledger (R : Repository) : Machine (World R) Action where
  start := .start R
  step := World.step

end Omnius.Ledger
