/-
# The repository: what is stored, and what one call does to it

`UsageLedgerRepository` is a port with four calls, each atomic.  The in-memory repository is its
REFERENCE: `MemoryState` and the functions on it are translated from there.  Another repository is
`Faithful` when every call of it does to what it stores exactly what the reference does, or fails
and stores nothing; so whatever is shown of the ledger over a faithful repository holds over the
reference, which is the one instance here.  The PostgreSQL repository is not modelled: that it is
faithful is what these results assume of it.

Only two calls write, and only in two ways: `reserve` makes a reservation, `compare_and_set` puts
its successor in its place.  Both append one event.

Translated from `crates/llm-usage-ledger/src/repository.rs` and `testing.rs`.
-/
import Omnius.Ledger.Model
import Omnius.Lib.Table

namespace Omnius.Ledger

open Omnius.Lib

/-! ## 1. Decisions and errors -/

inductive ReserveStoreDecision
  | applied (reservation : Reservation) (event : LedgerEvent)
  | replay (reservation : Reservation) (event : LedgerEvent)
  | conflict
  | exhausted (exhaustion : BudgetExhaustion)

inductive CompareAndSetDecision
  | applied | versionConflict | notFound

inductive RepositoryError
  | unavailable | corruptState | arithmetic
deriving DecidableEq

/-! ## 2. The in-memory repository -/

abbrev ReservationKey := TenantId × ReservationId

structure MemoryState where
  reservations : Table ReservationKey Reservation
  idempotency : Table (TenantId × IdempotencyKey) ReservationKey
  events : Table (ReservationKey × Nat) LedgerEvent

namespace MemoryState

def empty : MemoryState := ⟨∅, ∅, ∅⟩

/-- The `try_fold` of `aggregate_for_dimension`. -/
def addUsages : UsageVector → List Reservation → Except RepositoryError UsageVector
  | total, [] => .ok total
  | total, r :: rest =>
    match r.effectiveUsage.checkedTotal with
    | .error _ => .error .arithmetic
    | .ok usage =>
      match total.checkedAdd usage with
      | .error _ => .error .arithmetic
      | .ok total => addUsages total rest

/-- The usage of all reservations that match the scope in the dimension.  The source visits them in
key order; the outcome does not depend on the order. -/
def aggregateForDimension (s : MemoryState) (scope : BudgetScope) (dimension : BudgetDimension) :
    Except RepositoryError UsageVector :=
  addUsages .zero ((s.reservations.entries.map Sigma.snd).filter fun r =>
    r.scope.matchesDimension scope dimension)

/-- The loop over the policies of a request: the first exhaustion, if there is one. -/
def checkPolicies (s : MemoryState) (scope : BudgetScope) (requested : UsageVector) :
    List BudgetPolicy → Except RepositoryError (Option BudgetExhaustion)
  | [] => .ok none
  | policy :: rest =>
    match s.aggregateForDimension scope policy.dimension with
    | .error e => .error e
    | .ok current =>
      match policy.ceilings.firstExhaustion policy.dimension current requested with
      | some exhaustion => .ok (some exhaustion)
      | none => checkPolicies s scope requested rest

section

variable (s : MemoryState)

def insertInitial (request : ReservationRequest) (reservation : Reservation)
    (event : LedgerEvent) : MemoryState where
  reservations := s.reservations.insert (request.scope.tenant, request.id) reservation
  idempotency := s.idempotency.insert (request.scope.tenant, request.idempotencyKey)
    (request.scope.tenant, request.id)
  events := s.events.insert ((request.scope.tenant, reservation.id), reservation.version) event

def insertReplacement (tenant : TenantId) (replacement : Reservation)
    (event : LedgerEvent) : MemoryState where
  reservations := s.reservations.insert (tenant, replacement.id) replacement
  idempotency := s.idempotency
  events := s.events.insert ((tenant, replacement.id), replacement.version) event

def reserve (request : ReservationRequest) :
    Except RepositoryError ReserveStoreDecision × MemoryState :=
  let tenant := request.scope.tenant
  match s.idempotency.lookup (tenant, request.idempotencyKey) with
  | some existingKey =>
    match s.reservations.lookup existingKey with
    | none => (.error .corruptState, s)
    | some reservation =>
      if !reservation.isReplayOf request then (.ok .conflict, s)
      else
        match s.events.lookup ((tenant, reservation.id), reservation.version) with
        | none => (.error .corruptState, s)
        | some event => (.ok (.replay reservation event), s)
  | none =>
    if (s.reservations.lookup (tenant, request.id)).isSome then (.ok .conflict, s)
    else
      match request.estimate.checkedTotal with
      | .error _ => (.error .arithmetic, s)
      | .ok requested =>
        match s.checkPolicies request.scope requested request.policies with
        | .error e => (.error e, s)
        | .ok (some exhaustion) => (.ok (.exhausted exhaustion), s)
        | .ok none =>
          match Reservation.initial request with
          | .error _ => (.error .arithmetic, s)
          | .ok (reservation, event) =>
            (.ok (.applied reservation event), s.insertInitial request reservation event)

def load (tenant : TenantId) (id : ReservationId) : Option Reservation :=
  s.reservations.lookup (tenant, id)

def eventAt (tenant : TenantId) (id : ReservationId) (version : Nat) :
    Option LedgerEvent :=
  s.events.lookup ((tenant, id), version)

end

def validTransition : ReservationState → ReservationState → LedgerEventKind → Bool
  | .reserved, .committed _, .committed | .reserved, .reconciled _, .committed => true
  | .reserved, .released, .released => true
  | .committed _, .reconciled _, .reconciled => true
  | _, _, _ => false

/-- The replacement is the successor of the expected version, and the event describes it. -/
structure Described (tenant : TenantId) (expectedVersion : Nat) (replacement : Reservation)
    (event : LedgerEvent) : Prop where
  tenant : replacement.scope.tenant = tenant
  next : checkedNext expectedVersion = .ok replacement.version
  version : event.version = replacement.version
  state : event.state = replacement.state.kind
  usageStatus : event.usageStatus = replacement.state.usageStatus
  dimensions : event.dimensions = replacement.scope.dimensions
  effectiveUsage : event.effectiveUsage = replacement.effectiveUsage

def compareAndSet (s : MemoryState) (tenant : TenantId) (expectedVersion : Nat)
    (replacement : Reservation) (event : LedgerEvent) :
    Except RepositoryError CompareAndSetDecision × MemoryState :=
  if tenant ≠ replacement.scope.tenant then (.error .corruptState, s)
  else
    match checkedNext expectedVersion with
    | .error _ => (.error .arithmetic, s)
    | .ok expectedNext =>
      if replacement.version ≠ expectedNext ∨ event.version ≠ replacement.version
          ∨ event.state ≠ replacement.state.kind
          ∨ event.usageStatus ≠ replacement.state.usageStatus
          ∨ event.dimensions ≠ replacement.scope.dimensions
          ∨ event.effectiveUsage ≠ replacement.effectiveUsage then
        (.error .corruptState, s)
      else
        match s.reservations.lookup (tenant, replacement.id) with
        | none => (.ok .notFound, s)
        | some current =>
          if current.version ≠ expectedVersion then (.ok .versionConflict, s)
          else if current.idempotencyKey ≠ replacement.idempotencyKey
              ∨ current.fingerprint ≠ replacement.fingerprint
              ∨ current.scope ≠ replacement.scope ∨ current.estimate ≠ replacement.estimate
              ∨ current.policies ≠ replacement.policies
              ∨ validTransition current.state replacement.state event.kind = false then
            (.error .corruptState, s)
          else
            match LedgerEvent.forTransition event.kind current.effectiveUsage replacement with
            | .error _ => (.error .arithmetic, s)
            | .ok expectedEvent =>
              if expectedEvent ≠ event then (.error .corruptState, s)
              else if (s.events.lookup ((tenant, replacement.id), replacement.version)).isSome then
                (.error .corruptState, s)
              else (.ok .applied, s.insertReplacement tenant replacement event)

end MemoryState

/-! ## 3. What a call writes -/

/-- **The successor of a reservation**: the identity is kept, the version is the next one, the
transition is one of the lifecycle's, and the event records it. -/
structure Follows (r r' : Reservation) (event : LedgerEvent) : Prop where
  idempotencyKey : r'.idempotencyKey = r.idempotencyKey
  fingerprint : r'.fingerprint = r.fingerprint
  scope : r'.scope = r.scope
  estimate : r'.estimate = r.estimate
  policies : r'.policies = r.policies
  version : r'.version = r.version + 1
  transition : MemoryState.validTransition r.state r'.state event.kind = true
  event : LedgerEvent.forTransition event.kind r.effectiveUsage r' = .ok event

/-- The request stays within every ceiling of its policies. -/
def MemoryState.Admits (s : MemoryState) (request : ReservationRequest) : Prop :=
  ∃ requested, request.estimate.checkedTotal = .ok requested ∧
    ∀ policy ∈ request.policies, ∃ current,
      s.aggregateForDimension request.scope policy.dimension = .ok current ∧
        policy.ceilings.firstExhaustion policy.dimension current requested = none

namespace MemoryState

variable {s : MemoryState} {request : ReservationRequest}

theorem checkPolicies_none {scope : BudgetScope} {requested : UsageVector} :
    ∀ {policies : List BudgetPolicy}, s.checkPolicies scope requested policies = .ok none →
      ∀ policy ∈ policies, ∃ current, s.aggregateForDimension scope policy.dimension = .ok current ∧
        policy.ceilings.firstExhaustion policy.dimension current requested = none
  | [], _, policy, hmem => by cases hmem
  | first :: rest, h, policy, hmem => by
    unfold checkPolicies at h
    split at h
    · cases h
    rename_i current hcur
    split at h
    · cases h
    rename_i hnone
    rcases List.mem_cons.mp hmem with rfl | hrest
    · exact ⟨current, hcur, hnone⟩
    · exact checkPolicies_none h policy hrest

/-- What `reserve` can do: nothing, replay what it has, or make the reservation. -/
inductive Reserved (s : MemoryState) (request : ReservationRequest) :
    Except RepositoryError ReserveStoreDecision × MemoryState → Prop
  | error (e : RepositoryError) : Reserved s request (.error e, s)
  | conflict : Reserved s request (.ok .conflict, s)
  | exhausted (x : BudgetExhaustion) : Reserved s request (.ok (.exhausted x), s)
  | replay {key : ReservationKey} {r : Reservation} {e : LedgerEvent}
      (indexed : s.idempotency.lookup (request.scope.tenant, request.idempotencyKey) = some key)
      (lookup : s.reservations.lookup key = some r) (same : r.isReplayOf request = true)
      (event : s.events.lookup ((request.scope.tenant, r.id), r.version) = some e) :
      Reserved s request (.ok (.replay r e), s)
  | applied {r : Reservation} {e : LedgerEvent}
      (initial : Reservation.initial request = .ok (r, e))
      (unused : s.idempotency.lookup (request.scope.tenant, request.idempotencyKey) = none)
      (fresh : s.reservations.lookup (request.scope.tenant, request.id) = none)
      (admits : s.Admits request) :
      Reserved s request (.ok (.applied r e), s.insertInitial request r e)

theorem reserve_reserved (s : MemoryState) (request : ReservationRequest) :
    Reserved s request (s.reserve request) := by
  unfold reserve
  simp only
  split
  · rename_i key hkey
    split
    · exact .error _
    rename_i r hr
    split
    · exact .conflict
    rename_i hsame
    split
    · exact .error _
    · rename_i e he
      exact .replay hkey hr (by simpa using hsame) he
  · rename_i hun
    split
    · exact .conflict
    rename_i hfr
    split
    · exact .error _
    rename_i requested htot
    split
    · exact .error _
    · exact .exhausted _
    rename_i hnone
    split
    · exact .error _
    · rename_i r e hinit
      refine .applied hinit hun ?_ ⟨requested, htot, checkPolicies_none hnone⟩
      simpa using hfr

/-- What `compare_and_set` can do: nothing, or replace the reservation by its successor. -/
inductive Swapped (s : MemoryState) (tenant : TenantId) (replacement : Reservation)
    (event : LedgerEvent) : Except RepositoryError CompareAndSetDecision × MemoryState → Prop
  | kept {result : Except RepositoryError CompareAndSetDecision}
      (notApplied : result ≠ .ok .applied) : Swapped s tenant replacement event (result, s)
  | applied {current : Reservation}
      (lookup : s.reservations.lookup (tenant, replacement.id) = some current)
      (owner : replacement.scope.tenant = tenant) (follows : Follows current replacement event)
      (unrecorded : s.events.lookup ((tenant, replacement.id), replacement.version) = none) :
      Swapped s tenant replacement event
        (.ok .applied, s.insertReplacement tenant replacement event)

theorem compareAndSet_swapped (s : MemoryState) (tenant : TenantId) (expectedVersion : Nat)
    (replacement : Reservation) (event : LedgerEvent) :
    Swapped s tenant replacement event
      (s.compareAndSet tenant expectedVersion replacement event) := by
  unfold compareAndSet
  split
  · exact .kept nofun
  rename_i htenant
  split
  · exact .kept nofun
  rename_i next hnext
  split
  · exact .kept nofun
  rename_i hdescribed
  split
  · exact .kept nofun
  rename_i current hcur
  split
  · exact .kept nofun
  rename_i hver
  split
  · exact .kept nofun
  rename_i hsame
  split
  · exact .kept nofun
  rename_i expectedEvent hev
  split
  · exact .kept nofun
  rename_i heq
  split
  · exact .kept nofun
  rename_i hunrecorded
  simp only [not_or, not_not, Bool.not_eq_false] at hdescribed hsame heq
  obtain ⟨hkey, hfinger, hsc, hest, hpolicies, htr⟩ := hsame
  have hv : replacement.version = current.version + 1 := by
    unfold checkedNext at hnext
    split at hnext
    · rw [Except.ok.injEq] at hnext
      rw [hdescribed.1, ← hnext, not_not.mp hver]
    · cases hnext
  refine .applied hcur (not_not.mp htenant).symm ?_ (by simpa using hunrecorded)
  exact ⟨hkey.symm, hfinger.symm, hsc.symm, hest.symm, hpolicies.symm, hv, htr, heq ▸ hev⟩

end MemoryState

/-! ## 4. The port -/

/-- `UsageLedgerRepository`: four atomic calls on stored state. -/
structure Repository where
  State : Type
  start : State
  reserve : State → ReservationRequest → Except RepositoryError ReserveStoreDecision × State
  load : State → TenantId → ReservationId → Except RepositoryError (Option Reservation)
  compareAndSet : State → TenantId → Nat → Reservation → LedgerEvent →
    Except RepositoryError CompareAndSetDecision × State
  eventAt : State → TenantId → ReservationId → Nat → Except RepositoryError (Option LedgerEvent)

/-- The in-memory repository.  Its mutex only fails once a thread has panicked under it; that is
one of the ways in which a call can be refused, and refusals are part of the ledger's machine. -/
def memory : Repository where
  State := MemoryState
  start := .empty
  reserve := MemoryState.reserve
  load s tenant id := .ok (s.load tenant id)
  compareAndSet := MemoryState.compareAndSet
  eventAt s tenant id version := .ok (s.eventAt tenant id version)

/-- A call did what the reference does, or it failed and changed nothing. -/
def ActsAs {σ α : Type} (view : σ → MemoryState) (s : σ) (out : Except RepositoryError α × σ)
    (reference : Except RepositoryError α × MemoryState) : Prop :=
  (∃ a, out.1 = .ok a ∧ reference = (.ok a, view out.2)) ∨
    ∃ e, out.1 = .error e ∧ view out.2 = view s

/-- **The contract of the port.**  `view` is what a state stores; it only has to make sense in the
states that calls lead to.  A call may fail on what is not there, and then it changes nothing. -/
structure Faithful (R : Repository) where
  view : R.State → MemoryState
  Valid : R.State → Prop
  start : Valid R.start ∧ view R.start = .empty
  reserve : ∀ s request, Valid s → Valid (R.reserve s request).2 ∧
    ActsAs view s (R.reserve s request) ((view s).reserve request) ∧
    ((view s).idempotency.lookup (request.scope.tenant, request.idempotencyKey) ≠ none →
      (R.reserve s request).1 = ((view s).reserve request).1)
  load : ∀ s tenant id, Valid s → R.load s tenant id = .ok ((view s).load tenant id) ∨
    ((view s).load tenant id = none ∧ ∃ e, R.load s tenant id = .error e)
  compareAndSet : ∀ s tenant version replacement event, Valid s →
    MemoryState.Described tenant version replacement event →
    Valid (R.compareAndSet s tenant version replacement event).2 ∧
    ActsAs view s (R.compareAndSet s tenant version replacement event)
      ((view s).compareAndSet tenant version replacement event)
  eventAt : ∀ s tenant id version, Valid s →
    R.eventAt s tenant id version = .ok ((view s).eventAt tenant id version) ∨
      ((view s).eventAt tenant id version = none ∧ ∃ e, R.eventAt s tenant id version = .error e)

variable {s : MemoryState}

theorem actsAs_self {α : Type} {out : Except RepositoryError α × MemoryState}
    (h : ∀ e, out.1 = .error e → out.2 = s) : ActsAs (fun s => s) s out out := by
  obtain ⟨result, s'⟩ := out
  cases result with
  | ok a => exact .inl ⟨a, rfl, rfl⟩
  | error e => exact .inr ⟨e, rfl, h e rfl⟩

theorem MemoryState.Reserved.failed {request : ReservationRequest}
    {out : Except RepositoryError ReserveStoreDecision × MemoryState} (h : Reserved s request out)
    {e : RepositoryError} (he : out.1 = .error e) : out.2 = s := by
  cases h with
  | applied => cases he
  | _ => rfl

theorem MemoryState.Swapped.failed {tenant : TenantId} {replacement : Reservation}
    {event : LedgerEvent} {out : Except RepositoryError CompareAndSetDecision × MemoryState}
    (h : Swapped s tenant replacement event out) {e : RepositoryError} (he : out.1 = .error e) :
    out.2 = s := by
  cases h with
  | kept => rfl
  | applied => cases he

/-- **The reference is faithful to itself.** -/
def memoryFaithful : Faithful memory where
  view s := s
  Valid _ := True
  start := ⟨trivial, rfl⟩
  reserve := by
    intro s request _
    refine ⟨trivial, actsAs_self ?_, fun _ => rfl⟩
    intro e he
    exact (MemoryState.reserve_reserved s request).failed he
  load := fun _ _ _ _ => .inl rfl
  compareAndSet := by
    intro s tenant version replacement event _ _
    refine ⟨trivial, actsAs_self ?_⟩
    intro e he
    exact (MemoryState.compareAndSet_swapped s tenant version replacement event).failed he
  eventAt := fun _ _ _ _ _ => .inl rfl

end Omnius.Ledger
