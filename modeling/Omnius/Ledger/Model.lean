/-
# Reservations, their states and their events

The values the ledger works on: identifiers, budget scopes and policies, the request a reservation
is made from, the reservation with its lifecycle state and version, and the event that records one
mutation.  Nothing here touches storage.

A request can only be built by `ReservationRequest.new`, which sorts its policies and checks them,
so a `ReservationRequest` carries the proof that those checks passed.  A `Reservation` copies the
request's fields; only its state and version ever change.

The lifecycle is `Reserved`, then one of `Committed`, `Reconciled` or `Released`, and from
`Committed` at most `Reconciled`; what is ACCOUNTED in each state is `effectiveUsage`.

Translated from `crates/llm-usage-ledger/src/model.rs` and `types.rs`.
-/
import Omnius.Ledger.Amount
import Mathlib.Data.List.Sort

namespace Omnius.Ledger

/-! ## 1. Identifiers -/

/-- The identifier types that `bounded_id!` makes. -/
inductive IdKind
  | tenant | principal | apiKey | provider | model | route | tool | operation | job | reservation
  | idempotency

def maxIdentifierBytes : Nat := 128

def isSafe (c : Char) : Bool :=
  c.isAlphanum || c = '-' || c = '_' || c = '.' || c = '/' || c = ':' || c = '@'

def validateIdentifier (value : String) : Bool :=
  !value.isEmpty && decide (value.utf8ByteSize ≤ maxIdentifierBytes) && value.toList.all isSafe

inductive IdentifierError
  | invalid

structure BoundedId (kind : IdKind) where
  value : String
  safe : validateIdentifier value = true
deriving DecidableEq

def BoundedId.new {kind : IdKind} (value : String) : Except IdentifierError (BoundedId kind) :=
  if h : validateIdentifier value = true then .ok ⟨value, h⟩ else .error .invalid

abbrev TenantId := BoundedId .tenant
abbrev PrincipalId := BoundedId .principal
abbrev ApiKeyId := BoundedId .apiKey
abbrev ProviderId := BoundedId .provider
abbrev ModelId := BoundedId .model
abbrev RouteId := BoundedId .route
abbrev ToolId := BoundedId .tool
abbrev OperationId := BoundedId .operation
abbrev JobId := BoundedId .job
abbrev ReservationId := BoundedId .reservation
abbrev IdempotencyKey := BoundedId .idempotency

/-- A 256-bit fingerprint of all dispatch-affecting reservation input. -/
structure RequestFingerprint where
  digest : BitVec 256
deriving DecidableEq

inductive VersionOverflow
  | exhausted

/-- `LedgerVersion::checked_next`; a version is a `u64`. -/
def checkedNext (version : Nat) : Except VersionOverflow Nat :=
  if version + 1 < 2 ^ 64 then .ok (version + 1) else .error .exhausted

/-! ## 2. Scopes and policies -/

/-- A hard-budget aggregation dimension, in the order of the source. -/
inductive BudgetDimension
  | tenant | principal | apiKey | provider | model | route | tool | operation | job
deriving DecidableEq

def BudgetDimension.rank : BudgetDimension → Nat
  | .tenant => 0
  | .principal => 1
  | .apiKey => 2
  | .provider => 3
  | .model => 4
  | .route => 5
  | .tool => 6
  | .operation => 7
  | .job => 8

/-- The dimensions present in a scope, without their values. -/
structure DimensionSet where
  (principal apiKey provider model route tool operation job : Bool)
deriving DecidableEq

/-- The budget dimensions attached to one dispatch. -/
structure BudgetScope where
  tenant : TenantId
  principal : Option PrincipalId
  apiKey : Option ApiKeyId
  provider : Option ProviderId
  model : Option ModelId
  route : Option RouteId
  tool : Option ToolId
  operation : Option OperationId
  job : Option JobId
deriving DecidableEq

namespace BudgetScope

/-- A scope at its mandatory tenant boundary. -/
def new (tenant : TenantId) : BudgetScope :=
  ⟨tenant, none, none, none, none, none, none, none, none⟩

def dimensions (s : BudgetScope) : DimensionSet :=
  ⟨s.principal.isSome, s.apiKey.isSome, s.provider.isSome, s.model.isSome, s.route.isSome,
    s.tool.isSome, s.operation.isSome, s.job.isSome⟩

def containsDimension (s : BudgetScope) : BudgetDimension → Bool
  | .tenant => true
  | .principal => s.principal.isSome
  | .apiKey => s.apiKey.isSome
  | .provider => s.provider.isSome
  | .model => s.model.isSome
  | .route => s.route.isSome
  | .tool => s.tool.isSome
  | .operation => s.operation.isSome
  | .job => s.job.isSome

/-- Whether both scopes share the tenant and the value of the dimension. -/
def matchesDimension (s other : BudgetScope) (dimension : BudgetDimension) : Bool :=
  if s.tenant ≠ other.tenant then false
  else match dimension with
    | .tenant => true
    | .principal => s.principal = other.principal
    | .apiKey => s.apiKey = other.apiKey
    | .provider => s.provider = other.provider
    | .model => s.model = other.model
    | .route => s.route = other.route
    | .tool => s.tool = other.tool
    | .operation => s.operation = other.operation
    | .job => s.job = other.job

theorem matchesDimension_congr {s t : BudgetScope} {d : BudgetDimension}
    (h : s.matchesDimension t d = true) (u : BudgetScope) :
    u.matchesDimension s d = u.matchesDimension t d := by
  unfold matchesDimension at *
  by_cases ht : s.tenant = t.tenant
  · rw [if_neg (not_not.mpr ht)] at h
    cases d <;> simp_all
  · rw [if_pos ht] at h
    cases h

end BudgetScope

structure BudgetCeilings where
  (requests concurrentStreams tokens units toolCalls mediaBytes costMicrounits : Option Nat)
deriving DecidableEq

/-- A typed value reported for an exhausted budget. -/
inductive BudgetValue
  | usage (amount : Nat)
  | cost (amount : Nat)
deriving DecidableEq

/-- Cost is reported as cost, everything else as usage. -/
def BudgetMetric.report : BudgetMetric → Nat → BudgetValue
  | .costMicrounits, amount => .cost amount
  | _, amount => .usage amount

structure BudgetExhaustion where
  dimension : BudgetDimension
  metric : BudgetMetric
  (current requested maximum : BudgetValue)
deriving DecidableEq

/-- A sum that does not fit a `u64` exceeds every maximum. -/
def exceeds (current requested maximum : Nat) : Bool :=
  if current + requested < 2 ^ 64 then decide (maximum < current + requested) else true

namespace BudgetCeilings

def none : BudgetCeilings := ⟨.none, .none, .none, .none, .none, .none, .none⟩

def get (c : BudgetCeilings) : BudgetMetric → Option Nat
  | .requests => c.requests
  | .concurrentStreams => c.concurrentStreams
  | .tokens => c.tokens
  | .units => c.units
  | .toolCalls => c.toolCalls
  | .mediaBytes => c.mediaBytes
  | .costMicrounits => c.costMicrounits

def isEmpty (c : BudgetCeilings) : Bool := decide (∀ m, c.get m = .none)

/-- The first exceeded metric in canonical order. -/
def firstExhaustion (c : BudgetCeilings) (dimension : BudgetDimension)
    (current requested : UsageVector) : Option BudgetExhaustion :=
  BudgetMetric.all.findSome? fun m =>
    match c.get m with
    | .none => .none
    | some maximum =>
      if exceeds (current.get m) (requested.get m) maximum then
        some ⟨dimension, m, m.report (current.get m), m.report (requested.get m),
          m.report maximum⟩
      else .none

/-- **No exhaustion is reported exactly when every limited metric stays within its ceiling.** -/
theorem firstExhaustion_eq_none {c : BudgetCeilings} {d : BudgetDimension}
    {current requested : UsageVector} : c.firstExhaustion d current requested = .none ↔
      ∀ m maximum, c.get m = some maximum →
        current.get m + requested.get m < 2 ^ 64 ∧ current.get m + requested.get m ≤ maximum := by
  unfold firstExhaustion
  rw [List.findSome?_eq_none_iff]
  constructor
  · intro h m maximum hm
    have hnone := h m m.mem_all
    simp only [hm, ite_eq_right_iff, reduceCtorEq, imp_false, Bool.not_eq_true] at hnone
    unfold exceeds at hnone
    split at hnone
    · rename_i hfits
      exact ⟨hfits, by simpa using hnone⟩
    · cases hnone
  · intro h m _
    split
    · rfl
    rename_i maximum hm
    obtain ⟨hfits, hle⟩ := h m maximum hm
    have hwi : exceeds (current.get m) (requested.get m) maximum = false := by
      unfold exceeds
      rw [if_pos hfits]
      exact decide_eq_false (Nat.not_lt.mpr hle)
    simp [hwi]

end BudgetCeilings

structure BudgetPolicy where
  dimension : BudgetDimension
  ceilings : BudgetCeilings
deriving DecidableEq

/-! ## 3. Requests -/

/-- `policies.sort_unstable_by_key(BudgetPolicy::dimension)`. -/
def sortPolicies (policies : List BudgetPolicy) : List BudgetPolicy :=
  policies.insertionSort fun p q => p.dimension.rank ≤ q.dimension.rank

/-- The loop of `ReservationRequest::new`: no policy is empty, out of scope or a duplicate. -/
def policiesAccepted (scope : BudgetScope) : Option BudgetDimension → List BudgetPolicy → Bool
  | _, [] => true
  | prior, policy :: rest =>
    !policy.ceilings.isEmpty && scope.containsDimension policy.dimension
      && decide (prior ≠ some policy.dimension)
      && policiesAccepted scope (some policy.dimension) rest

/-- The checks of `ReservationRequest::new` on the sorted policies. -/
def requestAccepted (scope : BudgetScope) (estimate : UsageBreakdown)
    (policies : List BudgetPolicy) : Bool :=
  match estimate.checkedTotal with
  | .error _ => false
  | .ok total =>
    !total.isZero && decide (total.requests ≠ 0) && policiesAccepted scope none policies

inductive RequestError
  | invalid

/-- A validated request for an atomic pre-dispatch reservation. -/
structure ReservationRequest where
  id : ReservationId
  idempotencyKey : IdempotencyKey
  fingerprint : RequestFingerprint
  scope : BudgetScope
  estimate : UsageBreakdown
  policies : List BudgetPolicy
  sorted : policies.Pairwise fun p q => p.dimension.rank ≤ q.dimension.rank
  accepted : requestAccepted scope estimate policies = true

theorem sorted_sortPolicies (policies : List BudgetPolicy) :
    (sortPolicies policies).Pairwise fun p q => p.dimension.rank ≤ q.dimension.rank := by
  exact List.pairwise_insertionSort _ policies

def ReservationRequest.new (id : ReservationId) (idempotencyKey : IdempotencyKey)
    (fingerprint : RequestFingerprint) (scope : BudgetScope) (estimate : UsageBreakdown)
    (policies : List BudgetPolicy) : Except RequestError ReservationRequest :=
  if h : requestAccepted scope estimate (sortPolicies policies) = true then
    .ok ⟨id, idempotencyKey, fingerprint, scope, estimate, sortPolicies policies,
      sorted_sortPolicies policies, h⟩
  else .error .invalid

/-! ## 4. Reservations -/

/-- Classified provider usage retained after dispatch. -/
inductive UsageEvidence
  | actual (usage : UsageBreakdown)
  | missing
  | ambiguous (observed : UsageBreakdown)
deriving DecidableEq

inductive UsageStatus
  | estimated | actual | missing | ambiguous
deriving DecidableEq

def UsageEvidence.status : UsageEvidence → UsageStatus
  | .actual _ => .actual
  | .missing => .missing
  | .ambiguous _ => .ambiguous

inductive ReservationState
  | reserved
  | committed (evidence : UsageEvidence)
  | reconciled (actual : UsageBreakdown)
  | released
deriving DecidableEq

inductive ReservationStateKind
  | reserved | committed | reconciled | released
deriving DecidableEq

def ReservationState.kind : ReservationState → ReservationStateKind
  | .reserved => .reserved
  | .committed _ => .committed
  | .reconciled _ => .reconciled
  | .released => .released

def ReservationState.usageStatus : ReservationState → UsageStatus
  | .reserved | .released => .estimated
  | .committed evidence => evidence.status
  | .reconciled _ => .actual

structure Reservation where
  id : ReservationId
  idempotencyKey : IdempotencyKey
  fingerprint : RequestFingerprint
  scope : BudgetScope
  estimate : UsageBreakdown
  policies : List BudgetPolicy
  state : ReservationState
  version : Nat
deriving DecidableEq

inductive LedgerEventKind
  | reserved | committed | reconciled | released
deriving DecidableEq

/-- Redacted append-only ledger event. -/
structure LedgerEvent where
  version : Nat
  kind : LedgerEventKind
  state : ReservationStateKind
  usageStatus : UsageStatus
  dimensions : DimensionSet
  effectiveUsage : UsageBreakdown
  adjustment : UsageDelta
deriving DecidableEq

namespace Reservation

def fromRequest (request : ReservationRequest) : Reservation :=
  ⟨request.id, request.idempotencyKey, request.fingerprint, request.scope, request.estimate,
    request.policies, .reserved, 0⟩

variable (r : Reservation)

/-- Conservatively accounted usage. -/
def effectiveUsage : UsageBreakdown :=
  match r.state with
  | .reserved => r.estimate
  | .committed .missing => r.estimate.withoutConcurrency
  | .committed (.ambiguous observed) => (r.estimate.conservativeMax observed).withoutConcurrency
  | .committed (.actual actual) | .reconciled actual => actual.withoutConcurrency
  | .released => .zero

/-- Whether an idempotent reserve exactly replays stored input. -/
def isReplayOf (request : ReservationRequest) : Bool :=
  decide (r.idempotencyKey = request.idempotencyKey ∧ r.fingerprint = request.fingerprint ∧
    r.scope = request.scope ∧ r.estimate = request.estimate ∧ r.policies = request.policies)

def transition (state : ReservationState) : Except VersionOverflow Reservation :=
  match checkedNext r.version with
  | .error e => .error e
  | .ok version => .ok { r with state := state, version := version }

end Reservation

def LedgerEvent.forTransition (kind : LedgerEventKind) (previous : UsageBreakdown)
    (r : Reservation) : Except ArithmeticError LedgerEvent :=
  match UsageDelta.between r.effectiveUsage previous with
  | .error e => .error e
  | .ok adjustment =>
    .ok ⟨r.version, kind, r.state.kind, r.state.usageStatus, r.scope.dimensions, r.effectiveUsage,
      adjustment⟩

def Reservation.initial (request : ReservationRequest) :
    Except ArithmeticError (Reservation × LedgerEvent) :=
  let reservation := fromRequest request
  match LedgerEvent.forTransition .reserved .zero reservation with
  | .error e => .error e
  | .ok event => .ok (reservation, event)

/-- **What an event says**: the reservation after the mutation, and the exact difference it made. -/
theorem LedgerEvent.forTransition_ok {kind : LedgerEventKind} {previous : UsageBreakdown}
    {r : Reservation} {e : LedgerEvent} (h : LedgerEvent.forTransition kind previous r = .ok e) :
    e.version = r.version ∧ e.kind = kind ∧ e.state = r.state.kind ∧
      e.usageStatus = r.state.usageStatus ∧ e.dimensions = r.scope.dimensions ∧
      e.effectiveUsage = r.effectiveUsage ∧ (∀ m, r.effectiveUsage.total m < 2 ^ 64) ∧
      ∀ m, e.adjustment.get m = (r.effectiveUsage.total m : Int) - previous.total m := by
  unfold forTransition at h
  split at h
  · cases h
  rename_i d hd
  cases h
  obtain ⟨hfits, -, hdt⟩ := UsageDelta.between_ok hd
  exact ⟨rfl, rfl, rfl, rfl, rfl, rfl, hfits, hdt⟩

theorem Reservation.initial_ok {request : ReservationRequest} {r : Reservation} {e : LedgerEvent}
    (h : Reservation.initial request = .ok (r, e)) : r = .fromRequest request ∧
      LedgerEvent.forTransition .reserved .zero r = .ok e := by
  unfold initial at h
  simp only at h
  split at h
  · cases h
  rename_i event hev
  cases h
  exact ⟨rfl, hev⟩

end Omnius.Ledger
