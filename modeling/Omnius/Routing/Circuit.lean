/-
# The circuit breaker: `crates/llm-routing/src/circuit.rs`

Evidence about providers is kept per SCOPE: a provider, an endpoint, a region or a model.  A scope
is closed until enough failures have been retained, then open for a while, then half-open: a bounded
number of probes may run, and only the outcome of a probe closes the scope again.

Everything the breaker stores is behind one mutex, and each call holds it from beginning to end, so
a call is one action of the machine below and a run is any interleaving of any number of callers.  A
permit is owned by one caller; `complete`, `release` and dropping it end its life.

**Instants come from the callers.**  Nothing makes them increase: a sample may be older than what is
stored, and a probe may be completed at an instant before the one it was acquired at.

**The clock ends.**  Opening a scope adds the open duration to an instant, and a sum that the clock
cannot represent panics, when the sample is already stored.  The next call recovers the poisoned
lock, so what a panicking call has stored stays: its functions return the entry or the book with
whether they came to their end.
-/
import Omnius.Lib.Machine
import Omnius.Lib.Table

namespace Omnius.Routing

open Omnius.Lib

/-! ## 1. Scopes -/

inductive CircuitError
  | invalidPolicy | invalidScope | scopeCapacityExceeded

inductive CircuitScopeKind
  | provider | endpoint | region | model
deriving DecidableEq

def maxScopeIdBytes : Nat := 256

def validateScopeId (value : String) : Bool :=
  !value.isEmpty && decide (value.utf8ByteSize ≤ maxScopeIdBytes)
    && value.toList.all fun c => c.isAlphanum || c = '-' || c = '_' || c = '.' || c = ':'

/-- A bounded, provider-neutral circuit evidence key. -/
structure CircuitScope where
  kind : CircuitScopeKind
  key : String
deriving DecidableEq

namespace CircuitScope

def provider (provider : String) : Except CircuitError CircuitScope :=
  if validateScopeId provider then .ok ⟨.provider, provider⟩ else .error .invalidScope

def endpoint (provider endpoint : String) : Except CircuitError CircuitScope :=
  if validateScopeId provider && validateScopeId endpoint then
    .ok ⟨.endpoint, provider ++ "\x1f" ++ endpoint⟩
  else .error .invalidScope

def region (provider region : String) : Except CircuitError CircuitScope :=
  if validateScopeId provider && validateScopeId region then
    .ok ⟨.region, provider ++ "\x1f" ++ region⟩
  else .error .invalidScope

def model (provider model revision : String) : Except CircuitError CircuitScope :=
  if validateScopeId provider && validateScopeId model && validateScopeId revision then
    .ok ⟨.model, provider ++ "\x1f" ++ model ++ "\x1f" ++ revision⟩
  else .error .invalidScope

def forCandidate (targetProvider targetModel revision endpointId regionId : String) :
    Except CircuitError (Vector CircuitScope 4) := do
  let providerScope ← provider targetProvider
  let endpointScope ← endpoint targetProvider endpointId
  let regionScope ← region targetProvider regionId
  let modelScope ← model targetProvider targetModel revision
  return #v[providerScope, endpointScope, regionScope, modelScope]

end CircuitScope

/-! ## 2. Policy and evidence -/

/-- Nanoseconds after the earliest instant of the callers' clock. -/
abbrev Instant := Nat

/-- The clock counts seconds in an `i64`. -/
def maxInstant : Instant := 2 ^ 64 * 10 ^ 9 - 1

/-- Immutable circuit bounds and transition thresholds. -/
structure CircuitPolicy where
  (maxScopes maxSamplesPerScope window failureThreshold openDuration halfOpenMaxProbes : Nat)
  scopes_pos : 0 < maxScopes
  samples_pos : 0 < maxSamplesPerScope
  window_pos : 0 < window
  threshold_pos : 0 < failureThreshold
  threshold_le : failureThreshold ≤ maxSamplesPerScope
  open_pos : 0 < openDuration
  probes_pos : 0 < halfOpenMaxProbes

def CircuitPolicy.new (maxScopes maxSamplesPerScope window failureThreshold openDuration
    halfOpenMaxProbes : Nat) : Except CircuitError CircuitPolicy :=
  if h : 0 < maxScopes ∧ 0 < maxSamplesPerScope ∧ 0 < window ∧ 0 < failureThreshold ∧
      failureThreshold ≤ maxSamplesPerScope ∧ 0 < openDuration ∧ 0 < halfOpenMaxProbes then
    .ok ⟨maxScopes, maxSamplesPerScope, window, failureThreshold, openDuration, halfOpenMaxProbes,
      h.1, h.2.1, h.2.2.1, h.2.2.2.1, h.2.2.2.2.1, h.2.2.2.2.2.1, h.2.2.2.2.2.2⟩
  else .error .invalidPolicy

inductive CircuitOutcome
  | success | transientFailure | timeout | throttled | providerFailure | credentialFailure
  | tenantFailure | callerFailure
deriving DecidableEq

def CircuitOutcome.countsTowardHealth : CircuitOutcome → Bool
  | .transientFailure | .timeout | .throttled | .providerFailure => true
  | .success | .credentialFailure | .tenantFailure | .callerFailure => false

def CircuitOutcome.isIsolated : CircuitOutcome → Bool
  | .credentialFailure | .tenantFailure | .callerFailure => true
  | .success | .transientFailure | .timeout | .throttled | .providerFailure => false

inductive CircuitState
  | closed | open | halfOpen
deriving DecidableEq

structure Evidence where
  observedAt : Instant
  outcome : CircuitOutcome

structure ScopeEntry where
  evidence : List Evidence
  openedUntil : Option Instant
  halfOpenProbes : Nat
  /-- A `u64`. -/
  probeGeneration : Nat

namespace ScopeEntry

def default : ScopeEntry := ⟨[], none, 0, 0⟩

variable (e : ScopeEntry)

def state (now : Instant) : CircuitState :=
  match e.openedUntil with
  | some until_ => if now < until_ then .open else .halfOpen
  | none => .closed

/-- `ScopeEntry::open`; the generation wraps around. -/
def openUntil (until_ : Instant) : ScopeEntry :=
  { e with
    openedUntil := some until_
    halfOpenProbes := 0
    probeGeneration := (e.probeGeneration + 1) % 2 ^ 64 }

/-- Drops samples from the front while they are older than the window; `now - observedAt` saturates,
as subtraction of numbers does. -/
def evictExpired (now : Instant) (window : Nat) : ScopeEntry :=
  { e with
    evidence := e.evidence.dropWhile fun sample => decide (window < now - sample.observedAt) }

def healthFailures : Nat :=
  e.evidence.countP fun sample => sample.outcome.countsTowardHealth

/-- The newest of what is stored and what is observed. -/
def timeline (observedAt : Instant) : Instant :=
  match e.evidence.getLast? with
  | none => observedAt
  | some sample => max sample.observedAt observedAt

/-- Inserts at the `partition_point`, behind every sample that is not newer. -/
def insertSample (sample : Evidence) : ScopeEntry :=
  { e with evidence :=
      e.evidence.takeWhile (fun other => decide (other.observedAt ≤ sample.observedAt)) ++
        sample :: e.evidence.dropWhile fun other => decide (other.observedAt ≤ sample.observedAt) }

/-- Drops samples from the front while there are too many. -/
def truncate (maxSamples : Nat) : ScopeEntry :=
  { e with evidence := e.evidence.drop (e.evidence.length - maxSamples) }

/-- Returns the entry, the timeline and the state before. -/
def recordEvidence (observedAt : Instant) (outcome : CircuitOutcome)
    (window maxSamples : Nat) : ScopeEntry × Instant × CircuitState :=
  let timeline := e.timeline observedAt
  let e := e.evictExpired timeline window
  let priorState := e.state timeline
  let e := e.insertSample ⟨observedAt, outcome⟩
  let e := e.evictExpired timeline window
  (e.truncate maxSamples, timeline, priorState)

end ScopeEntry

/-! ## 3. The calls -/

abbrev CircuitBook := Table CircuitScope ScopeEntry

structure ReservedProbe where
  scope : CircuitScope
  generation : Nat
deriving DecidableEq

structure CircuitEvidenceSummary where
  state : CircuitState
  (sampleCount healthFailureCount : Nat)

namespace CircuitPolicy

variable (policy : CircuitPolicy)

/-- `entry.open(timeline + open_duration)`: the sum comes first. -/
def openFrom (timeline : Instant) (entry : ScopeEntry) : ScopeEntry × Bool :=
  if timeline + policy.openDuration ≤ maxInstant then
    (entry.openUntil (timeline + policy.openDuration), true)
  else (entry, false)

/-- What `record` does to the entry of its scope. -/
def recordEntry (observedAt : Instant) (outcome : CircuitOutcome) (entry : ScopeEntry) :
    ScopeEntry × Bool :=
  match entry.recordEvidence observedAt outcome policy.window policy.maxSamplesPerScope with
  | (entry, timeline, priorState) =>
    if outcome = .success ∧ priorState = .closed then
      ({ entry with openedUntil := none, halfOpenProbes := 0 }, true)
    else if priorState = .closed ∧ outcome.countsTowardHealth = true ∧
        policy.failureThreshold ≤ entry.healthFailures then
      policy.openFrom timeline entry
    else (entry, true)

/-- Whether there is no room for the scope. -/
def full (book : CircuitBook) (scope : CircuitScope) : Bool :=
  (book.lookup scope).isNone && decide (policy.maxScopes ≤ book.size)

/-- No result is a panic. -/
def record (book : CircuitBook) (scope : CircuitScope) (observedAt : Instant)
    (outcome : CircuitOutcome) : Option (Except CircuitError Unit) × CircuitBook :=
  if policy.full book scope then (some (.error .scopeCapacityExceeded), book)
  else
    match policy.recordEntry observedAt outcome ((book.lookup scope).getD .default) with
    | (entry, returned) => (if returned then some (.ok ()) else none, book.insert scope entry)

/-- The first loop of `acquire_scopes`: no scope is open or saturated. -/
def admits (book : CircuitBook) (now : Instant) (scope : CircuitScope) : Bool :=
  match book.lookup scope with
  | none => true
  | some entry =>
    match entry.state now with
    | .open => false
    | .halfOpen => decide (entry.halfOpenProbes < policy.halfOpenMaxProbes)
    | .closed => true

/-- The second loop: a slot in every half-open scope. -/
def reserveScopes (now : Instant) : CircuitBook → List CircuitScope →
    List ReservedProbe × CircuitBook
  | book, [] => ([], book)
  | book, scope :: rest =>
    match book.lookup scope with
    | some entry =>
      if entry.state now = .halfOpen then
        let book := book.insert scope { entry with halfOpenProbes := entry.halfOpenProbes + 1 }
        match reserveScopes now book rest with
        | (reserved, book) => (⟨scope, entry.probeGeneration⟩ :: reserved, book)
      else reserveScopes now book rest
    | none => reserveScopes now book rest

def acquireScopes (book : CircuitBook) (scopes : List CircuitScope) (now : Instant) :
    Option (List ReservedProbe) × CircuitBook :=
  if scopes.all (policy.admits book now) then
    match reserveScopes now book scopes with
    | (reserved, book) => (some reserved, book)
  else (none, book)

/-- A summary evicts at the instant it is asked for. -/
def evidenceSummary (book : CircuitBook) (scope : CircuitScope) (now : Instant) :
    CircuitEvidenceSummary × CircuitBook :=
  match book.lookup scope with
  | none => (⟨.closed, 0, 0⟩, book)
  | some entry =>
    let entry := entry.evictExpired now policy.window
    (⟨entry.state now, entry.evidence.length, entry.healthFailures⟩, book.insert scope entry)

/-- What `complete_probe` does to the entry of a probe. -/
def completeEntry (generation : Nat) (observedAt : Instant) (outcome : CircuitOutcome)
    (entry : ScopeEntry) : ScopeEntry × Bool :=
  if entry.probeGeneration ≠ generation ∨ entry.state (entry.timeline observedAt) ≠ .halfOpen then
    (entry, true)
  else
    match entry.recordEvidence observedAt outcome policy.window policy.maxSamplesPerScope with
    | (entry, timeline, _) =>
      if outcome = .success then
        ({ entry with
          evidence := [⟨timeline, outcome⟩]
          openedUntil := none
          halfOpenProbes := 0 }, true)
      else if outcome.countsTowardHealth then policy.openFrom timeline entry
      else ({ entry with halfOpenProbes := entry.halfOpenProbes - 1 }, true)

/-- The loop over the probes ends with the first one that panics. -/
def completeProbe (observedAt : Instant) (outcome : CircuitOutcome) :
    CircuitBook → List ReservedProbe → CircuitBook × Bool
  | book, [] => (book, true)
  | book, probe :: rest =>
    match book.lookup probe.scope with
    | none => completeProbe observedAt outcome book rest
    | some entry =>
      match policy.completeEntry probe.generation observedAt outcome entry with
      | (entry, true) => completeProbe observedAt outcome (book.insert probe.scope entry) rest
      | (entry, false) => (book.insert probe.scope entry, false)

end CircuitPolicy

/-- One pass of the loop of `release_probes`. -/
def releaseEntry (generation : Nat) (entry : ScopeEntry) : ScopeEntry :=
  if entry.probeGeneration = generation then
    { entry with halfOpenProbes := entry.halfOpenProbes - 1 }
  else entry

def releaseProbes (book : CircuitBook) (scopes : List ReservedProbe) : CircuitBook :=
  scopes.foldl (fun book probe => book.modify probe.scope (releaseEntry probe.generation)) book

/-- Owned reservation for one or more half-open circuit probes. -/
structure CircuitProbePermit where
  scopes : List ReservedProbe
  active : Bool

/-! ## 4. The machine -/

structure World where
  book : CircuitBook
  /-- Every permit that has not been dropped. -/
  permits : Table Nat CircuitProbePermit
  nextPermit : Nat

inductive Action
  | record (scope : CircuitScope) (observedAt : Instant) (outcome : CircuitOutcome)
  | tryAcquire (scope : CircuitScope) (now : Instant)
  | tryAcquireCandidate (scopes : Vector CircuitScope 4) (now : Instant)
  | evidenceSummary (scope : CircuitScope) (now : Instant)
  | complete (permit : Nat) (observedAt : Instant) (outcome : CircuitOutcome)
  | release (permit : Nat)
  | drop (permit : Nat)

namespace World

def start : World := ⟨∅, ∅, 0⟩

/-- What is stored for a scope; a scope that is not stored is like a fresh one. -/
def entry (w : World) (scope : CircuitScope) : ScopeEntry := (w.book.lookup scope).getD .default

def acquire (policy : CircuitPolicy) (w : World) (scopes : List CircuitScope) (now : Instant) :
    World :=
  match policy.acquireScopes w.book scopes now with
  | (none, _) => w
  | (some reserved, book) =>
    { book := book
      permits := w.permits.insert w.nextPermit ⟨reserved, true⟩
      nextPermit := w.nextPermit + 1 }

def step (policy : CircuitPolicy) (w : World) : Action → Option World
  | .record scope observedAt outcome =>
    some { w with book := (policy.record w.book scope observedAt outcome).2 }
  | .tryAcquire scope now => some (w.acquire policy [scope] now)
  | .tryAcquireCandidate scopes now => some (w.acquire policy scopes.toList now)
  | .evidenceSummary scope now =>
    some { w with book := (policy.evidenceSummary w.book scope now).2 }
  | .complete id observedAt outcome =>
    (w.permits.lookup id).map fun permit =>
      if permit.active then
        -- a permit whose completion panics is still active when it is dropped
        match policy.completeProbe observedAt outcome w.book permit.scopes with
        | (book, true) =>
          { w with book := book, permits := w.permits.insert id { permit with active := false } }
        | (book, false) => { w with book := book }
      else w
  | .release id =>
    (w.permits.lookup id).map fun permit =>
      if permit.active then
        { w with
          book := releaseProbes w.book permit.scopes
          permits := w.permits.insert id { permit with active := false } }
      else w
  | .drop id =>
    (w.permits.lookup id).map fun permit =>
      { w with
        book := if permit.active then releaseProbes w.book permit.scopes else w.book
        permits := w.permits.erase id }

end World

def circuit (policy : CircuitPolicy) : Machine World Action where
  start := .start
  step := World.step policy

end Omnius.Routing
