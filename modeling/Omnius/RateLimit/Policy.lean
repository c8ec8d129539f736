/-
# Rate-limit policies, requests and decisions

The Rust side of the distributed limiter (`rate-limit-redis/src/lib.rs`): what the three policy
constructors accept, what `RateLimitRequest::new` accepts, and how `parse_script_decision` reads
the four integers the Lua script replies with.

The key fingerprint and the policy's storage token are SHA-256 digests that only choose WHICH
Redis key the script runs on; every statement here is about one key, so neither is modelled.
-/
import Mathlib.Algebra.Order.Ring.Int

namespace Omnius.RateLimit

/-! ## 1. Durations -/

/-- A `std::time::Duration`, in nanoseconds. -/
structure Duration where
  nanos : Nat

namespace Duration

def fromMillis (ms : Nat) : Duration := ⟨ms * 1000000⟩

def fromHours (h : Nat) : Duration := ⟨h * 3600 * 1000000000⟩

def subsecNanos (d : Duration) : Nat := d.nanos % 1000000000

def asMicros (d : Duration) : Nat := d.nanos / 1000

end Duration

def maxLimit : Nat := 100000

def maxBurst : Nat := 100000

def maxPeriod : Duration := .fromHours 24

def maxStateTtl : Duration := .fromHours 168

def maxStateTtlMillis : Nat := 7 * 24 * 60 * 60 * 1000

/-! ## 2. Policies -/

inductive RateLimitAlgorithm
  | fixedWindow | slidingWindow | gcra
deriving DecidableEq

def RateLimitAlgorithm.scriptCode : RateLimitAlgorithm → Nat
  | .fixedWindow => 1
  | .slidingWindow => 2
  | .gcra => 3

structure RateLimitPolicy where
  algorithm : RateLimitAlgorithm
  (limit periodUs burst : Nat)

inductive RateLimitPolicyError
  | invalidLimit | invalidPeriod | rateExceedsClockResolution | invalidBurst | retentionTooLong

/-- Whole microseconds of a period between one millisecond and one day. -/
def durationMicros (d : Duration) : Except RateLimitPolicyError Nat :=
  if d.nanos < (Duration.fromMillis 1).nanos ∨ maxPeriod.nanos < d.nanos
      ∨ d.subsecNanos % 1000 ≠ 0 then
    .error .invalidPeriod
  else
    .ok d.asMicros

/-- `u64::checked_mul`, with the error its caller maps `None` to. -/
def checkedMul (a b : Nat) : Except RateLimitPolicyError Nat :=
  if a * b < 2 ^ 64 then .ok (a * b) else .error .retentionTooLong

/-- `u64::div_ceil`. -/
def divCeil (a b : Nat) : Nat := (a + b - 1) / b

/-- The longest time one state of the policy is kept, in microseconds. -/
def retentionUs (algorithm : RateLimitAlgorithm) (limit periodUs burst : Nat) :
    Except RateLimitPolicyError Nat :=
  match algorithm with
  | .fixedWindow => .ok periodUs
  | .slidingWindow => checkedMul periodUs 2
  | .gcra => checkedMul (divCeil periodUs limit) burst

def RateLimitPolicy.new (algorithm : RateLimitAlgorithm) (limit : Nat) (period : Duration)
    (burst : Nat) : Except RateLimitPolicyError RateLimitPolicy :=
  if limit = 0 ∨ maxLimit < limit then
    .error .invalidLimit
  else if burst = 0 ∨ maxBurst < burst then
    .error .invalidBurst
  else
    match durationMicros period with
    | .error e => .error e
    | .ok periodUs =>
      if algorithm = .gcra ∧ periodUs < limit then
        .error .rateExceedsClockResolution
      else
        match retentionUs algorithm limit periodUs burst with
        | .error e => .error e
        | .ok retention =>
          if maxStateTtl.asMicros < retention then
            .error .retentionTooLong
          else
            .ok ⟨algorithm, limit, periodUs, burst⟩

def RateLimitPolicy.fixedWindow (limit : Nat) (period : Duration) :=
  RateLimitPolicy.new .fixedWindow limit period limit

def RateLimitPolicy.slidingWindow (limit : Nat) (period : Duration) :=
  RateLimitPolicy.new .slidingWindow limit period limit

def RateLimitPolicy.gcra (rate : Nat) (period : Duration) (burst : Nat) :=
  RateLimitPolicy.new .gcra rate period burst

section

variable (p : RateLimitPolicy)

/-- A policy one of the three public constructors returned. -/
def RateLimitPolicy.Accepted : Prop :=
  (∃ limit period, RateLimitPolicy.fixedWindow limit period = .ok p) ∨
  (∃ limit period, RateLimitPolicy.slidingWindow limit period = .ok p) ∨
  (∃ rate period burst, RateLimitPolicy.gcra rate period burst = .ok p)

def RateLimitPolicy.maxCost : Nat :=
  match p.algorithm with
  | .fixedWindow | .slidingWindow => p.limit
  | .gcra => p.burst

def RateLimitPolicy.capacity : Nat := p.maxCost

end

/-! ## 3. Requests and decisions -/

structure RateLimitRequest where
  policy : RateLimitPolicy
  cost : Nat

inductive RateLimitRequestError
  | invalidCost

def RateLimitRequest.new (policy : RateLimitPolicy) (cost : Nat) :
    Except RateLimitRequestError RateLimitRequest :=
  if cost = 0 ∨ policy.maxCost < cost then .error .invalidCost else .ok ⟨policy, cost⟩

inductive FailurePolicy
  | closed
  | «open»
deriving DecidableEq

inductive DecisionReason
  | withinLimit | limitExceeded | backendUnavailable

structure RateLimitDecision where
  allowed : Bool
  reason : DecisionReason
  remaining : Option Nat
  (retryAfter resetAfter : Option Duration)

namespace RateLimitDecision

def allow (remaining : Nat) (resetAfter : Duration) : RateLimitDecision :=
  ⟨true, .withinLimit, some remaining, none, some resetAfter⟩

def deny (remaining : Nat) (retryAfter resetAfter : Duration) : RateLimitDecision :=
  ⟨false, .limitExceeded, some remaining, some retryAfter, some resetAfter⟩

def unavailable (policy : FailurePolicy) : RateLimitDecision :=
  ⟨decide (policy = .open), .backendUnavailable, none, none, none⟩

end RateLimitDecision

/-- The script's reply: allowed flag, remaining capacity, retry and reset in milliseconds. -/
structure ScriptReply where
  (allowed remaining retryMs resetMs : Int)

/-- `parse_script_decision`: the reply is believed only when it is consistent with the policy. -/
def parseScriptDecision (raw : ScriptReply) (policy : RateLimitPolicy) :
    Option RateLimitDecision :=
  if ¬ (raw.allowed = 0 ∨ raw.allowed = 1) ∨ raw.resetMs ≤ 0 then
    none
  -- the three `try_from` conversions, to `u32` and twice to `u64`
  else if raw.remaining < 0 ∨ 2 ^ 32 ≤ raw.remaining ∨ raw.retryMs < 0 ∨ raw.resetMs < 0 then
    none
  else if policy.capacity < raw.remaining ∨ maxStateTtlMillis < raw.retryMs
      ∨ maxStateTtlMillis < raw.resetMs ∨ (raw.allowed = 1 ∧ raw.retryMs ≠ 0)
      ∨ (raw.allowed = 0 ∧ raw.retryMs = 0) then
    none
  else if raw.allowed = 1 then
    some (.allow raw.remaining.toNat (.fromMillis raw.resetMs.toNat))
  else
    some (.deny raw.remaining.toNat (.fromMillis raw.retryMs.toNat)
      (.fromMillis raw.resetMs.toNat))

/-! ## 4. What acceptance gives -/

/-- The bounds that every accepted policy meets, whichever constructor made it. -/
structure RateLimitPolicy.Bounds (p : RateLimitPolicy) : Prop where
  limit_pos : 0 < p.limit
  limit_le : p.limit ≤ 100000
  burst_pos : 0 < p.burst
  burst_le : p.burst ≤ 100000
  period_ge : 1000 ≤ p.periodUs
  period_le : p.periodUs ≤ 86400000000
  /-- A GCRA emission interval is at least one clock tick. -/
  rate_le : p.algorithm = .gcra → p.limit ≤ p.periodUs
  /-- A full GCRA burst is retained for at most seven days. -/
  retention_le : p.algorithm = .gcra → divCeil p.periodUs p.limit * p.burst ≤ 604800000000

theorem durationMicros_bounds {d : Duration} {us : Nat} (h : durationMicros d = .ok us) :
    1000 ≤ us ∧ us ≤ 86400000000 := by
  unfold durationMicros at h
  split at h
  · cases h
  rename_i hd
  simp only [Duration.fromMillis, maxPeriod, Duration.fromHours, not_or, not_lt] at hd
  simp only [Except.ok.injEq, Duration.asMicros] at h
  omega

theorem checkedMul_ok {a b c : Nat} (h : checkedMul a b = .ok c) : c = a * b := by
  unfold checkedMul at h
  split at h
  · simpa using h.symm
  · cases h

variable {p : RateLimitPolicy}

theorem RateLimitPolicy.new_bounds {algorithm : RateLimitAlgorithm} {limit burst : Nat}
    {period : Duration} (h : RateLimitPolicy.new algorithm limit period burst = .ok p) :
    p.Bounds ∧ p.algorithm = algorithm ∧ p.limit = limit ∧ p.burst = burst := by
  unfold RateLimitPolicy.new at h
  split at h
  · cases h
  rename_i hlimit
  split at h
  · cases h
  rename_i hburst
  split at h
  · cases h
  rename_i periodUs hperiod
  split at h
  · cases h
  rename_i hrate
  split at h
  · cases h
  rename_i retention hret
  split at h
  · cases h
  rename_i httl
  simp only [Except.ok.injEq] at h
  subst h
  have hper := durationMicros_bounds hperiod
  simp only [maxLimit, maxBurst, not_or, not_lt] at hlimit hburst
  refine ⟨⟨?_, hlimit.2, ?_, hburst.2, hper.1, hper.2, ?_, ?_⟩, rfl, rfl, rfl⟩
  · exact Nat.pos_of_ne_zero hlimit.1
  · exact Nat.pos_of_ne_zero hburst.1
  · intro halg
    exact Nat.le_of_not_lt fun hlt => hrate ⟨halg, hlt⟩
  · intro halg
    subst halg
    have hmul := checkedMul_ok hret
    simp only [maxStateTtl, Duration.fromHours, Duration.asMicros, not_lt] at httl
    simp only
    omega

/-- **Acceptance gives the bounds**, and a counter policy's burst is its limit. -/
theorem RateLimitPolicy.Accepted.bounds (h : p.Accepted) : p.Bounds := by
  rcases h with ⟨_, _, h⟩ | ⟨_, _, h⟩ | ⟨_, _, _, h⟩
  · exact (RateLimitPolicy.new_bounds h).1
  · exact (RateLimitPolicy.new_bounds h).1
  · exact (RateLimitPolicy.new_bounds h).1

theorem RateLimitRequest.new_ok_iff {cost : Nat} {r : RateLimitRequest} :
    RateLimitRequest.new p cost = .ok r ↔ (0 < cost ∧ cost ≤ p.maxCost) ∧ r = ⟨p, cost⟩ := by
  unfold RateLimitRequest.new
  split
  · simp only [reduceCtorEq, false_iff, not_and]
    omega
  rename_i h
  simp only [not_or, not_lt] at h
  simp only [Except.ok.injEq]
  constructor
  · rintro rfl
    exact ⟨⟨Nat.pos_of_ne_zero h.1, h.2⟩, rfl⟩
  · rintro ⟨_, rfl⟩
    rfl

theorem parseScriptDecision_isSome {raw : ScriptReply}
    (hflag : (raw.allowed = 1 ∧ raw.retryMs = 0) ∨ (raw.allowed = 0 ∧ 0 < raw.retryMs))
    (hrem : 0 ≤ raw.remaining) (hcap : raw.remaining ≤ p.capacity) (hu32 : p.capacity ≤ 100000)
    (hretry : raw.retryMs ≤ 604800000) (hreset : 0 < raw.resetMs)
    (hreset' : raw.resetMs ≤ 604800000) : (parseScriptDecision raw p).isSome := by
  unfold parseScriptDecision
  have h1 : ¬ (¬ (raw.allowed = 0 ∨ raw.allowed = 1) ∨ raw.resetMs ≤ 0) := by omega
  have h2 : ¬ (raw.remaining < 0 ∨ 2 ^ 32 ≤ raw.remaining ∨ raw.retryMs < 0
      ∨ raw.resetMs < 0) := by omega
  have h3 : ¬ ((p.capacity : Int) < raw.remaining ∨ (maxStateTtlMillis : Int) < raw.retryMs
      ∨ (maxStateTtlMillis : Int) < raw.resetMs ∨ (raw.allowed = 1 ∧ raw.retryMs ≠ 0)
      ∨ (raw.allowed = 0 ∧ raw.retryMs = 0)) := by
    simp only [maxStateTtlMillis]
    omega
  rw [if_neg h1, if_neg h2, if_neg h3]
  split <;> rfl

end Omnius.RateLimit
