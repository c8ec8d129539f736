/-
# The Lua script, and the key it runs on

`rate_limit.lua` decides every request in one atomic `EVAL`.  This file is the script, branch by
branch, and the machine that runs it again and again on ONE Redis key: the clock reading of each
run is the caller's, only never smaller than the one before, and the key may vanish at any reading
at or after the deadline the script's last `PEXPIRE` set.

Lua computes in doubles.  For an accepted policy every number of the script is whole and below
`2 ^ 53`, hence exact, but for ONE: the sliding window's `candidate` (`luaNumber`).

Redis itself hides a key only once its millisecond clock is PAST the deadline, so it drops a key
no earlier than this machine may.

The machine also keeps what no code keeps: the log of every request the script allowed.  The
script never reads it; the statements about windows and bursts are statements about it.
-/
import Omnius.Lib.CostLog
import Omnius.Lib.Machine
import Omnius.RateLimit.Policy

namespace Omnius.RateLimit

open Omnius.Lib

/-! ## 1. Lua arithmetic -/

/-- `math.ceil(a / b)` on integers. -/
def luaCeil (a b : Int) : Int := -(-a / b)

/-- `math.max(1, math.floor((microseconds + 999) / 1000))`. -/
def ttlMillis (microseconds : Int) : Int := max 1 ((microseconds + 999) / 1000)

/-- A whole number up to `2 ^ 54` as a Lua number, a binary64: past `2 ^ 53` only the even ones are
there, and a tie goes to the multiple of four. -/
def luaNumber (n : Int) : Int :=
  if n ≤ 2 ^ 53 then n else if n % 4 = 1 then n - 1 else if n % 4 = 3 then n + 1 else n

theorem luaNumber_le_iff {n m : Int} (hm : m < 2 ^ 53) : luaNumber n ≤ m ↔ n ≤ m := by
  unfold luaNumber
  split_ifs <;> omega

theorem luaCeil_le_iff {a b n : Int} (hb : 0 < b) : luaCeil a b ≤ n ↔ a ≤ n * b := by
  unfold luaCeil
  rw [neg_le, Int.le_ediv_iff_mul_le hb]
  constructor <;> intro h <;> linarith

theorem le_luaCeil_mul {a b : Int} (hb : 0 < b) : a ≤ luaCeil a b * b :=
  (luaCeil_le_iff hb).mp (le_refl _)

theorem luaCeil_pos {a b : Int} (ha : 0 < a) (hb : 0 < b) : 0 < luaCeil a b := by
  by_contra h
  have := (luaCeil_le_iff hb).mp (not_lt.mp h)
  linarith

/-- The Rust `div_ceil` of the policy and the script's `math.ceil` are the same number. -/
theorem luaCeil_natCast {a b : Nat} (hb : 0 < b) : luaCeil (a : Int) b = divCeil a b := by
  have hb' : (0 : Int) < b := by exact_mod_cast hb
  have hle : a ≤ divCeil a b * b := by
    unfold divCeil
    have := Nat.lt_div_mul_add (a := a + b - 1) hb
    omega
  have hge : divCeil a b * b ≤ a + b - 1 := Nat.div_mul_le_self _ _
  refine le_antisymm ((luaCeil_le_iff hb').mpr (by exact_mod_cast hle)) ?_
  by_contra h
  rw [not_le] at h
  have h1 := le_luaCeil_mul (a := (a : Int)) hb'
  have h2 : (luaCeil a b + 1) * (b : Int) ≤ divCeil a b * b :=
    mul_le_mul_of_nonneg_right h (le_of_lt hb')
  have h3 : ((divCeil a b * b : Nat) : Int) ≤ ((a + b - 1 : Nat) : Int) := by exact_mod_cast hge
  rw [Nat.cast_sub (by omega)] at h3
  push_cast at h3
  linarith

theorem ttlMillis_pos (us : Int) : 0 < ttlMillis us := by unfold ttlMillis; omega

/-- A deadline is never earlier than the time it was rounded up from. -/
theorem le_ttlMillis_mul (us : Int) : us ≤ ttlMillis us * 1000 := by unfold ttlMillis; omega

theorem ttlMillis_le {us ms : Int} (h1 : 1 ≤ ms) (h : us ≤ ms * 1000) : ttlMillis us ≤ ms := by
  unfold ttlMillis
  omega

/-! ## 2. The key -/

/-- The hash fields the script reads and writes. -/
inductive Field
  | window | count | current | previous | tat
deriving DecidableEq

/-- What a Redis key holds: the limiter's hash, or a value of another Redis type. -/
inductive KeyValue
  | hash (fields : Field → Option Int)
  | foreign

/-- `HSET`: the given fields are overwritten, the others stay. -/
def KeyValue.hset (v : Option KeyValue) (writes : List (Field × Int)) : KeyValue :=
  let old : Field → Option Int := match v with
    | some (.hash fields) => fields
    | _ => fun _ => none
  .hash fun f => ((writes.find? fun w => w.1 = f).map Prod.snd).or (old f)

/-- `read_integer`: `.ok none` is Lua's `nil`, `.error` its `false`. -/
def readInteger (v : Option KeyValue) (f : Field) : Except Unit (Option Int) :=
  match v with
  | some (.hash fields) =>
    match fields f with
    | none => .ok none
    | some n => if n < 0 then .error () else .ok (some n)
  | _ => .ok none

/-! ## 3. The script -/

structure ScriptArgs where
  (algorithm limit period burst cost maxStateTtl : Int)

/-- The two `redis.error_reply` texts. -/
inductive ScriptError
  | invalidState | invalidArgument

def ScriptError.text : ScriptError → String
  | .invalidState => "OMNIUS_RATE_LIMIT_INVALID_STATE"
  | .invalidArgument => "OMNIUS_RATE_LIMIT_INVALID_ARGUMENT"

/-- A run that did not fail: the reply, what the key holds now, and the `PEXPIRE` argument. -/
structure ScriptOutcome where
  reply : ScriptReply
  /-- The script's `retry_us`, before it is rounded to the reply's milliseconds. -/
  retryUs : Int
  value : Option KeyValue
  expireMs : Int

section

variable (a : ScriptArgs)

/-- `algorithm == 1`, from the point where window and count are known. -/
def fixedWindowDecide (now : Int) (v : Option KeyValue) (window count : Int) :
    ScriptOutcome :=
  let allowed := decide (count + a.cost ≤ a.limit)
  let count := if allowed then count + a.cost else count
  let resetUs := (window + 1) * a.period - now
  let retryUs := if allowed then 0 else resetUs
  { reply :=
      ⟨if allowed then 1 else 0, max 0 (a.limit - count), (retryUs + 999) / 1000,
        ttlMillis resetUs⟩
    retryUs
    value := some (KeyValue.hset v [(.window, window), (.count, count)])
    expireMs := ttlMillis resetUs }

def fixedWindowScript (now : Int) (v : Option KeyValue) :
    Except ScriptError ScriptOutcome :=
  let window := now / a.period
  match readInteger v .window, readInteger v .count with
  | .ok none, .ok none => .ok (fixedWindowDecide a now v window 0)
  | .ok (some storedWindow), .ok (some count) =>
    if window < storedWindow ∨ a.limit < count then
      .error .invalidState
    else
      .ok (fixedWindowDecide a now v window (if storedWindow = window then count else 0))
  | _, _ => .error .invalidState

/-- When a refused sliding-window request may be tried again: while the previous window still
weighs in, or else after the boundary, when the current one has become the previous. -/
def slidingRetryUs (excess untilBoundary current previous : Int) : Int :=
  if 0 < previous ∧ luaCeil excess previous ≤ untilBoundary then luaCeil excess previous
  else if 0 < current then
    untilBoundary + luaCeil (max 0 (current + a.cost - a.limit) * a.period) current
  else untilBoundary

variable (now : Int) (v : Option KeyValue)

/-- `algorithm == 2`, from the point where the two counters are those of `window` and of the
window before it. -/
def slidingWindowDecide
    (window current previous : Int) : ScriptOutcome :=
  let elapsed := now - window * a.period
  let weighted := current * a.period + previous * (a.period - elapsed)
  let candidate := weighted + a.cost * a.period
  let allowed := decide (candidate ≤ a.limit * a.period)
  let current := if allowed then current + a.cost else current
  let weighted := if allowed then candidate else weighted
  let stateTtlUs := 2 * a.period - elapsed
  -- the sum may pass `2 ^ 53`; the comparison above does not feel it, this difference does
  let excess := luaNumber candidate - a.limit * a.period
  let untilBoundary := a.period - elapsed
  let retryUs := if allowed then 0 else slidingRetryUs a excess untilBoundary current previous
  { reply :=
      ⟨if allowed then 1 else 0, max 0 ((a.limit * a.period - weighted) / a.period),
        (retryUs + 999) / 1000, ttlMillis stateTtlUs⟩
    retryUs
    value := some (KeyValue.hset v
      [(.window, window), (.current, current), (.previous, previous)])
    expireMs := ttlMillis stateTtlUs }

def slidingWindowScript :
    Except ScriptError ScriptOutcome :=
  let window := now / a.period
  match readInteger v .window, readInteger v .current, readInteger v .previous with
  | .ok none, .ok none, .ok none => .ok (slidingWindowDecide a now v window 0 0)
  | .ok (some storedWindow), .ok (some current), .ok (some previous) =>
    if a.limit < current ∨ a.limit < previous then
      .error .invalidState
    else if window < storedWindow then
      .error .invalidState
    else if storedWindow < window then
      .ok (slidingWindowDecide a now v window 0 (if window - storedWindow = 1 then current else 0))
    else
      .ok (slidingWindowDecide a now v window current previous)
  | _, _, _ => .error .invalidState

/-- The last branch when the request is allowed: `candidate_tat` becomes the stored arrival
time. -/
def gcraAllow (interval candidateTat : Int) :
    ScriptOutcome :=
  let resetUs := max interval (candidateTat - now)
  { reply :=
      ⟨1, max 0 ((a.burst * interval - (candidateTat - now)) / interval), 0, ttlMillis resetUs⟩
    retryUs := 0
    value := some (KeyValue.hset v [(.tat, candidateTat)])
    expireMs := ttlMillis resetUs }

/-- The last branch when it is refused: the hash stays, only its deadline is set again. -/
def gcraRefuse (interval tat : Int) :
    ScriptOutcome :=
  let allowAt := tat + a.cost * interval - a.burst * interval
  let resetUs := max interval (tat - now)
  { reply :=
      ⟨0, max 0 ((a.burst * interval - (tat - now)) / interval), ttlMillis (allowAt - now),
        ttlMillis resetUs⟩
    retryUs := allowAt - now
    value := v
    expireMs := ttlMillis resetUs }

/-- The last branch, from the point where `tat` is at least `now`. -/
def gcraDecide (interval tat : Int) :
    Except ScriptError ScriptOutcome :=
  let candidateTat := tat + a.cost * interval
  if a.maxStateTtl < candidateTat - now then
    .error .invalidState
  else if candidateTat - a.burst * interval ≤ now then
    .ok (gcraAllow a now v interval candidateTat)
  else
    .ok (gcraRefuse a now v interval tat)

def gcraScript :
    Except ScriptError ScriptOutcome :=
  let interval := luaCeil a.period a.limit
  match readInteger v .tat with
  | .error _ => .error .invalidState
  | .ok none => gcraDecide a now v interval now
  | .ok (some storedTat) =>
    if a.maxStateTtl < storedTat - now then .error .invalidState
    else gcraDecide a now v interval (max storedTat now)

/-- `rate_limit.lua`. -/
def rateLimitScript :
    Except ScriptError ScriptOutcome :=
  match v with
  | some .foreign => .error .invalidState
  | _ =>
    if a.algorithm < 1 ∨ 3 < a.algorithm ∨ a.limit < 1 ∨ a.period < 1 ∨ a.burst < 1 ∨ a.cost < 1
        ∨ a.maxStateTtl < 1 then
      .error .invalidArgument
    else if a.algorithm = 1 then fixedWindowScript a now v
    else if a.algorithm = 2 then slidingWindowScript a now v
    else gcraScript a now v

end

/-! ## 4. The limiter on one key -/

/-- The arguments `check_inner` binds to the `EVAL`. -/
def scriptArgs (p : RateLimitPolicy) (cost : Nat) : ScriptArgs where
  algorithm := p.algorithm.scriptCode
  limit := p.limit
  period := p.periodUs
  burst := p.burst
  cost := cost
  maxStateTtl := maxStateTtl.asMicros

/-- A Redis key that exists: its value, and the deadline (µs) of its last `PEXPIRE`. -/
structure RedisKey where
  value : KeyValue
  expireAt : Int

structure Limiter where
  key : Option RedisKey
  /-- The last clock reading. -/
  clock : Int
  /-- Every request the script has allowed, with its reading and cost, newest first. -/
  log : List Entry

/-- One call: its cost, the reading of `TIME`, and whether the key is gone by then. -/
structure Call where
  cost : Nat
  now : Int
  expired : Bool

/-- What the key holds when the call's script starts; `none` when Redis could not have dropped
the key yet. -/
def Limiter.visible (l : Limiter) (c : Call) : Option (Option KeyValue) :=
  match l.key with
  | none => some none
  | some k =>
    if c.expired then (if k.expireAt ≤ c.now then some none else none) else some (some k.value)

def Limiter.reply (p : RateLimitPolicy) (l : Limiter) (c : Call) :
    Option (Except ScriptError ScriptOutcome) :=
  (l.visible c).map (rateLimitScript (scriptArgs p c.cost) c.now)

def Limiter.allows (p : RateLimitPolicy) (l : Limiter) (c : Call) : Bool :=
  match l.reply p c with
  | some (.ok o) => o.reply.allowed = 1
  | _ => false

/-- The key after a run of the script: `PEXPIRE` counts from the reading, and on a key that does
not exist it does nothing. -/
def ScriptOutcome.key (o : ScriptOutcome) (now : Int) : Option RedisKey :=
  o.value.map fun v => ⟨v, now + o.expireMs * 1000⟩

/-- The log after a call that was or was not allowed. -/
def Limiter.record (l : Limiter) (c : Call) (allowed : Bool) : List Entry :=
  if allowed then ⟨c.now, c.cost⟩ :: l.log else l.log

/-- The limiter after one call.  A call is one that `RateLimitRequest::new` accepts, at a reading
not before the last. -/
def Limiter.step (p : RateLimitPolicy) (l : Limiter) (c : Call) : Option Limiter :=
  match RateLimitRequest.new p c.cost with
  | .error _ => none
  | .ok _ =>
    if c.now < l.clock then none
    else
      match l.visible c, l.reply p c with
      | some _, some (.ok o) =>
        some ⟨o.key c.now, c.now, l.record c (o.reply.allowed = 1)⟩
      | some v, some (.error _) => some ⟨if v.isSome then l.key else none, c.now, l.log⟩
      | _, _ => none

/-- The machine of one policy on one key, from an absent key. -/
def limiter (p : RateLimitPolicy) : Machine Limiter Call where
  start := ⟨none, 0, []⟩
  step := Limiter.step p

/-- `check_inner` on what the backend returned: an error reply and a reply that does not parse
both become the failure policy's decision. -/
def checkInner (failure : FailurePolicy) (p : RateLimitPolicy)
    (result : Except ScriptError ScriptOutcome) : RateLimitDecision :=
  match result with
  | .ok o => (parseScriptDecision o.reply p).getD (.unavailable failure)
  | .error _ => .unavailable failure

end Omnius.RateLimit
