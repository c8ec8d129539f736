/-
# The durable scheduler: one schedule row, its leases and its materialised runs

A replica CLAIMS a due schedule by writing a lease token into its row, evaluates the misfire policy
on the snapshot it was given, and MATERIALISES the occurrences in a transaction that first checks
that revision, cursor and token are still the claimed ones.  Between the two calls any amount of
time may pass: leases expire, other replicas claim, operators pause, resume and update.

The calendar is the crate's: `Cron` holds what its exclusive search is assumed to do, as a field.
Instants are microseconds of the database clock.  A statement or a transaction is one step; a call
that fails rolls back and leaves the row and the runs as they were.

Translated from `crates/scheduler/src/repository.rs` and `calendar.rs`.
-/
import Mathlib.Order.Bounds.Basic
import Mathlib.Algebra.Ring.Nat
import Omnius.Lib.Machine
import Omnius.Lib.Attempt
import Omnius.Lib.Rows

namespace Omnius.Scheduler

open Omnius.Lib

inductive SchedulerError where
  | calendar | envelopeFactory | invalidEnvelope | database | lostLease | revisionConflict

/-! ## 1. The calendar -/

/-- A parsed expression in its time zone.  The search may fail (it is bounded). -/
structure Cron where
  /-- The instants the expression matches. -/
  fires : Nat → Prop
  findNextOccurrence : Nat → Option Nat

/-- What is ASSUMED of the search: it finds the least matching instant strictly after its argument.
The crate keeps to this at whole seconds; from a reading with a fraction of a second it goes to the
next matching second and keeps the fraction. -/
def Cron.Exact (cron : Cron) : Prop :=
  ∀ after found, cron.findNextOccurrence after = some found →
    IsLeast {t | after < t ∧ cron.fires t} found

/-- `NonZeroU16`. -/
abbrev MaxRuns := { n : Nat // 0 < n ∧ n < 2 ^ 16 }

inductive MisfirePolicy where
  | skip | fireOnce
  | catchUp (maxRuns : MaxRuns)

/-- The most occurrences one claim may create under a policy. -/
def MisfirePolicy.limit : MisfirePolicy → Nat
  | .skip => 0
  | .fireOnce => 1
  | .catchUp maxRuns => maxRuns

structure ScheduleDefinition where
  cron : Cron
  misfirePolicy : MisfirePolicy
  schedulerLeaseMicros : Nat
  paused : Bool

def nextOccurrence (definition : ScheduleDefinition) (after : Nat) : Except SchedulerError Nat :=
  match definition.cron.findNextOccurrence after with
  | none => .error .calendar
  | some found => .ok found

structure OccurrencePlan where
  occurrences : List Nat
  nextRunAt : Nat

/-- The catch-up loop, with `remaining` more occurrences allowed. -/
def catchUpFrom (definition : ScheduleDefinition) (now : Nat) :
    Nat → Nat → Except SchedulerError OccurrencePlan
  | 0, next => .ok ⟨[], next⟩
  | remaining + 1, next =>
    if next ≤ now then do
      let following ← nextOccurrence definition next
      let rest ← catchUpFrom definition now remaining following
      .ok ⟨next :: rest.occurrences, rest.nextRunAt⟩
    else .ok ⟨[], next⟩

def evaluateOccurrences (definition : ScheduleDefinition) (cursor now : Nat) :
    Except SchedulerError OccurrencePlan :=
  if now < cursor then .error .calendar
  else match definition.misfirePolicy with
    | .skip => do
      let next ← nextOccurrence definition now
      .ok ⟨[], next⟩
    | .fireOnce => do
      let next ← nextOccurrence definition now
      .ok ⟨[cursor], next⟩
    | .catchUp maxRuns => catchUpFrom definition now maxRuns cursor

/-! ## 2. The tables -/

structure Schedule where
  definition : ScheduleDefinition
  /-- The column starts as `definition.paused`; pause and resume change only the column. -/
  paused : Bool
  (revision nextRunAt : Nat)
  (leaseToken leaseExpiresAt : Option Nat)

/-- What a claim hands to its replica: the row's snapshot, the fence and the claiming clock. -/
structure DueSchedule where
  definition : ScheduleDefinition
  (revision nextRunAt fence claimedAt : Nat)

structure EncodedJobEnvelope where
  id : Nat
  /-- Whether the identifier is a version 7 UUID. -/
  isV7 : Bool

/-- A row of `scheduler_job_runs` with replay sequence 0. -/
structure ScheduledRun where
  scheduledFor : Nat
  envelope : EncodedJobEnvelope

/-- The envelope a factory builds for an instant, or its failure. -/
abbrev EnvelopeFactory := Nat → Option EncodedJobEnvelope

/-! ## 3. The calls -/

def createSchedule (definition : ScheduleDefinition) (now : Nat) :
    Except SchedulerError Schedule := do
  let nextRunAt ← nextOccurrence definition now
  .ok { definition, paused := definition.paused, revision := 1, nextRunAt,
        leaseToken := none, leaseExpiresAt := none }

/-- The eligibility condition of the claiming statement. -/
def Schedule.isDue (row : Schedule) (claimedAt : Nat) : Bool :=
  !row.paused && row.nextRunAt ≤ claimedAt && row.leaseExpiresAt.all (· ≤ claimedAt)

/-- The claiming statement, on this row. -/
def claimDueSchedules (row : Schedule) (token claimedAt : Nat) : Option (Schedule × DueSchedule) :=
  if row.isDue claimedAt then
    some ({ row with
              leaseToken := some token
              leaseExpiresAt := some (claimedAt + row.definition.schedulerLeaseMicros) },
          { definition := row.definition, revision := row.revision, nextRunAt := row.nextRunAt,
            fence := token, claimedAt })
  else none

/-- The envelopes of a plan, built before the transaction. -/
def prepare (factory : EnvelopeFactory) :
    List Nat → List Nat → Except SchedulerError (List ScheduledRun)
  | _, [] => .ok []
  | jobIds, scheduledFor :: rest =>
    match factory scheduledFor with
    | none => .error .envelopeFactory
    | some envelope =>
      if envelope.id ∈ jobIds then .error .invalidEnvelope
      else do
        let prepared ← prepare factory (envelope.id :: jobIds) rest
        .ok (⟨scheduledFor, envelope⟩ :: prepared)

/-- One insertion, refused by the unique indexes on the occurrence and on the job. -/
def insertRun (runs : List ScheduledRun) (run : ScheduledRun) :
    Except SchedulerError (List ScheduledRun) :=
  if !run.envelope.isV7 then .error .invalidEnvelope
  else if runs.any (·.scheduledFor = run.scheduledFor) then .error .database
  else if runs.any (·.envelope.id = run.envelope.id) then .error .database
  else .ok (runs ++ [run])

def insertRuns : List ScheduledRun → List ScheduledRun → Except SchedulerError (List ScheduledRun)
  | runs, [] => .ok runs
  | runs, run :: rest => do
    let inserted ← insertRun runs run
    insertRuns inserted rest

section

variable (row : Schedule)

/-- The condition of the transaction's first statement. -/
def Schedule.ownedBy (claim : DueSchedule) : Bool :=
  row.revision = claim.revision && row.nextRunAt = claim.nextRunAt
    && row.leaseToken = some claim.fence

def materializeDue (runs : List ScheduledRun) (claim : DueSchedule)
    (factory : EnvelopeFactory) :
    Except SchedulerError (Schedule × List ScheduledRun × OccurrencePlan) := do
  let plan ← evaluateOccurrences claim.definition claim.nextRunAt claim.claimedAt
  let prepared ← prepare factory [] plan.occurrences
  if !row.ownedBy claim then .error .lostLease
  else do
    let inserted ← insertRuns runs prepared
    .ok ({ row with nextRunAt := plan.nextRunAt, leaseToken := none, leaseExpiresAt := none },
         inserted, plan)

/-- A pause keeps the cursor; a resume puts it after the clock. -/
def Schedule.cursorAfter (paused : Bool) (now : Nat) :
    Except SchedulerError Nat :=
  if paused then .ok row.nextRunAt else nextOccurrence row.definition now

def setPaused (expectedRevision : Nat) (paused : Bool) (now : Nat) :
    Except SchedulerError Schedule :=
  if expectedRevision = 0 || row.revision ≠ expectedRevision then .error .revisionConflict
  else do
    let nextRunAt ← row.cursorAfter paused now
    .ok { row with
      paused, revision := row.revision + 1, nextRunAt, leaseToken := none, leaseExpiresAt := none }

def pauseSchedule (expectedRevision now : Nat) : Except SchedulerError Schedule :=
  setPaused row expectedRevision true now

def resumeSchedule (expectedRevision now : Nat) :
    Except SchedulerError Schedule :=
  setPaused row expectedRevision false now

def updateSchedule (expectedRevision : Nat) (definition : ScheduleDefinition)
    (now : Nat) : Except SchedulerError Schedule :=
  if expectedRevision = 0 || row.revision ≠ expectedRevision then .error .revisionConflict
  else do
    let nextRunAt ← nextOccurrence definition now
    .ok { definition, paused := definition.paused, revision := row.revision + 1, nextRunAt,
          leaseToken := none, leaseExpiresAt := none }

end

/-! ## 4. The machine

Any replica may make any call at any time with any claim it was ever given.  What happened is kept
in a history, newest event first; a claim is named by its place among all claims. -/

inductive Event where
  | claimed (claim : Nat)
  | materialized (claim : Nat) (occurrences : List Nat)
  /-- A creation, pause, resume or update, with the cursor it left. -/
  | revised (cursor : Nat)

def Event.isRevision : Event → Bool
  | .revised _ => true
  | _ => false

structure World where
  row : Schedule
  runs : List ScheduledRun
  claims : List DueSchedule
  /-- The last reading of the database clock. -/
  clock : Nat
  history : List Event

/-- A call, with the clock reading of its statement. -/
inductive Action where
  | claim (token now : Nat)
  | materialize (claim : Nat) (factory : EnvelopeFactory)
  | pause (expectedRevision now : Nat)
  | resume (expectedRevision now : Nat)
  | update (expectedRevision : Nat) (definition : ScheduleDefinition) (now : Nat)

def Action.isUpdate : Action → Bool
  | .update _ _ _ => true
  | _ => false

/-- The call brings no expression whose search is not exact. -/
def Action.Exact : Action → Prop
  | .update _ definition _ => definition.cron.Exact
  | _ => True

namespace World

/-- The state after a control call: its new row, or nothing changed but the clock. -/
def revise (w : World) (now : Nat) : Except SchedulerError Schedule → World
  | .ok row => { w with row, clock := now, history := .revised row.nextRunAt :: w.history }
  | .error _ => { w with clock := now }

def claim (w : World) (token now : Nat) : World :=
  match claimDueSchedules w.row token now with
  | none => { w with clock := now }
  | some (row, due) =>
    { w with
      row, clock := now
      claims := w.claims ++ [due]
      history := .claimed w.claims.length :: w.history }

def materialize (w : World) (index : Nat) (due : DueSchedule) (factory : EnvelopeFactory) :
    World :=
  match materializeDue w.row w.runs due factory with
  | .error _ => w
  | .ok (row, runs, plan) =>
    { w with row, runs, history := .materialized index plan.occurrences :: w.history }

/-- One call.  The clock never runs backwards, and a claim must have been given out. -/
def next (w : World) : Action → Option World
  | .claim token now => if w.clock ≤ now then some (w.claim token now) else none
  | .materialize index factory =>
    (w.claims[index]?).map fun due => w.materialize index due factory
  | .pause expected now =>
    if w.clock ≤ now then some (w.revise now (pauseSchedule w.row expected now)) else none
  | .resume expected now =>
    if w.clock ≤ now then some (w.revise now (resumeSchedule w.row expected now)) else none
  | .update expected definition now =>
    if w.clock ≤ now then some (w.revise now (updateSchedule w.row expected definition now))
    else none

def created (row : Schedule) (now : Nat) : World where
  row := row
  runs := []
  claims := []
  clock := now
  history := [.revised row.nextRunAt]

end World

/-- Every number of replicas working on the schedule that `createSchedule` made. -/
def machine (row : Schedule) (now : Nat) : Machine World Action where
  start := .created row now
  step := World.next

/-- The cursor with which the current revision began. -/
def startingCursor : List Event → Nat
  | [] => 0
  | .revised cursor :: _ => cursor
  | _ :: past => startingCursor past

/-- The instants materialised under the current revision, in order. -/
def revisionRuns : List Event → List Nat
  | [] => []
  | .revised _ :: _ => []
  | .materialized _ occurrences :: past => revisionRuns past ++ occurrences
  | .claimed _ :: past => revisionRuns past

end Omnius.Scheduler
