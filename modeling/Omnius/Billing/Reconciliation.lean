/-
# Billing: the order of publications

Any number of workers may hold tasks of one tenant, and each publishes the snapshot that it fetched
for its own.  What keeps them in order is the FENCE, the revision published last -- and an update of
the catalog RESETS it, to have the tenant evaluated anew.

Between two resets revisions only grow (`applied_revisions_increase`).  After a reset, a worker that
fetched long before still publishes what it holds (`older_snapshot_applied`).

Translated from `crates/billing/src/store.rs` and `service.rs`.
-/
import Omnius.Billing.Entitlements
import Omnius.Lib.Machine

namespace Omnius.Billing

open Omnius.Lib

/-! ## 1. The rows of one tenant -/

inductive TaskReason where
  | webhook (sourceEventId : String)
  | repair (idempotencyKey : String)
  | scheduled
deriving DecidableEq

/-- A task waits, is leased to a worker, or has ended. -/
inductive TaskStatus where
  | pending (availableAt : Nat)
  | processing (leaseToken leaseExpiresAt : Nat)
  | completed | deadLetter

structure Task where
  reason : TaskReason
  status : TaskStatus
  attemptCount : Nat

structure ClaimedReconciliation where
  (id leaseToken attemptCount : Nat)

structure ProviderEvent where
  eventId : String
  (sequence fingerprint : Nat)
deriving DecidableEq

structure BillingConfig where
  (reconciliationLease maxAttempts retryDelay delinquentGrace : Nat)

/-- The rows of one tenant, and the catalog. -/
structure Store (F : Type) where
  /-- The last revision and the fingerprint of its snapshot. -/
  fence : Option (Nat × F) := none
  lastEventSequence : Option Nat := none
  /-- With whether an event came out of order. -/
  events : List (ProviderEvent × Bool) := []
  /-- A task is identified by its position. -/
  tasks : List Task := []
  /-- The tokens used so far. -/
  minted : Nat := 0
  definitions : List (String × ValueKind) := []
  catalog : Catalog := ⟨[], []⟩
  mirrors : List Mirror := []
  entitlements : List EffectiveEntitlement := []
  clock : Nat := 0

variable {F : Type} (config : BillingConfig)

/-! ## 2. Operations, each one transaction -/

/-- A task that may be claimed at once. -/
def Store.enqueue (s : Store F) (now : Nat) (reason : TaskReason) : Store F :=
  { s with tasks := s.tasks ++ [⟨reason, .pending now, 0⟩] }

inductive EventEnqueueOutcome where
  | enqueued (task : Nat)
  | duplicate (task : Nat)
  | outOfOrder | conflict

/-- An event counts once, by its id and by its sequence; a late one is kept without a task. -/
def enqueueVerifiedEvent (s : Store F) (now : Nat) (event : ProviderEvent) :
    Except BillingStoreError (Store F × EventEnqueueOutcome) :=
  match s.events.find? (·.1.eventId = event.eventId) with
  | some (known, outOfOrder) =>
    if known ≠ event then .ok (s, .conflict)
    else if outOfOrder then .ok (s, .outOfOrder)
    else match s.tasks.findIdx? (·.reason = .webhook event.eventId) with
      | some task => .ok (s, .duplicate task)
      | none => .error .database
  | none =>
    if s.events.any (·.1.sequence = event.sequence) then .ok (s, .conflict)
    else if s.lastEventSequence.any (event.sequence ≤ ·) then
      .ok ({ s with events := (event, true) :: s.events }, .outOfOrder)
    else .ok ({ s with
        events := (event, false) :: s.events
        lastEventSequence := some event.sequence
      }.enqueue now (.webhook event.eventId), .enqueued s.tasks.length)

/-- One task for each idempotency key. -/
def requestRepair (s : Store F) (now : Nat) (key : String) : Store F × Nat :=
  match s.tasks.findIdx? (·.reason = .repair key) with
  | some task => (s, task)
  | none => (s.enqueue now (.repair key), s.tasks.length)

/-- Nobody works on it: it waits, or its lease has run out. -/
def Task.idle (task : Task) (now : Nat) : Bool :=
  match task.status with
  | .pending _ => true
  | .processing _ leaseExpiresAt => leaseExpiresAt ≤ now
  | _ => false

def Task.ready (task : Task) (now : Nat) : Bool :=
  match task.status with
  | .pending availableAt => availableAt ≤ now
  | _ => task.idle now

/-- A claim dead-letters the task that it finds out of attempts. -/
def claimTask (s : Store F) (now id : Nat) : Store F × Option ClaimedReconciliation :=
  match s.tasks[id]? with
  | none => (s, none)
  | some task =>
    if config.maxAttempts ≤ task.attemptCount && task.idle now then
      ({ s with tasks := s.tasks.set id { task with status := .deadLetter } }, none)
    else if task.attemptCount < config.maxAttempts && task.ready now then
      ({ s with
        tasks := s.tasks.set id { task with
          status := .processing s.minted (now + config.reconciliationLease)
          attemptCount := task.attemptCount + 1 }
        minted := s.minted + 1 }, some ⟨id, s.minted, task.attemptCount + 1⟩)
    else (s, none)

/-- The claim still holds the lease of its task. -/
def Store.requireLiveTask (s : Store F) (now : Nat) (claim : ClaimedReconciliation) :
    Except BillingStoreError Unit :=
  match s.tasks[claim.id]? with
  | some ⟨_, .processing token expiresAt, _⟩ =>
    deny (token ≠ claim.leaseToken || expiresAt ≤ now) .lostLease
  | _ => .error .lostLease

/-- The end of a lease, while it is live. -/
def Store.finish (s : Store F) (now : Nat) (claim : ClaimedReconciliation) (status : TaskStatus) :
    Except BillingStoreError (Store F) := do
  s.requireLiveTask now claim
  return { s with tasks := s.tasks.modify claim.id ({ · with status }) }

theorem finish_fence {s s' : Store F} {now : Nat} {claim : ClaimedReconciliation}
    {status : TaskStatus} (h : s.finish now claim status = .ok s') : s'.fence = s.fence := by
  obtain ⟨-, h⟩ := check_eq_ok.mp h
  cases h
  rfl

def deadLetterTask (s : Store F) (now : Nat) (claim : ClaimedReconciliation) :=
  s.finish now claim .deadLetter

/-- The last attempt is dead-lettered; an earlier one waits. -/
def retryTask (s : Store F) (now : Nat) (claim : ClaimedReconciliation) :=
  if config.maxAttempts ≤ claim.attemptCount then deadLetterTask s now claim
  else s.finish now claim (.pending (now + config.retryDelay))

variable [DecidableEq F] (fingerprint : ProviderSnapshot → F)

inductive SnapshotRevisionDisposition where
  | publish | stale | duplicate | conflict

/-- What the fence says to a snapshot. -/
def snapshotRevisionDisposition (s : Store F) (snapshot : ProviderSnapshot) :
    SnapshotRevisionDisposition :=
  match s.fence with
  | none => .publish
  | some (lastRevision, lastFingerprint) =>
    if snapshot.revision < lastRevision then .stale
    else if lastRevision < snapshot.revision then .publish
    else if lastFingerprint = fingerprint snapshot then .duplicate else .conflict

inductive SnapshotApplyOutcome where
  | applied (entitlementCount : Nat)
  | stale | duplicate | conflict

/-- The lease is checked before the fence, and the fence moves with the rows. -/
def applySnapshot (s : Store F) (now : Nat) (claim : ClaimedReconciliation)
    (snapshot : ProviderSnapshot) :
    Except BillingStoreError (Store F × SnapshotApplyOutcome) := do
  s.requireLiveTask now claim
  match snapshotRevisionDisposition fingerprint s snapshot with
  | .stale => return (← s.finish now claim .completed, .stale)
  | .duplicate => return (← s.finish now claim .completed, .duplicate)
  | .conflict => return (← s.finish now claim .deadLetter, .conflict)
  | .publish =>
    let (mirrors, entitlements) ← publishSnapshot config.delinquentGrace now s.catalog snapshot
    let fence := some (snapshot.revision, fingerprint snapshot)
    let s ← { s with mirrors, entitlements, fence }.finish now claim .completed
    return (s, .applied entitlements.length)

/-- A subscription of the tenant is priced into the plan. -/
def Store.planDependent (s : Store F) (planKey : String) : Bool :=
  s.mirrors.any fun mirror => (mirror.priceId, planKey) ∈ s.catalog.prices

def Store.priceDependent (s : Store F) (priceId : String) : Bool :=
  s.mirrors.any (·.priceId = priceId)

/-- The reset: no fence, no entitlements, and a new task. -/
def invalidateEntitlementDependents (s : Store F) (now : Nat) (dependent : Bool) : Store F :=
  if dependent then { s with fence := none, entitlements := [] }.enqueue now .scheduled else s

/-- A key has one kind of value in all plans. -/
def define (definitions : List (String × ValueKind)) (grant : EntitlementGrant) :
    Except BillingStoreError (List (String × ValueKind)) :=
  match definitions.lookup grant.key with
  | none => .ok ((grant.key, grant.value.kind) :: definitions)
  | some kind => do
    deny (kind ≠ grant.value.kind) .conflict
    return definitions

def putPlan (s : Store F) (now : Nat) (plan : PlanDefinition) :
    Except BillingStoreError (Store F) := do
  let definitions ← plan.entitlements.foldlM define s.definitions
  let plans := plan :: s.catalog.plans.filter (·.key ≠ plan.key)
  return invalidateEntitlementDependents
    { s with definitions, catalog := { s.catalog with plans } } now (s.planDependent plan.key)

def putPriceMapping (s : Store F) (now : Nat) (priceId planKey : String) :
    Except BillingStoreError (Store F) := do
  deny (!s.catalog.plans.any (·.key = planKey)) .constraint
  let prices := (priceId, planKey) :: s.catalog.prices.filter (·.1 ≠ priceId)
  return invalidateEntitlementDependents
    { s with catalog := { s.catalog with prices } } now (s.priceDependent priceId)

/-! ## 3. Runs -/

inductive Action where
  | event (event : ProviderEvent)
  | repair (key : String)
  | claim (id : Nat)
  | retry (claim : ClaimedReconciliation)
  | deadLetter (claim : ClaimedReconciliation)
  | apply (claim : ClaimedReconciliation) (snapshot : ProviderSnapshot)
  | putPlan (plan : PlanDefinition)
  | putPriceMapping (priceId planKey : String)

/-- One transaction, at an instant. -/
def act (s : Store F) (now : Nat) : Action → Except BillingStoreError (Store F)
  | .event event => (enqueueVerifiedEvent s now event).map (·.1)
  | .repair key => .ok (requestRepair s now key).1
  | .claim id => .ok (claimTask config s now id).1
  | .retry claim => retryTask config s now claim
  | .deadLetter claim => deadLetterTask s now claim
  | .apply claim snapshot => (applySnapshot config fingerprint s now claim snapshot).map (·.1)
  | .putPlan plan => putPlan s now plan
  | .putPriceMapping priceId planKey => putPriceMapping s now priceId planKey

/-- Whether an action is an update of the catalog that concerns the tenant. -/
def Store.resetBy (s : Store F) : Action → Bool
  | .putPlan plan => s.planDependent plan.key
  | .putPriceMapping priceId _ => s.priceDependent priceId
  | _ => false

/-- Snapshots may be fetched at any time: an application brings whichever it has. -/
def machine : Machine (Store F) (Nat × Action) where
  start := {}
  step s a :=
    if s.clock ≤ a.1 then
      ((act config fingerprint s a.1 a.2).map fun s' => { s' with clock := a.1 }).toOption
    else none

/-! ## 4. Revisions -/

variable {fingerprint config} {s s' : Store F} {now : Nat} {claim : ClaimedReconciliation}
  {snapshot : ProviderSnapshot} {outcome : SnapshotApplyOutcome}

/-- **What an application does to the fence.** -/
theorem applySnapshot_eq_ok
    (h : applySnapshot config fingerprint s now claim snapshot = .ok (s', outcome)) :
    ((∃ count, outcome = .applied count) ∧
        s'.fence = some (snapshot.revision, fingerprint snapshot) ∧
        ∀ revision mark, s.fence = some (revision, mark) → revision < snapshot.revision) ∨
      (∀ count, outcome ≠ .applied count) ∧ s'.fence = s.fence := by
  obtain ⟨-, h⟩ := check_eq_ok.mp h
  cases hdisp : snapshotRevisionDisposition fingerprint s snapshot with
  | publish =>
    simp only [hdisp] at h
    obtain ⟨_, -, h⟩ := bind_eq_ok.mp h
    obtain ⟨_, hfsh, h⟩ := bind_eq_ok.mp h
    cases h
    refine .inl ⟨⟨_, rfl⟩, finish_fence hfsh, fun revision mark hfe => ?_⟩
    simp only [snapshotRevisionDisposition, hfe] at hdisp
    split_ifs at hdisp with _ hgrows
    exact hgrows
  | stale | duplicate | conflict =>
    simp only [hdisp] at h
    obtain ⟨_, hfsh, h⟩ := bind_eq_ok.mp h
    cases h
    exact .inr ⟨nofun, finish_fence hfsh⟩

/-- The fence stands at this revision or a later one. -/
def Store.Past (s : Store F) (revision : Nat) : Prop :=
  ∃ last mark, s.fence = some (last, mark) ∧ revision ≤ last

/-- No action but a reset moves the fence back. -/
theorem act_past {a : Action} {revision : Nat} (h : act config fingerprint s now a = .ok s')
    (hkept : s.resetBy a = false) (hpast : s.Past revision) : s'.Past revision := by
  have hsame (h : s'.fence = s.fence) : s'.Past revision := by
    unfold Store.Past
    rwa [h]
  cases a with
  | event event =>
    obtain ⟨_, henqueued, rfl⟩ := map_eq_ok.mp h
    apply hsame
    unfold enqueueVerifiedEvent at henqueued
    grind [Store.enqueue]
  | repair key =>
    cases h
    apply hsame
    unfold requestRepair
    split <;> rfl
  | claim id =>
    cases h
    apply hsame
    unfold claimTask
    split
    · rfl
    split
    · rfl
    split <;> rfl
  | retry claim =>
    rw [act, retryTask] at h
    split at h <;> exact hsame (finish_fence h)
  | deadLetter claim => exact hsame (finish_fence h)
  | apply claim snapshot =>
    obtain ⟨⟨_, outcome⟩, hapd, rfl⟩ := map_eq_ok.mp h
    obtain ⟨last, mark, hfe, hle⟩ := hpast
    rcases applySnapshot_eq_ok hapd with ⟨-, hnew, hgrows⟩ | ⟨-, hkept⟩
    · exact ⟨_, _, hnew, hle.trans (hgrows last mark hfe).le⟩
    · exact ⟨last, mark, hkept.trans hfe, hle⟩
  | putPlan plan =>
    obtain ⟨_, -, h⟩ := bind_eq_ok.mp h
    cases h
    rw [show s.planDependent plan.key = false from hkept]
    exact hpast
  | putPriceMapping priceId planKey =>
    obtain ⟨-, h⟩ := check_eq_ok.mp h
    cases h
    rw [show s.priceDependent priceId = false from hkept]
    exact hpast

/-- **Published revisions only grow**, as long as no update of the catalog resets the fence. -/
theorem applied_revisions_increase {s s₁ s₂ s₃ : Store F} {now later count count' : Nat}
    {claim claim' : ClaimedReconciliation} {snapshot snapshot' : ProviderSnapshot}
    (hfirst : applySnapshot config fingerprint s now claim snapshot = .ok (s₁, .applied count))
    (hrun : (machine config fingerprint).ReachIf (fun s a => s.resetBy a.2 = false) s₁ s₂)
    (hsecond : applySnapshot config fingerprint s₂ later claim' snapshot' =
      .ok (s₃, .applied count')) : snapshot.revision < snapshot'.revision := by
  have hpast : s₁.Past snapshot.revision := by
    rcases applySnapshot_eq_ok hfirst with ⟨-, hfe, -⟩ | ⟨hnot, -⟩
    · exact ⟨_, _, hfe, le_rfl⟩
    · exact absurd rfl (hnot count)
  have hstill : s₂.Past snapshot.revision := by
    refine hrun.invariant (I := (·.Past snapshot.revision)) hpast fun u a v hu hkept hstep => ?_
    simp only [machine, Option.ite_none_right_eq_some] at hstep
    obtain ⟨-, hstep⟩ := hstep
    cases hact : act config fingerprint u a.1 a.2 <;> rw [hact] at hstep <;> cases hstep
    exact (act_past hact hkept hu : Store.Past _ _)
  obtain ⟨last, mark, hfe, hle⟩ := hstill
  rcases applySnapshot_eq_ok hsecond with ⟨-, -, hgrows⟩ | ⟨hnot, -⟩
  · exact hle.trans_lt (hgrows last mark hfe)
  · exact absurd rfl (hnot count')

/-! ## 5. Two workers -/

def sampleConfig : BillingConfig := ⟨10, 3, 1, 0⟩

def samplePlan : PlanDefinition := ⟨"small", true, []⟩

def sampleVersion (revision : Nat) : ProviderSnapshot :=
  ⟨revision, 0, [⟨"s", .inGoodStanding, ⊤, none⟩]⟩

def sampleClaims : List (Nat × Action) :=
  [(0, .putPlan samplePlan), (0, .putPriceMapping "s" "small"), (0, .event ⟨"a", 1, 1⟩),
    (0, .event ⟨"b", 2, 2⟩), (0, .claim 0), (0, .claim 1)]

abbrev sampleMachine : Machine (Store Nat) (Nat × Action) := machine sampleConfig (·.revision)

def sampleStore : Store Nat := (sampleMachine.run {} sampleClaims).getD {}

/-- Between the two applications a third event comes in and its task is claimed. -/
theorem applied_revisions_increase_sample : ∃ s₁ s₂ s₃,
    applySnapshot sampleConfig (·.revision) sampleStore 1 ⟨0, 0, 1⟩ (sampleVersion 4) =
      .ok (s₁, .applied 0) ∧
    sampleMachine.Reach s₁ s₂ ∧ s₁.tasks.length < s₂.tasks.length ∧
    applySnapshot sampleConfig (·.revision) s₂ 3 ⟨1, 1, 1⟩ (sampleVersion 5) =
      .ok (s₃, .applied 0) ∧
    (sampleVersion 4).revision < (sampleVersion 5).revision := by
  obtain ⟨s₁, s₂, s₃, hfst, hrun, hmore, hsec⟩ : ∃ s₁ s₂ s₃,
      applySnapshot sampleConfig (·.revision) sampleStore 1 ⟨0, 0, 1⟩ (sampleVersion 4) =
        .ok (s₁, .applied 0) ∧
      sampleMachine.runIf (fun s a => s.resetBy a.2 = false) s₁
        [(2, .event ⟨"c", 3, 3⟩), (2, .claim 2)] = some s₂ ∧
      s₁.tasks.length < s₂.tasks.length ∧
      applySnapshot sampleConfig (·.revision) s₂ 3 ⟨1, 1, 1⟩ (sampleVersion 5) =
        .ok (s₃, .applied 0) := ⟨_, _, _, rfl, rfl, by decide, rfl⟩
  have hre := Machine.reachIf_of_runIf _ hrun
  exact ⟨s₁, s₂, s₃, hfst, hre.mono fun _ _ _ => trivial, hmore, hsec,
    applied_revisions_increase hfst hre hsec⟩

/-- **Back in provider time.**  The second worker publishes revision 5, an update of the plan resets
the fence, and the first worker publishes revision 4. -/
theorem older_snapshot_applied : ∃ s₁ s₂ s₃, sampleMachine.run {} sampleClaims = some sampleStore ∧
    applySnapshot sampleConfig (·.revision) sampleStore 1 ⟨1, 1, 1⟩ (sampleVersion 5) =
      .ok (s₁, .applied 0) ∧
    sampleMachine.run s₁ [(2, .putPlan samplePlan)] = some s₂ ∧
    applySnapshot sampleConfig (·.revision) s₂ 3 ⟨0, 0, 1⟩ (sampleVersion 4) =
      .ok (s₃, .applied 0) :=
  ⟨_, _, _, rfl, rfl, rfl, rfl⟩

end Omnius.Billing
