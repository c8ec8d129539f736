/-
# Hard ceilings

`reserve` compares the aggregate of each dimension that the request limits with the request's
ceilings, and makes no reservation that would exceed one.  That bounds a dimension at the MOMENT of
a reservation.  Whether the bound lasts depends on what is supplied later: `commit` and `reconcile`
never refuse usage beyond the estimate, they only account for it.

When every call supplies at most what was estimated (`World.frugal`), no transition raises what a
reservation accounts for (`Follows.usage_le`), so a dimension all of whose reservations carry the
same ceilings stays within them in every world (`within_reach`).
-/
import Omnius.Ledger.DoubleEntry

namespace Omnius.Ledger

open Omnius.Lib Reservation

variable {r : Reservation} {e : LedgerEvent}

/-! ## 1. What an applied reservation was compared with -/

variable {request : ReservationRequest} {m : BudgetMetric}

theorem MemoryState.Admits.within {s : MemoryState} (h : s.Admits request) {policy : BudgetPolicy}
    (hp : policy ∈ request.policies) {maximum : Nat} (hm : policy.ceilings.get m = some maximum) :
    s.accounted request.scope policy.dimension m + request.estimate.total m ≤ maximum := by
  obtain ⟨requested, htot, hpolicies⟩ := h
  obtain ⟨current, hagg, hnone⟩ := hpolicies policy hp
  obtain ⟨-, hle⟩ := BudgetCeilings.firstExhaustion_eq_none.mp hnone m maximum hm
  rw [(MemoryState.aggregateForDimension_eq_ok.mp hagg).2,
    (UsageBreakdown.checkedTotal_eq_ok.mp htot).2] at hle
  exact hle

/-- **A reservation is only applied within every ceiling it carries.** -/
theorem applied_within {R : Repository} (F : Faithful R) {w : World R} (hs : Sound F w)
    (h : (R.reserve w.store request).1 = .ok (.applied r e)) :
    ∀ policy ∈ request.policies, ∀ m maximum, policy.ceilings.get m = some maximum →
      (w.contents F).accounted request.scope policy.dimension m + request.estimate.total m ≤
        maximum := by
  intro policy hp m maximum hm
  obtain ⟨-, hacts, -⟩ := F.reserve w.store request hs.valid
  rcases hacts with ⟨a, hout, href⟩ | ⟨e, hout, -⟩
  · rw [h, Except.ok.injEq] at hout
    subst hout
    have hres := MemoryState.reserve_reserved (F.view w.store) request
    rw [href] at hres
    generalize F.view (R.reserve w.store request).2 = s' at hres
    cases hres with
    | applied _ _ _ had => exact had.within hp hm
  · rw [h] at hout
    cases hout

/-! ## 2. Usage within the estimate -/

def Call.supplied : Call → Option UsageBreakdown
  | .commit _ _ (.actual usage) | .commit _ _ (.ambiguous usage) | .reconcile _ _ usage =>
    some usage
  | .commit _ _ .missing | .release _ _ => none

def Call.withinEstimate (call : Call) (r : Reservation) : Bool :=
  match call.supplied with
  | none => true
  | some usage => decide (usage.le r.estimate)

/-- Every call in progress supplies at most what its reservation estimates. -/
def World.frugal {R : Repository} (w : World R) : Bool :=
  w.clients.entries.all fun e =>
    match R.load w.store e.2.call.tenant e.2.call.id with
    | .ok (some r) => e.2.call.withinEstimate r
    | _ => true

/-- What a reservation accounts for once it has left `Reserved`, when nothing beyond the estimate
was supplied: the estimate without its concurrency, until it is reconciled. -/
def Reservation.Modest (r : Reservation) : Prop :=
  match r.state with
  | .reserved | .released => True
  | .committed _ => ∀ m, r.effectiveUsage.total m = r.estimate.withoutConcurrency.total m
  | .reconciled _ => ∀ m, r.effectiveUsage.total m ≤ r.estimate.withoutConcurrency.total m

theorem UsageBreakdown.withoutConcurrency_le (b : UsageBreakdown) (m : BudgetMetric) :
    b.withoutConcurrency.total m ≤ b.total m := by
  rw [total_withoutConcurrency]
  split <;> omega

theorem UsageBreakdown.withoutConcurrency_mono {b b' : UsageBreakdown}
    (h : b.total m ≤ b'.total m) :
    b.withoutConcurrency.total m ≤ b'.withoutConcurrency.total m := by
  simp only [total_withoutConcurrency]
  split
  · exact le_refl 0
  · exact h

/-- **No transition between modest reservations raises the usage.** -/
theorem Follows.usage_le {r' : Reservation} (h : Follows r r' e) (hr : r.Modest) (hr' : r'.Modest)
    (m : BudgetMetric) : r'.effectiveUsage.total m ≤ r.effectiveUsage.total m := by
  have htr := h.transition
  have hest := h.estimate
  unfold Modest at hr hr'
  cases hst : r.state with
  | reserved =>
    have hwithout := r.estimate.withoutConcurrency_le m
    have hus : r.effectiveUsage = r.estimate := by
      rw [effectiveUsage, hst]
    cases hst' : r'.state with
    | reserved => exact absurd hst' h.not_reserved
    | committed evidence =>
      rw [hst'] at hr'
      rw [hr' m, hest, hus]
      exact hwithout
    | reconciled actual =>
      rw [hst'] at hr'
      have hle := hr' m
      rw [hest] at hle
      rw [hus]
      omega
    | released =>
      rw [effectiveUsage, hst']
      simp
  | committed evidence =>
    rw [hst] at hr htr
    cases hst' : r'.state with
    | reconciled actual =>
      rw [hst'] at hr'
      have hle := hr' m
      rw [hest, ← hr m] at hle
      exact hle
    | reserved => exact absurd hst' h.not_reserved
    | committed evidence' | released =>
      rw [hst'] at htr
      cases htr
  | reconciled actual | released =>
    have hterm := h.not_terminal
    rw [hst] at hterm
    cases hterm

theorem Swaps.modest {call : Call} {current next : Reservation} {event : LedgerEvent}
    (h : Swaps call current next event) (hwi : call.withinEstimate current = true) :
    next.Modest := by
  obtain ⟨state, kind, hplan, hnext, -⟩ := h.planned
  obtain ⟨-, hfor⟩ := Call.plan_ok.mp hplan
  obtain ⟨-, heq⟩ := transition_ok hnext
  have hst : next.state = state := by rw [heq]
  have hest : next.estimate = current.estimate := by rw [heq]
  have hle : ∀ usage, call.supplied = some usage → usage.le next.estimate := by
    intro usage hus
    rw [Call.withinEstimate, hus] at hwi
    rw [hest]
    exact of_decide_eq_true hwi
  unfold Modest effectiveUsage
  rw [hst]
  rw [Call.planFor_target hfor]
  cases call with
  | commit tenant id evidence =>
    cases evidence with
    | actual usage =>
      exact fun m => UsageBreakdown.withoutConcurrency_mono ((hle usage rfl).total m)
    | missing => exact fun _ => rfl
    | ambiguous observed =>
      intro m
      simp [Call.target, (hle observed rfl).total_conservativeMax]
  | reconcile tenant id usage =>
    exact fun m => UsageBreakdown.withoutConcurrency_mono ((hle usage rfl).total m)
  | release tenant id => trivial

/-! ## 3. Frugal runs -/

/-- Everything stored and everything about to be stored is modest. -/
structure Thrifty {R : Repository} (F : Faithful R) (w : World R) : Prop where
  stored : ∀ k r, (w.contents F).reservations.lookup k = some r → r.Modest
  inHand : ∀ i c current next e, w.clients.lookup i = some c →
    c.phase = .swapping current next e → next.Modest

/-- A dimension whose reservations all carry the ceilings is within them. -/
def Capped (s : MemoryState) : Prop :=
  ∀ scope d ceilings,
    (∀ k r, s.reservations.lookup k = some r → r.scope.matchesDimension scope d = true →
      ⟨d, ceilings⟩ ∈ r.policies) →
    ∀ m maximum, ceilings.get m = some maximum → s.accounted scope d m ≤ maximum

section

variable {R : Repository} {F : Faithful R} {w w' : World R} {s s' : MemoryState} {h h' : History}
  {clients : Table Nat Client}

variable {i : Nat} {c : Client}

theorem Sound.load_eq (hs : Sound F w) {tenant : TenantId} {id : ReservationId}
    (hr : (w.contents F).reservations.lookup (tenant, id) = some r) :
    R.load w.store tenant id = .ok (some r) := by
  rcases F.load w.store tenant id hs.valid with hok | ⟨hnone, -⟩
  · exact hok.trans (congrArg Except.ok hr)
  · rw [show (F.view w.store).load tenant id = some r from hr] at hnone
    cases hnone

theorem World.frugal_client (hs : Sound F w) (hfrugal : w.frugal = true)
    (hc : w.clients.lookup i = some c)
    (hr : (w.contents F).reservations.lookup c.call.key = some r) :
    c.call.withinEstimate r = true := by
  have hload := hs.load_eq hr
  have hall := List.all_eq_true.mp hfrugal ⟨i, c⟩ (AList.mem_lookup_iff.mp hc)
  simp only [hload] at hall
  exact hall

theorem Thrifty.inHand_step (ht : Thrifty F w) (hs : Sound F w) (hfrugal : w.frugal = true)
    (hm : StepMove F w w') {current next : Reservation} (hc : w'.clients.lookup i = some c)
    (hph : c.phase = .swapping current next e) : next.Modest := by
  rcases hm.clients.client hc with hold | ⟨-, -, hloading⟩ | ⟨c₀, hold, -, hturn⟩
  · exact ht.inHand i c current next e hold hph
  · rw [hloading] at hph
    cases hph
  cases hturn with
  | @loaded r phase _ hlk hloads =>
    subst hph
    obtain ⟨how, hself⟩ := hs.chronicle.keyed hlk
    rcases Call.loaded_ok hloads how hself with ⟨heq, -⟩ | ⟨next', e', heq, hswaps⟩
    · cases heq
    · cases heq
      exact hswaps.modest (World.frugal_client hs hfrugal hold hlk)
  | retried => cases hph

theorem StoreMove.modest (hm : StoreMove clients s h s' h')
    (hsto : ∀ k r, s.reservations.lookup k = some r → r.Modest)
    (hinHand : ∀ i c current next e, clients.lookup i = some c →
      c.phase = .swapping current next e → next.Modest) (k : ReservationKey) (r : Reservation)
    (hr : s'.reservations.lookup k = some r) : r.Modest := by
  cases hm with
  | kept => exact hsto k r hr
  | reserved hinit _ _ _ =>
    rcases Table.lookup_insert_iff.mp hr with ⟨-, rfl⟩ | ⟨-, hold⟩
    · rw [(initial_ok hinit).1]
      trivial
    · exact hsto k r hold
  | advanced hcli hph _ _ _ _ =>
    rcases Table.lookup_insert_iff.mp hr with ⟨-, rfl⟩ | ⟨-, hold⟩
    · exact hinHand _ _ _ _ _ hcli hph
    · exact hsto k r hold

/-- **Every write of a frugal run keeps the ceilings.** -/
theorem StoreMove.capped (hm : StoreMove clients s h s' h') (hcap : Capped s)
    (hsto : ∀ k r, s.reservations.lookup k = some r → r.Modest)
    (hinHand : ∀ i c current next e, clients.lookup i = some c →
      c.phase = .swapping current next e → next.Modest) : Capped s' := by
  intro scope d ceilings hcarry m maximum hmax
  cases hm with
  | kept => exact hcap scope d ceilings hcarry m maximum hmax
  | @reserved request r e hinit _ hfr had =>
    obtain ⟨hr, -⟩ := initial_ok hinit
    rw [accounted_insertInitial hinit hfr]
    split
    · -- the new reservation is in the dimension, so it carries the ceilings and was compared
      rename_i hmt
      have hpol : ⟨d, ceilings⟩ ∈ request.policies := by
        have hnew := hcarry _ r (AList.lookup_insert _)
        rw [hr] at hnew
        exact hnew hmt
      have hwi := had.within hpol hmax
      have hsame : s.accounted request.scope d m = s.accounted scope d m := by
        unfold MemoryState.accounted
        simp [BudgetScope.matchesDimension_congr hmt]
      rw [← hsame]
      exact hwi
    · refine hcap scope d ceilings (fun k q hq hmt => ?_) m maximum hmax
      refine hcarry k q ?_ hmt
      refine (AList.lookup_insert_ne ?_).trans hq
      rintro rfl
      rw [hfr] at hq
      cases hq
  | @advanced i c r current next e hcli hph hlk how hfol _ =>
    have hle := hfol.usage_le (hsto _ r hlk) (hinHand i c current next e hcli hph) m
    have hold : s.accounted scope d m ≤ maximum := by
      refine hcap scope d ceilings (fun k q hq hmt => ?_) m maximum hmax
      by_cases hk : k = (c.call.tenant, next.id)
      · subst hk
        rw [hlk, Option.some.injEq] at hq
        subst hq
        rw [← hfol.policies]
        refine hcarry _ next (AList.lookup_insert _) ?_
        rw [hfol.scope]
        exact hmt
      · exact hcarry k q ((AList.lookup_insert_ne hk).trans hq) hmt
    have hactd := accounted_insertReplacement hlk hfol scope d m
    split at hactd <;> omega

/-- **A frugal run never exceeds a ceiling.** -/
theorem within_reach (F : Faithful R)
    (hw : (ledger R).ReachIf (fun u _ => u.frugal = true) (.start R) w) :
    Capped (w.contents F) := by
  refine (hw.invariant (I := fun u => Sound F u ∧ Thrifty F u ∧ Capped (u.contents F)) ?_ ?_).2.2
  · have hemp : (World.start R).contents F = .empty := F.start.2
    refine ⟨sound_start F, ⟨?_, ?_⟩, ?_⟩
    · intro k r hr
      rw [hemp] at hr
      cases hr
    · intro i c current next e hc
      cases hc
    · intro scope d ceilings _ m maximum _
      rw [hemp]
      exact Nat.zero_le _
  · rintro u a v ⟨hs, ht, hcap⟩ hfrugal hstep
    have hm := hs.step hstep
    refine ⟨hm.sound hs, ⟨hm.store.modest ht.stored ht.inHand, ?_⟩,
      hm.store.capped hcap ht.stored ht.inHand⟩
    intro i c current next e hc hph
    exact ht.inHand_step hs hfrugal hm hc hph

end

/-! ## 4. Overage

A dimension whose ceiling is used up answers a new reservation with an exhaustion, if `reserve` gets
so far: it goes through the policies in their order and stops at the first exhausted one, or at the
first whose sum is not representable.  Such a sum makes this and every later reservation that limits
the dimension FAIL. -/

namespace MemoryState

/-- A ceiling of the policy has no room for the request. -/
def Exhausts (s : MemoryState) (request : ReservationRequest) (policy : BudgetPolicy) : Prop :=
  ∃ m maximum, policy.ceilings.get m = some maximum ∧
    exceeds (s.accounted request.scope policy.dimension m) (request.estimate.total m) maximum = true

/-- Some policy is exhausted, and the sums up to the first exhausted one are representable. -/
def ExhaustsInTime (s : MemoryState) (request : ReservationRequest) : List BudgetPolicy → Prop
  | [] => False
  | policy :: rest =>
    (∀ m, s.accounted request.scope policy.dimension m < 2 ^ 64) ∧
      (s.Exhausts request policy ∨ s.ExhaustsInTime request rest)

variable {s : MemoryState}

theorem exhausts_iff {policy : BudgetPolicy} {current requested : UsageVector}
    (htot : request.estimate.checkedTotal = .ok requested)
    (hagg : s.aggregateForDimension request.scope policy.dimension = .ok current) :
    s.Exhausts request policy ↔
      policy.ceilings.firstExhaustion policy.dimension current requested ≠ none := by
  rw [ne_eq, BudgetCeilings.firstExhaustion_eq_none]
  simp only [Exhausts, (aggregateForDimension_eq_ok.mp hagg).2,
    (UsageBreakdown.checkedTotal_eq_ok.mp htot).2, exceeds]
  push Not
  refine exists_congr fun m => exists_congr fun maximum => and_congr_right fun _ => ?_
  split
  · rename_i hfits
    simp only [decide_eq_true_eq, hfits, true_imp_iff]
  · rename_i hover
    exact iff_of_true rfl fun hfits => absurd hfits hover

/-- **The loop over the policies ends with an exhaustion exactly if it meets one in time.** -/
theorem checkPolicies_some {requested : UsageVector}
    (htot : request.estimate.checkedTotal = .ok requested) (policies : List BudgetPolicy) :
    (∃ x, s.checkPolicies request.scope requested policies = .ok (some x)) ↔
      s.ExhaustsInTime request policies := by
  induction policies with
  | nil => simp [checkPolicies, ExhaustsInTime]
  | cons policy rest ih =>
    unfold checkPolicies ExhaustsInTime
    cases hagg : s.aggregateForDimension request.scope policy.dimension with
    | error e =>
      -- the sum of this policy is not representable
      refine iff_of_false (by simp) fun ⟨hfits, _⟩ => ?_
      rw [aggregateForDimension_eq_ok.mpr ⟨hfits, fun m => UsageVector.get_of _ m⟩] at hagg
      cases hagg
    | ok current =>
      rw [and_iff_right (aggregateForDimension_eq_ok.mp hagg).1, exhausts_iff htot hagg, ← ih]
      cases hfirst : policy.ceilings.firstExhaustion policy.dimension current requested <;>
        simp [hfirst]

/-- **Overage is exhaustion, exactly if it is met in time**: whatever was supplied before, a new
request is told that a budget is used up, and nothing is stored, if and only if a policy is
exhausted and the sums that are formed until then are representable. -/
theorem overage_is_exhaustion
    (hunused : s.idempotency.lookup (request.scope.tenant, request.idempotencyKey) = none)
    (hfresh : s.reservations.lookup (request.scope.tenant, request.id) = none) :
    (∃ x, reserveResult (s.reserve request).1 = .error (.budgetExhausted x) ∧
      (s.reserve request).2 = s) ↔ s.ExhaustsInTime request request.policies := by
  have haccepted := request.accepted
  unfold requestAccepted at haccepted
  split at haccepted
  · cases haccepted
  rename_i requested htot
  rw [← checkPolicies_some htot]
  simp only [reserve, hunused, hfresh, htot, Option.isSome_none, Bool.false_eq_true, if_false]
  cases s.checkPolicies request.scope requested request.policies with
  | error e => simp [reserveResult]
  | ok out =>
    cases out with
    | some x => simp [reserveResult]
    | none =>
      cases Reservation.initial request <;> simp [reserveResult]

end MemoryState

/-- The sample request under another name. -/
def secondRequest : ReservationRequest :=
  { sampleRequest with id := ⟨"r2", by decide⟩, idempotencyKey := ⟨"k2", by decide⟩ }

/-- 60 of 100 tokens are reserved, and 60 more are asked for. -/
theorem overage_is_exhaustion_reserved :
    ∃ x, reserveResult (((MemoryState.empty).reserve sampleRequest).2.reserve secondRequest).1 =
      .error (.budgetExhausted x) := by
  obtain ⟨hfits, -⟩ := MemoryState.aggregateForDimension_eq_ok.mp
    (show ((MemoryState.empty).reserve sampleRequest).2.aggregateForDimension sampleScope .tenant =
      .ok (.of (sampleUsage 60).total) by decide)
  obtain ⟨x, hx, -⟩ := (@MemoryState.overage_is_exhaustion secondRequest _ (by decide)
    (by decide)).mpr ⟨hfits, .inl ⟨.tokens, 100, rfl, by decide⟩⟩
  exact ⟨x, hx⟩

/-- Two reservations within the ceiling, and the largest usage reported for each. -/
def overflowRun : List Action :=
  let largest := UsageEvidence.actual (sampleUsage (2 ^ 64 - 1))
  [.reserve sampleRequest .given,
    .reserve { secondRequest with estimate := sampleUsage 40, accepted := by decide } .given,
    .begin (.commit sampleScope.tenant sampleRequest.id largest), .load 0 .given,
    .compareAndSet 0 .given,
    .begin (.commit sampleScope.tenant secondRequest.id largest), .load 1 .given,
    .compareAndSet 1 .given]

/-- **An overage can block its tenant.**  Both reports are accepted, their sum is not
representable, and a new reservation gets an arithmetic error where it should be told that the
budget is used up. -/
theorem overflow_blocks_tenant :
    ∃ w, (ledger memory).run (.start memory) overflowRun = some w ∧
      w.log.map (·.result.isOk) = [true, true] ∧
      (w.contents memoryFaithful).accounted sampleScope .tenant .tokens = 2 * (2 ^ 64 - 1) ∧
      reserveResult (memory.reserve w.store { sampleRequest with
        id := ⟨"r3", by decide⟩, idempotencyKey := ⟨"k3", by decide⟩ }).1 =
          .error (.repository .arithmetic) :=
  ⟨_, rfl, rfl, rfl, rfl⟩

end Omnius.Ledger
