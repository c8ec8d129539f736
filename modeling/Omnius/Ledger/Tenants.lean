/-
# Tenants do not see each other

The reservations of all tenants stand in one table, and a ceiling is compared with a sum over all of
it.  Still a tenant's calls are answered from its OWN reservations and events: in any two worlds
that agree on those, over any two faithful repositories and whatever other tenants have done in
each, every `reserve` that both answer is answered alike.  A faithful repository may also fail, and
for reasons of its own; the reference fails alike too.
-/
import Omnius.Ledger.DoubleEntry

namespace Omnius.Ledger

open Omnius.Lib UsageVector

namespace MemoryState

variable {s s' : MemoryState} {h h' : History} {t : TenantId} {scope : BudgetScope}
  {d : BudgetDimension}

/-- Two stores agree on what a tenant has stored. -/
structure SameTenant (t : TenantId) (s s' : MemoryState) : Prop where
  reservations : ∀ id, s.reservations.lookup (t, id) = s'.reservations.lookup (t, id)
  events : ∀ id version, s.events.lookup ((t, id), version) = s'.events.lookup ((t, id), version)

theorem SameTenant.symm (hsame : SameTenant t s s') : SameTenant t s' s :=
  ⟨fun id => (hsame.1 id).symm, fun id version => (hsame.2 id version).symm⟩

theorem aggregateForDimension_error {e : RepositoryError} :
    s.aggregateForDimension scope d = .error e → e = .arithmetic := by
  have hfold : ∀ rs v, addUsages v rs = .error e → e = .arithmetic := by
    intro rs
    induction rs with
    | nil => nofun
    | cons r rest ih =>
      intro v he
      unfold addUsages at he
      split at he
      · cases he
        rfl
      split at he
      · cases he
        rfl
      · exact ih _ he
  exact hfold _ _

namespace SameTenant

section

variable (hsame : SameTenant t s s') (hc : Chronicle s h)

include hsame hc

theorem accounted_le (hscope : scope.tenant = t) (m : BudgetMetric) :
    s.accounted scope d m ≤ s'.accounted scope d m := by
  refine Table.total_le_total fun k r hr => ?_
  split
  · next hmatch =>
    -- what matches the scope is the tenant's own
    have hkey : k.1 = t := by
      by_contra hne
      unfold BudgetScope.matchesDimension at hmatch
      rw [(hc.keyed hr).1, hscope, if_pos hne] at hmatch
      cases hmatch
    obtain ⟨owner, id⟩ := k
    subst hkey
    rw [Table.share, ← hsame.reservations, hr, Option.elim_some, if_pos hmatch]
  · exact Nat.zero_le _

/-- The idempotency index says no more than the reservations. -/
theorem index_some (hc' : Chronicle s' h') {key : IdempotencyKey} {k : ReservationKey}
    (hk : s.idempotency.lookup (t, key) = some k) : s'.idempotency.lookup (t, key) = some k := by
  obtain ⟨owner, id⟩ := k
  obtain ⟨rfl, r, hr, rfl⟩ := hc.index _ _ hk
  exact hc'.indexed _ r (hsame.reservations id ▸ hr)

end

variable (hsame : SameTenant t s s') (hc : Chronicle s h) (hc' : Chronicle s' h')

include hsame hc hc'

theorem aggregate_ok (hscope : scope.tenant = t) {v : UsageVector}
    (hv : s.aggregateForDimension scope d = .ok v) : s'.aggregateForDimension scope d = .ok v := by
  have heq (m) : s'.accounted scope d m = s.accounted scope d m :=
    le_antisymm (hsame.symm.accounted_le hc' hscope m) (hsame.accounted_le hc hscope m)
  rw [aggregateForDimension_eq_ok] at hv ⊢
  simpa only [heq] using hv

theorem aggregate (hscope : scope.tenant = t) :
    s.aggregateForDimension scope d = s'.aggregateForDimension scope d := by
  cases hv : s.aggregateForDimension scope d with
  | ok v => exact (hsame.aggregate_ok hc hc' hscope hv).symm
  | error e =>
    cases hv' : s'.aggregateForDimension scope d with
    | ok v =>
      rw [hsame.symm.aggregate_ok hc' hc hscope hv'] at hv
      cases hv
    | error e' => rw [aggregateForDimension_error hv, aggregateForDimension_error hv']

theorem checkPolicies (hscope : scope.tenant = t) (requested : UsageVector) : ∀ policies,
    s.checkPolicies scope requested policies = s'.checkPolicies scope requested policies
  | [] => rfl
  | policy :: rest => by
    simp only [MemoryState.checkPolicies, hsame.aggregate hc hc' hscope,
      checkPolicies hscope requested rest]

theorem reserve {request : ReservationRequest} (hreq : request.scope.tenant = t) :
    (s.reserve request).1 = (s'.reserve request).1 := by
  subst hreq
  have hindex : s.idempotency.lookup (request.scope.tenant, request.idempotencyKey) =
      s'.idempotency.lookup (request.scope.tenant, request.idempotencyKey) :=
    Option.ext fun _ => ⟨hsame.index_some hc hc', hsame.symm.index_some hc' hc⟩
  unfold MemoryState.reserve
  simp only [hindex, hsame.checkPolicies hc hc' rfl, hsame.reservations, hsame.events]
  cases hidx : s'.idempotency.lookup (request.scope.tenant, request.idempotencyKey) with
  | none =>
    cases (s'.reservations.lookup (request.scope.tenant, request.id)).isSome with
    | true => rfl
    | false =>
      cases request.estimate.checkedTotal with
      | error => rfl
      | ok requested =>
        simp only
        rcases s'.checkPolicies request.scope requested request.policies with _ | _ | _
        · rfl
        · cases Reservation.initial request <;> rfl
        · rfl
  | some key =>
    obtain ⟨owner, id⟩ := key
    obtain ⟨rfl, -⟩ := hc'.index _ _ hidx
    simp only [hsame.reservations]
    cases s'.reservations.lookup (request.scope.tenant, id) with
    | none => rfl
    | some r =>
      simp only
      cases r.isReplayOf request with
      | false => rfl
      | true => cases s'.events.lookup ((request.scope.tenant, r.id), r.version) <;> rfl

end SameTenant

end MemoryState

/-- What a faithful repository answers is the answer of the reference. -/
theorem Faithful.reserve_ok {R : Repository} (F : Faithful R) {s : R.State} (hs : F.Valid s)
    {request : ReservationRequest} {answer : ReserveStoreDecision}
    (h : (R.reserve s request).1 = .ok answer) : ((F.view s).reserve request).1 = .ok answer := by
  obtain ⟨-, hacts, -⟩ := F.reserve s request hs
  rcases hacts with ⟨a, hout, href⟩ | ⟨e, hout, -⟩
  · rw [href, ← hout, h]
  · rw [h] at hout
    cases hout

/-- **Tenants do not see each other.**  Over any two faithful repositories, in any two reachable
worlds that hold the same reservations and events of a tenant, whatever they hold of others: every
ceiling of the tenant is compared with the same sum, every `reserve` of the tenant that both
repositories answer gets the same answer, and in the reference the two are alike in every case. -/
theorem tenant_isolation {R R' : Repository} (F : Faithful R) (F' : Faithful R') {w : World R}
    {w' : World R'} (hw : (ledger R).Reach (.start R) w) (hw' : (ledger R').Reach (.start R') w')
    {t : TenantId} (hsame : (w.contents F).SameTenant t (w'.contents F')) :
    ∀ request : ReservationRequest, request.scope.tenant = t →
      (∀ d, (w.contents F).aggregateForDimension request.scope d =
        (w'.contents F').aggregateForDimension request.scope d) ∧
      (∀ answer answer', (R.reserve w.store request).1 = .ok answer →
        (R'.reserve w'.store request).1 = .ok answer' → answer = answer') ∧
      ((w.contents F).reserve request).1 = ((w'.contents F').reserve request).1 := by
  intro request hreq
  have hs := sound_reach F hw
  have hs' := sound_reach F' hw'
  have hreserve := hsame.reserve hs.chronicle hs'.chronicle hreq
  refine ⟨fun _ => hsame.aggregate hs.chronicle hs'.chronicle hreq, ?_, hreserve⟩
  intro answer answer' h h'
  have hok : ((w.contents F).reserve request).1 = .ok answer := F.reserve_ok hs.valid h
  have hok' : ((w'.contents F').reserve request).1 = .ok answer' := F'.reserve_ok hs'.valid h'
  rw [hreserve, hok'] at hok
  exact (Except.ok.inj hok).symm

/-- What `acme` has used up does not count against `zeta`: after the run it is told what it would be
told at the start. -/
theorem tenant_isolation_overrun : ∃ w, (ledger memory).run (.start memory) sampleRun = some w ∧
    ∀ request : ReservationRequest, request.scope = .new ⟨"zeta", by decide⟩ →
      (memory.reserve w.store request).1 = (memory.reserve memory.start request).1 := by
  refine ⟨_, rfl, fun request hreq => ?_⟩
  refine (tenant_isolation memoryFaithful memoryFaithful (Machine.reach_of_run sampleRun rfl) .refl
    (t := ⟨"zeta", by decide⟩) ⟨fun id => ?_, fun id version => ?_⟩ request
    (by rw [hreq]; rfl)).2.2
  · rfl
  · rfl

end Omnius.Ledger
