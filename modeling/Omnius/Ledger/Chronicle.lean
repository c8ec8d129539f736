/-
# The story of a reservation

What was stored under one key, newest first, is a STORY: it begins with the reservation as it was
requested and each entry follows the one before it.  Everything the ledger promises about a single
reservation is a fact about stories, proved by induction on them: versions count up from zero, the
adjustments telescope to what is accounted now, nothing comes after `Released` or `Reconciled`, and
`Released` only comes after `Reserved`.

`Chronicle` says that the store is the newest entry of each story and its events are the entries'
events.  It is kept by the two ways in which a store can change.
-/
import Omnius.Ledger.Service

namespace Omnius.Ledger

open Omnius.Lib List AList Reservation

variable {x : Reservation × LedgerEvent}

/-! ## 1. Stories -/

/-- **What can have been stored under a key**, newest first. -/
inductive Story (key : ReservationKey) : Entries → Prop
  | reserved {request : ReservationRequest} {r : Reservation} {e : LedgerEvent}
      (initial : initial request = .ok (r, e))
      (owner : request.scope.tenant = key.1) (self : request.id = key.2) : Story key [(r, e)]
  | advanced {r r' : Reservation} {e e' : LedgerEvent} {older : Entries}
      (story : Story key ((r, e) :: older)) (follows : Follows r r' e')
      (owner : r'.scope.tenant = key.1) (self : r'.id = key.2) :
      Story key ((r', e') :: (r, e) :: older)

namespace Story

variable {key : ReservationKey} {entries older : Entries} {r r' : Reservation} {e e' : LedgerEvent}

theorem keyed (h : Story key entries) (hx : x ∈ entries) :
    x.1.scope.tenant = key.1 ∧ x.1.id = key.2 := by
  induction h with
  | reserved hinit how hself =>
    obtain ⟨rfl, -⟩ := initial_ok hinit
    rw [mem_singleton.mp hx]
    exact ⟨how, hself⟩
  | advanced _ _ how hself ih =>
    rcases mem_cons.mp hx with rfl | hx
    · exact ⟨how, hself⟩
    · exact ih hx

theorem described (h : Story key entries) (hx : x ∈ entries) :
    x.2.version = x.1.version ∧ x.2.effectiveUsage = x.1.effectiveUsage ∧
      ∀ m, x.1.effectiveUsage.total m < 2 ^ 64 := by
  have hevent : ∀ {kind previous r e}, LedgerEvent.forTransition kind previous r = .ok e →
      e.version = r.version ∧ e.effectiveUsage = r.effectiveUsage ∧
        ∀ m, r.effectiveUsage.total m < 2 ^ 64 := by
    intro kind previous r e he
    obtain ⟨hver, -, -, -, -, hus, hfits, -⟩ := LedgerEvent.forTransition_ok he
    exact ⟨hver, hus, hfits⟩
  induction h with
  | reserved hinit =>
    rw [mem_singleton.mp hx]
    exact hevent (initial_ok hinit).2
  | advanced _ hfol _ _ ih =>
    rcases mem_cons.mp hx with rfl | hx
    · exact hevent hfol.event
    · exact ih hx

/-- **Versions count up from zero.** -/
theorem length_eq (h : Story key ((r, e) :: older)) : older.length = r.version := by
  generalize hents : (r, e) :: older = entries at h
  induction h generalizing r e older with
  | reserved hinit =>
    obtain ⟨rfl, -⟩ := initial_ok hinit
    cases hents
    rfl
  | advanced _ hfol _ _ ih =>
    cases hents
    rw [length_cons, ih rfl, hfol.version]

theorem getElem_reverse (h : Story key entries) (v : Nat) (hx : entries.reverse[v]? = some x) :
    x.1.version = v := by
  induction h with
  | reserved hinit =>
    obtain ⟨rfl, -⟩ := initial_ok hinit
    rcases v with _ | v
    · simp only [reverse_singleton, List.getElem?_cons_zero, Option.some.injEq] at hx
      rw [← hx]
      rfl
    · simp at hx
  | @advanced r r' e e' older hsty hfol _ _ ih =>
    rw [reverse_cons] at hx
    have hlen : ((r, e) :: older).reverse.length = r'.version := by
      rw [length_reverse, length_cons, hsty.length_eq, hfol.version]
    rcases Nat.lt_trichotomy v r'.version with hlt | heq | hgt
    · rw [List.getElem?_append_left (hlen ▸ hlt)] at hx
      exact ih hx
    · rw [List.getElem?_append_right (by omega), hlen, heq, Nat.sub_self] at hx
      simp only [List.getElem?_cons_zero, Option.some.injEq] at hx
      rw [← hx, heq]
    · rw [List.getElem?_eq_none (by simp at hlen ⊢; omega)] at hx
      cases hx

theorem eq_of_version (h : Story key entries) {y : Reservation × LedgerEvent} (hx : x ∈ entries)
    (hy : y ∈ entries) (hxy : x.1.version = y.1.version) : x = y := by
  obtain ⟨i, hi⟩ := mem_iff_getElem?.mp (mem_reverse.mpr hx)
  obtain ⟨j, hj⟩ := mem_iff_getElem?.mp (mem_reverse.mpr hy)
  have hij : i = j := by
    rw [← h.getElem_reverse i hi, ← h.getElem_reverse j hj, hxy]
  rw [hij, hj, Option.some.injEq] at hi
  exact hi.symm

/-- **The adjustments of a story telescope** to what is accounted now. -/
theorem sum_adjustments (h : Story key ((r, e) :: older)) (m : BudgetMetric) :
    (((r, e) :: older).map fun x => x.2.adjustment.get m).sum =
      (r.effectiveUsage.total m : Int) := by
  generalize hents : (r, e) :: older = entries at h
  induction h generalizing r e older with
  | reserved hinit =>
    cases hents
    obtain ⟨-, -, -, -, -, -, -, hdt⟩ :=
      LedgerEvent.forTransition_ok (initial_ok hinit).2
    simp [hdt]
  | advanced _ hfol _ _ ih =>
    cases hents
    obtain ⟨-, -, -, -, -, -, -, hdt⟩ := LedgerEvent.forTransition_ok hfol.event
    rw [map_cons, sum_cons, ih rfl, hdt]
    omega

end Story

/-! ## 2. States along a story -/

/-- Whether the lifecycle is over. -/
def ReservationState.isTerminal : ReservationState → Bool
  | .reconciled _ | .released => true
  | .reserved | .committed _ => false

variable {e : LedgerEvent}

theorem Follows.not_terminal {r r' : Reservation} (h : Follows r r' e) :
    r.state.isTerminal = false := by
  have htr := h.transition
  cases hr : r.state with
  | reserved | committed evidence => rfl
  | reconciled actual | released =>
    rw [hr] at htr
    cases htr

theorem Follows.not_reserved {r r' : Reservation} (h : Follows r r' e) :
    r'.state ≠ .reserved := by
  intro hres
  have htr := h.transition
  unfold MemoryState.validTransition at htr
  split at htr <;> simp_all

theorem Follows.released {r r' : Reservation} (h : Follows r r' e)
    (hr' : r'.state = .released) : r.state = .reserved := by
  have htr := h.transition
  unfold MemoryState.validTransition at htr
  split at htr <;> simp_all

namespace Story

variable {key : ReservationKey} {entries older : Entries} {r r' : Reservation} {e e' : LedgerEvent}

theorem eq_nil_of_reserved (h : Story key ((r, e) :: older)) (hr : r.state = .reserved) :
    older = [] := by
  cases h with
  | reserved => rfl
  | advanced _ hfol => exact absurd hr hfol.not_reserved

theorem not_terminal (h : Story key ((r, e) :: older)) (hx : x ∈ older) :
    x.1.state.isTerminal = false := by
  generalize hents : (r, e) :: older = entries at h
  induction h generalizing r e older with
  | reserved =>
    cases hents
    cases hx
  | advanced _ hfol _ _ ih =>
    cases hents
    rcases mem_cons.mp hx with rfl | hx
    · exact hfol.not_terminal
    · exact ih hx rfl

/-- **A story with a release in it has nothing else but the reservation.** -/
theorem released_only (h : Story key entries) {y : Reservation × LedgerEvent} (hx : x ∈ entries)
    (hrel : x.1.state = .released) (hy : y ∈ entries) :
    y.1.state = .reserved ∨ y.1.state = .released := by
  cases h with
  | reserved hinit =>
    obtain ⟨rfl, -⟩ := initial_ok hinit
    rw [mem_singleton.mp hy]
    exact .inl rfl
  | @advanced r r' e e' older hsty hfol how hself =>
    have hhead : x = (r', e') := by
      rcases mem_cons.mp hx with rfl | hx
      · rfl
      have hnot := (Story.advanced hsty hfol how hself).not_terminal hx
      rw [hrel] at hnot
      cases hnot
    subst hhead
    have hres := hfol.released hrel
    rw [hsty.eq_nil_of_reserved hres] at hy
    rcases mem_cons.mp hy with rfl | hy
    · exact .inr hrel
    · rw [mem_singleton.mp hy]
      exact .inl hres

end Story

/-! ## 3. The store and its stories -/

/-- **The store is the newest entry of each story, and its events are the entries' events.** -/
structure Chronicle (s : MemoryState) (h : History) : Prop where
  present : ∀ k r, s.reservations.lookup k = some r →
    ∃ e older, h.lookup k = some ((r, e) :: older) ∧ Story k ((r, e) :: older)
  absent : ∀ k, s.reservations.lookup k = none → h.lookup k = none
  events : ∀ k v e, s.events.lookup (k, v) = some e ↔ ∃ r, (r, e) ∈ h.past k ∧ r.version = v
  /-- The idempotency index has the reservations and nothing else. -/
  indexed : ∀ k r, s.reservations.lookup k = some r →
    s.idempotency.lookup (k.1, r.idempotencyKey) = some k
  index : ∀ i k, s.idempotency.lookup i = some k → k.1 = i.1 ∧
    ∃ r, s.reservations.lookup k = some r ∧ r.idempotencyKey = i.2

namespace Chronicle

variable {s : MemoryState} {h : History} {k : ReservationKey} {r r' : Reservation}
  {e e' : LedgerEvent} {request : ReservationRequest}

theorem empty : Chronicle .empty ∅ where
  present := by
    intro k r hr
    cases hr
  absent := fun _ _ => rfl
  events := by
    intro k v e
    constructor
    · intro he
      cases he
    · rintro ⟨r, hr, -⟩
      cases hr
  indexed := by
    intro k r hr
    cases hr
  index := by
    intro i k hk
    cases hk

variable (hc : Chronicle s h)

include hc

theorem past_eq (hr : s.reservations.lookup k = some r) :
    ∃ e older, h.past k = (r, e) :: older ∧ Story k ((r, e) :: older) := by
  obtain ⟨e, older, hk, hsty⟩ := hc.present k r hr
  refine ⟨e, older, ?_, hsty⟩
  unfold History.past
  rw [hk]
  rfl

/-- What is not stored has no past. -/
theorem past_nil (hr : s.reservations.lookup k = none) : h.past k = [] := by
  unfold History.past
  rw [hc.absent k hr]
  rfl

theorem current (hx : x ∈ h.past k) : ∃ r e older,
    s.reservations.lookup k = some r ∧ h.past k = (r, e) :: older ∧ Story k ((r, e) :: older) := by
  cases hr : s.reservations.lookup k with
  | none =>
    rw [hc.past_nil hr] at hx
    cases hx
  | some r =>
    obtain ⟨e, older, hpast⟩ := hc.past_eq hr
    exact ⟨r, e, older, rfl, hpast⟩

theorem story (hx : x ∈ h.past k) : Story k (h.past k) := by
  obtain ⟨r, e, older, -, hpast, hsty⟩ := hc.current hx
  exact hpast ▸ hsty

theorem keyed (hr : s.reservations.lookup k = some r) :
    r.scope.tenant = k.1 ∧ r.id = k.2 := by
  obtain ⟨e, older, -, hsty⟩ := hc.present k r hr
  exact hsty.keyed (x := (r, e)) mem_cons_self

end Chronicle

theorem past_insert_self (h : History) (k : ReservationKey) (entries : Entries) :
    History.past (h.insert k entries) k = entries := by
  unfold History.past
  rw [lookup_insert]
  rfl

theorem past_insert_ne (h : History) {k j : ReservationKey} (hne : j ≠ k) (entries : Entries) :
    History.past (h.insert k entries) j = h.past j := by
  unfold History.past
  rw [lookup_insert_ne hne]

namespace Chronicle

variable {s : MemoryState} {h : History} {k : ReservationKey} {r r' : Reservation}
  {e e' : LedgerEvent} {request : ReservationRequest}

variable (hc : Chronicle s h)

include hc

theorem events_insert {entries : Entries}
    (hents : entries = (r', e') :: h.past k) (hnone : s.events.lookup (k, r'.version) = none)
    (j : ReservationKey) (v : Nat) (d : LedgerEvent) :
    (s.events.insert (k, r'.version) e').lookup (j, v) = some d ↔
      ∃ r, (r, d) ∈ History.past (h.insert k entries) j ∧ r.version = v := by
  rw [Table.lookup_insert_iff]
  by_cases hj : j = k
  · subst hj
    rw [past_insert_self, hents]
    constructor
    · rintro (⟨hkey, rfl⟩ | ⟨-, hold⟩)
      · exact ⟨r', mem_cons_self, (Prod.mk.injEq .. ▸ hkey).2.symm⟩
      · obtain ⟨r, hmem, hv⟩ := (hc.events j v d).mp hold
        exact ⟨r, mem_cons_of_mem _ hmem, hv⟩
    · rintro ⟨r, hmem, rfl⟩
      rcases mem_cons.mp hmem with hhead | hmem
      · rw [Prod.mk.injEq] at hhead
        exact .inl ⟨by rw [hhead.1], hhead.2⟩
      have hold := (hc.events j r.version d).mpr ⟨r, hmem, rfl⟩
      refine .inr ⟨?_, hold⟩
      intro hkey
      rw [hkey, hnone] at hold
      cases hold
  · rw [past_insert_ne h hj, ← hc.events j v d]
    constructor
    · rintro (⟨hkey, -⟩ | ⟨-, hold⟩)
      · exact absurd (Prod.mk.injEq .. ▸ hkey).1 hj
      · exact hold
    · intro hold
      exact .inr ⟨fun hkey => hj (Prod.mk.injEq .. ▸ hkey).1, hold⟩

theorem stories_insert {older : Entries} (hsty : Story k ((r, e) :: older)) :
    (∀ j q, (s.reservations.insert k r).lookup j = some q → ∃ d rest,
      (h.insert k ((r, e) :: older)).lookup j = some ((q, d) :: rest) ∧
        Story j ((q, d) :: rest)) ∧
    ∀ j, (s.reservations.insert k r).lookup j = none →
      (h.insert k ((r, e) :: older)).lookup j = none := by
  refine ⟨fun j q hq => ?_, fun j hj => ?_⟩
  · rcases Table.lookup_insert_iff.mp hq with ⟨rfl, rfl⟩ | ⟨hne, hold⟩
    · exact ⟨e, older, lookup_insert _, hsty⟩
    · rw [lookup_insert_ne hne]
      exact hc.present j q hold
  · have hne : j ≠ k := by
      rintro rfl
      rw [lookup_insert] at hj
      cases hj
    rw [lookup_insert_ne hne] at hj ⊢
    exact hc.absent j hj

/-- **A new reservation begins a story.** -/
theorem reserved (hinit : initial request = .ok (r, e))
    (hun : s.idempotency.lookup (request.scope.tenant, request.idempotencyKey) = none)
    (hfr : s.reservations.lookup (request.scope.tenant, request.id) = none) :
    Chronicle (s.insertInitial request r e)
      (h.insert (request.scope.tenant, request.id) [(r, e)]) where
  present := (hc.stories_insert (.reserved hinit rfl rfl)).1
  absent := (hc.stories_insert (.reserved hinit rfl rfl)).2
  events := by
    have hid : r.id = request.id := by
      rw [(initial_ok hinit).1]
      rfl
    have hnil := hc.past_nil hfr
    intro j v d
    simp only [MemoryState.insertInitial, hid]
    refine hc.events_insert (by rw [hnil]) ?_ j v d
    refine Option.eq_none_iff_forall_ne_some.mpr fun d hev => ?_
    obtain ⟨q, hq, -⟩ := (hc.events _ _ _).mp hev
    rw [hnil] at hq
    cases hq
  indexed := by
    intro k q hq
    rcases Table.lookup_insert_iff.mp hq with ⟨rfl, rfl⟩ | ⟨hne, hold⟩
    · rw [(initial_ok hinit).1]
      exact lookup_insert _
    have hidx := hc.indexed k q hold
    refine (lookup_insert_ne ?_).trans hidx
    intro heq
    rw [heq, hun] at hidx
    cases hidx
  index := by
    intro i k hk
    rcases Table.lookup_insert_iff.mp hk with ⟨rfl, rfl⟩ | ⟨-, hold⟩
    · refine ⟨rfl, r, lookup_insert _, ?_⟩
      rw [(initial_ok hinit).1]
      rfl
    obtain ⟨how, q, hq, hkey⟩ := hc.index i k hold
    refine ⟨how, q, (lookup_insert_ne ?_).trans hq, hkey⟩
    rintro rfl
    rw [hfr] at hq
    cases hq

/-- **A successor continues its story.** -/
theorem advanced {tenant : TenantId}
    (hr : s.reservations.lookup (tenant, r'.id) = some r) (how : r'.scope.tenant = tenant)
    (hfol : Follows r r' e')
    (hnone : s.events.lookup ((tenant, r'.id), r'.version) = none) :
    Chronicle (s.insertReplacement tenant r' e')
      (h.insert (tenant, r'.id) ((r', e') :: h.past (tenant, r'.id))) := by
  obtain ⟨e, older, hpast, hsty⟩ := hc.past_eq hr
  rw [hpast]
  obtain ⟨hprs, habs⟩ := hc.stories_insert (.advanced hsty hfol how rfl)
  refine ⟨hprs, habs, hc.events_insert (hpast ▸ rfl) hnone, ?_, ?_⟩
  · intro k q hq
    rcases Table.lookup_insert_iff.mp hq with ⟨rfl, rfl⟩ | ⟨-, hold⟩
    · rw [hfol.idempotencyKey]
      exact hc.indexed _ r hr
    · exact hc.indexed k q hold
  · intro i k hk
    obtain ⟨howns, q, hq, hkey⟩ := hc.index i k hk
    by_cases hself : k = (tenant, r'.id)
    · subst hself
      rw [hr, Option.some.injEq] at hq
      subst hq
      exact ⟨howns, r', lookup_insert _, hfol.idempotencyKey.trans hkey⟩
    · exact ⟨howns, q, (lookup_insert_ne hself).trans hq, hkey⟩

end Chronicle

end Omnius.Ledger
