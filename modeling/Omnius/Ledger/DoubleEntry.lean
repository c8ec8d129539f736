/-
# Double entry: the events account for every unit of usage

A reservation says what is accounted NOW; its events say how that came about.  This file shows that
the two never disagree, in any world that any interleaving of clients reaches:

* under each key there is exactly one event for each version up to the current one, and none else;
* each event carries the usage of the reservation as it stood at that version;
* the adjustments of a reservation's events add up to its current usage, metric by metric;
* hence the adjustments of a whole budget dimension add up to the aggregate which `reserve`
  compares with the ceilings.

The first three are facts about stories (`Chronicle`).  The last is kept step by step: a new
reservation adds to both sides what it estimates, a transition adds to both the difference.
-/
import Omnius.Ledger.Run

namespace Omnius.Ledger

open Omnius.Lib List UsageVector

/-! ## 1. The aggregate is a plain sum -/

namespace MemoryState

/-- What is accounted in a dimension: a plain sum, with no bound on it. -/
def accounted (s : MemoryState) (scope : BudgetScope) (dimension : BudgetDimension)
    (m : BudgetMetric) : Nat :=
  s.reservations.total fun _ r =>
    if r.scope.matchesDimension scope dimension then r.effectiveUsage.total m else 0

/-- The adjustments of all events whose reservation is in the dimension. -/
def adjusted (s : MemoryState) (scope : BudgetScope) (dimension : BudgetDimension)
    (m : BudgetMetric) : Int :=
  s.events.total fun k e =>
    if (s.reservations.lookup k.1).any fun r => r.scope.matchesDimension scope dimension then
      e.adjustment.get m
    else 0

/-- The fold succeeds exactly when the whole sum is representable, and it is that sum. -/
theorem addUsages_eq_ok : ∀ {rs : List Reservation} {v u : UsageVector},
    (∀ m, v.get m < 2 ^ 64) → (addUsages v rs = .ok u ↔
      (∀ m, v.get m + (rs.map fun r => r.effectiveUsage.total m).sum < 2 ^ 64) ∧
        ∀ m, u.get m = v.get m + (rs.map fun r => r.effectiveUsage.total m).sum)
  | [], v, u, hv => by
    simp only [addUsages, map_nil, sum_nil, Nat.add_zero, Except.ok.injEq]
    constructor
    · rintro rfl
      exact ⟨hv, fun _ => rfl⟩
    · rintro ⟨-, hu⟩
      exact ext_get fun m => (hu m).symm
  | r :: rest, v, u, hv => by
    simp only [map_cons, sum_cons]
    unfold addUsages
    constructor
    · intro h
      split at h
      · cases h
      rename_i usage hus
      split at h
      · cases h
      rename_i total htot
      obtain ⟨-, hr⟩ := UsageBreakdown.checkedTotal_eq_ok.mp hus
      obtain ⟨hfits, hsum⟩ := checkedAdd_eq_ok.mp htot
      obtain ⟨hrest, hu⟩ := (addUsages_eq_ok fun m => hsum m ▸ hfits m).mp h
      simp only [hsum, hr] at hrest hu
      exact ⟨fun m => by have := hrest m; omega, fun m => by have := hu m; omega⟩
    · rintro ⟨hfits, hu⟩
      -- the first usage fits because the whole sum does
      have hus : r.effectiveUsage.checkedTotal = .ok (.of fun m => r.effectiveUsage.total m) := by
        rw [UsageBreakdown.checkedTotal_eq_ok]
        exact ⟨fun m => by have := hfits m; omega, get_of _⟩
      have htot : v.checkedAdd (.of fun m => r.effectiveUsage.total m) =
          .ok (.of fun m => v.get m + r.effectiveUsage.total m) := by
        rw [checkedAdd_eq_ok]
        simp only [get_of]
        exact ⟨fun m => by have := hfits m; omega, fun _ => trivial⟩
      rw [hus]
      simp only
      rw [htot]
      rw [addUsages_eq_ok]
      · simp only [get_of]
        exact ⟨fun m => by have := hfits m; omega, fun m => by have := hu m; omega⟩
      · intro m
        rw [get_of]
        have := hfits m
        omega

theorem sum_filter_map (p : Reservation → Bool) (f : Reservation → Nat) :
    ∀ entries : List (Sigma fun _ : ReservationKey => Reservation),
      (((entries.map Sigma.snd).filter p).map f).sum =
        (entries.map fun e => if p e.2 then f e.2 else 0).sum
  | [] => rfl
  | e :: rest => by
    rw [map_cons, filter_cons, map_cons, sum_cons, ← sum_filter_map p f rest]
    split <;> simp

/-- **The aggregate of a dimension is the sum of what is accounted in it**, and it exists exactly
when that sum is representable. -/
theorem aggregateForDimension_eq_ok {s : MemoryState} {scope : BudgetScope}
    {dimension : BudgetDimension} {v : UsageVector} :
    s.aggregateForDimension scope dimension = .ok v ↔
      (∀ m, s.accounted scope dimension m < 2 ^ 64) ∧
        ∀ m, v.get m = s.accounted scope dimension m := by
  unfold aggregateForDimension
  rw [addUsages_eq_ok (by simp)]
  simp only [sum_filter_map, get_zero, Nat.zero_add]
  rfl

end MemoryState

/-! ## 2. What a write does to both sides -/

section

variable {s s' : MemoryState} {h h' : History} {request : ReservationRequest}
  {r r' : Reservation} {e e' : LedgerEvent} {scope : BudgetScope} {d : BudgetDimension}
  {m : BudgetMetric} {clients : Table Nat Client}

theorem Chronicle.stored_of_event (hc : Chronicle s h) {k : ReservationKey} {v : Nat}
    (he : s.events.lookup (k, v) = some e) : ∃ r, s.reservations.lookup k = some r := by
  obtain ⟨q, hq, -⟩ := (hc.events k v e).mp he
  obtain ⟨r, -, -, hr, -⟩ := hc.current hq
  exact ⟨r, hr⟩

theorem accounted_insertInitial (hinit : Reservation.initial request = .ok (r, e))
    (hfr : s.reservations.lookup (request.scope.tenant, request.id) = none) :
    (s.insertInitial request r e).accounted scope d m = s.accounted scope d m +
      if request.scope.matchesDimension scope d then request.estimate.total m else 0 := by
  obtain ⟨rfl, -⟩ := Reservation.initial_ok hinit
  exact Table.total_insert_new hfr

/-- Storing a reservation with an event adds the event's adjustment, if the events of the key that
are there already have read a reservation of the same scope. -/
theorem adjusted_insert {k : ReservationKey} {v : Nat}
    (hreservations : s'.reservations = s.reservations.insert k r)
    (hevents : s'.events = s.events.insert (k, v) e) (hnone : s.events.lookup (k, v) = none)
    (hkeep : ∀ v e, s.events.lookup (k, v) = some e →
      ∃ q, s.reservations.lookup k = some q ∧ r.scope = q.scope) :
    s'.adjusted scope d m = s.adjusted scope d m +
      if r.scope.matchesDimension scope d then e.adjustment.get m else 0 := by
  have hold : (s.events.total fun i e => if ((s.reservations.insert k r).lookup i.1).any fun r =>
      r.scope.matchesDimension scope d then e.adjustment.get m else 0) = s.adjusted scope d m := by
    refine Table.total_congr ?_
    rintro ⟨j, v⟩ e he
    by_cases hj : j = k
    · subst hj
      obtain ⟨q, hq, hsc⟩ := hkeep v e he
      simp [hq, hsc]
    · simp [AList.lookup_insert_ne hj]
  unfold MemoryState.adjusted at hold ⊢
  rw [hreservations, hevents, Table.total_insert_new hnone, hold]
  simp

theorem adjusted_insertInitial (hc : Chronicle s h)
    (hinit : Reservation.initial request = .ok (r, e))
    (hfr : s.reservations.lookup (request.scope.tenant, request.id) = none) :
    (s.insertInitial request r e).adjusted scope d m = s.adjusted scope d m +
      if request.scope.matchesDimension scope d then (request.estimate.total m : Int) else 0 := by
  obtain ⟨rfl, hevent⟩ := Reservation.initial_ok hinit
  obtain ⟨-, -, -, -, -, -, -, hdt⟩ := LedgerEvent.forTransition_ok hevent
  have hnone : ∀ v e, s.events.lookup ((request.scope.tenant, request.id), v) ≠ some e := by
    intro v e he
    obtain ⟨q, hq⟩ := hc.stored_of_event he
    rw [hfr] at hq
    cases hq
  refine (adjusted_insert rfl rfl (Option.eq_none_iff_forall_ne_some.mpr (hnone _))
    fun v e he => absurd he (hnone v e)).trans ?_
  simp [Reservation.fromRequest, hdt, Reservation.effectiveUsage]

variable {tenant : TenantId}

theorem accounted_insertReplacement
    (hr : s.reservations.lookup (tenant, r'.id) = some r) (hfol : Follows r r' e')
    (scope : BudgetScope) (d : BudgetDimension) (m : BudgetMetric) :
    (s.insertReplacement tenant r' e').accounted scope d m +
        (if r.scope.matchesDimension scope d then r.effectiveUsage.total m else 0) =
      s.accounted scope d m +
        if r.scope.matchesDimension scope d then r'.effectiveUsage.total m else 0 := by
  have htot := Table.total_insert (fun _ (r : Reservation) =>
    if r.scope.matchesDimension scope d then r.effectiveUsage.total m else 0)
    s.reservations (tenant, r'.id) r'
  rw [Table.share_some hr, hfol.scope] at htot
  exact htot

theorem adjusted_insertReplacement
    (hr : s.reservations.lookup (tenant, r'.id) = some r) (hfol : Follows r r' e')
    (hnone : s.events.lookup ((tenant, r'.id), r'.version) = none) :
    (s.insertReplacement tenant r' e').adjusted scope d m = s.adjusted scope d m +
      if r.scope.matchesDimension scope d then
        (r'.effectiveUsage.total m : Int) - r.effectiveUsage.total m
      else 0 := by
  obtain ⟨-, -, -, -, -, -, -, hdt⟩ := LedgerEvent.forTransition_ok hfol.event
  refine (adjusted_insert rfl rfl hnone fun _ _ _ => ⟨r, hr, hfol.scope⟩).trans ?_
  simp [hdt, hfol.scope]

/-- **Every write keeps the books balanced.** -/
theorem StoreMove.balanced (hm : StoreMove clients s h s' h') (hc : Chronicle s h)
    (hbal : s.adjusted scope d m = s.accounted scope d m) :
    s'.adjusted scope d m = s'.accounted scope d m := by
  cases hm with
  | kept => exact hbal
  | reserved hinit _ hfr _ =>
    rw [adjusted_insertInitial hc hinit hfr, accounted_insertInitial hinit hfr, hbal]
    split <;> simp
  | advanced _ _ hlk _ hfol hnone =>
    have hactd := accounted_insertReplacement hlk hfol scope d m
    rw [adjusted_insertReplacement hlk hfol hnone]
    split
    · rename_i hmt
      rw [if_pos hmt, if_pos hmt] at hactd
      omega
    · rename_i hmt
      rw [if_neg hmt, if_neg hmt] at hactd
      omega

end

/-! ## 3. The events of one reservation -/

section

variable {s : MemoryState} {h : History} {k : ReservationKey} {r : Reservation}

variable (hc : Chronicle s h)

include hc

theorem Chronicle.event_eq (hr : s.reservations.lookup k = some r) (v : Nat) :
    s.events.lookup (k, v) = ((h.past k).reverse.map Prod.snd)[v]? := by
  obtain ⟨e, older, hpast, hsty⟩ := hc.past_eq hr
  rw [hpast, List.getElem?_map]
  cases hx : ((r, e) :: older).reverse[v]? with
  | some x =>
    have hver := hsty.getElem_reverse v hx
    have hmem : x ∈ h.past k := by
      rw [hpast]
      exact mem_reverse.mp (mem_of_getElem? hx)
    exact (hc.events k v x.2).mpr ⟨x.1, hmem, hver⟩
  | none =>
    refine Option.eq_none_iff_forall_ne_some.mpr fun d hev => ?_
    obtain ⟨q, hq, rfl⟩ := (hc.events k v d).mp hev
    rw [hpast] at hq
    obtain ⟨i, hi⟩ := mem_iff_getElem?.mp (mem_reverse.mpr hq)
    rw [← hsty.getElem_reverse i hi] at hi
    rw [hi] at hx
    cases hx

/-- **One event per version, and their adjustments add up to the usage.** -/
theorem Chronicle.entries (hr : s.reservations.lookup k = some r) :
    ∃ events : List LedgerEvent, events.length = r.version + 1 ∧
      (∀ v, s.events.lookup (k, v) = events[v]?) ∧
      ∀ m, (events.map fun e => e.adjustment.get m).sum = (r.effectiveUsage.total m : Int) := by
  obtain ⟨e, older, hpast, hsty⟩ := hc.past_eq hr
  refine ⟨(h.past k).reverse.map Prod.snd, ?_, hc.event_eq hr, fun m => ?_⟩
  · rw [length_map, length_reverse, hpast, length_cons, hsty.length_eq]
  · rw [map_map, map_reverse, sum_reverse, hpast]
    exact hsty.sum_adjustments m

theorem Chronicle.event_describes {e : LedgerEvent}
    (he : (r, e) ∈ h.past k) : s.events.lookup (k, r.version) = some e ∧ e.version = r.version ∧
      e.effectiveUsage = r.effectiveUsage := by
  obtain ⟨hver, hus, -⟩ := (hc.story he).described he
  exact ⟨(hc.events k r.version e).mpr ⟨r, he, rfl⟩, hver, hus⟩

end

/-! ## 4. Every run -/

section

variable {R : Repository} {w : World R}

theorem balanced_reach (F : Faithful R) (hw : (ledger R).Reach (.start R) w) (scope : BudgetScope)
    (d : BudgetDimension) (m : BudgetMetric) :
    (w.contents F).adjusted scope d m = (w.contents F).accounted scope d m := by
  refine (hw.invariant (I := fun u => Sound F u ∧
    (u.contents F).adjusted scope d m = (u.contents F).accounted scope d m) ?_ ?_).2
  · refine ⟨sound_start F, ?_⟩
    rw [World.contents, show (World.start R).store = R.start from rfl, F.start.2]
    rfl
  · rintro u a v ⟨hs, hbal⟩ - hstep
    have hm := hs.step hstep
    exact ⟨hm.sound hs, hm.store.balanced hs.chronicle hbal⟩

/-- **Double entry.**  In every world that any interleaving of clients reaches, over any faithful
repository: the events of a reservation are one per version up to its own, and their adjustments
add up to what it accounts for; there are no others; each tells of the reservation as it was stored
at that version, which is also what any earlier world of the run held; and the adjustments of a
dimension add up to the aggregate that `reserve` compares with the ceilings. -/
theorem ledger_double_entry (F : Faithful R) (hw : (ledger R).Reach (.start R) w) :
    (∀ k r, (w.contents F).reservations.lookup k = some r → ∃ events : List LedgerEvent,
      events.length = r.version + 1 ∧
      (∀ v, (w.contents F).events.lookup (k, v) = events[v]?) ∧
      ∀ m, (events.map fun e => e.adjustment.get m).sum = (r.effectiveUsage.total m : Int)) ∧
    (∀ k, (w.contents F).reservations.lookup k = none →
      ∀ v, (w.contents F).events.lookup (k, v) = none) ∧
    (∀ k v e, (w.contents F).events.lookup (k, v) = some e → ∃ r, (r, e) ∈ w.history.past k ∧
      r.version = v ∧ e.version = v ∧ e.effectiveUsage = r.effectiveUsage) ∧
    (∀ u, (ledger R).Reach (.start R) u → (ledger R).Reach u w → ∀ k r,
      (u.contents F).reservations.lookup k = some r → ∃ e,
        (w.contents F).events.lookup (k, r.version) = some e ∧
          e.effectiveUsage = r.effectiveUsage) ∧
    ∀ scope d v, (w.contents F).aggregateForDimension scope d = .ok v →
      ∀ m, (w.contents F).adjusted scope d m = (v.get m : Int) := by
  have hs := sound_reach F hw
  have hc := hs.chronicle
  refine ⟨fun k r hr => hc.entries hr, ?_, ?_, ?_, ?_⟩
  · intro k hk v
    refine Option.eq_none_iff_forall_ne_some.mpr fun e hev => ?_
    obtain ⟨r, hr⟩ := hc.stored_of_event hev
    rw [hk] at hr
    cases hr
  · intro k v e he
    obtain ⟨r, hr, rfl⟩ := (hc.events k v e).mp he
    obtain ⟨-, hver, hus⟩ := hc.event_describes hr
    exact ⟨r, hr, rfl, hver, hus⟩
  · intro u hu huw k r hr
    have hu := sound_reach F hu
    obtain ⟨e, older, hpast, -⟩ := hu.chronicle.past_eq hr
    have hmem : (r, e) ∈ w.history.past k := by
      refine (hu.past huw k).subset ?_
      rw [hpast]
      exact mem_cons_self
    obtain ⟨hevent, -, hus⟩ := hc.event_describes hmem
    exact ⟨e, hevent, hus⟩
  · intro scope d v hv m
    rw [balanced_reach F hw scope d m, (MemoryState.aggregateForDimension_eq_ok.mp hv).2]

end

/-! ### A reservation that cost more than it was estimated at -/

def sampleScope : BudgetScope := .new ⟨"acme", by decide⟩

def sampleUsage (tokens : Nat) : UsageBreakdown := .ofPrimary ⟨1, 1, tokens, 0, 0, 0, 0⟩

def samplePolicy : BudgetPolicy := ⟨.tenant, { BudgetCeilings.none with tokens := some 100 }⟩

def sampleRequest : ReservationRequest :=
  ⟨⟨"r1", by decide⟩, ⟨"k1", by decide⟩, ⟨0⟩, sampleScope, sampleUsage 60, [samplePolicy],
    by decide, by decide⟩

/-- Reserved, committed without usage, reconciled with more than was estimated. -/
def sampleRun : List Action :=
  [.reserve sampleRequest .given,
    .begin (.commit sampleScope.tenant sampleRequest.id .missing), .load 0 .given,
    .compareAndSet 0 .given,
    .begin (.reconcile sampleScope.tenant sampleRequest.id (sampleUsage 75)), .load 1 .given,
    .compareAndSet 1 .given]

theorem ledger_double_entry_overrun : ∃ w, (ledger memory).run (.start memory) sampleRun = some w ∧
    (w.contents memoryFaithful).events.entries.length = 3 ∧
    ∀ m, (w.contents memoryFaithful).adjusted sampleScope .tenant m =
      ((sampleUsage 75).withoutConcurrency.total m : Int) := by
  refine ⟨_, rfl, by decide, fun m => ?_⟩
  exact ((ledger_double_entry memoryFaithful (Machine.reach_of_run sampleRun rfl)).2.2.2.2
    sampleScope .tenant (.of (sampleUsage 75).withoutConcurrency.total) (by decide) m).trans
      (congrArg Nat.cast (get_of ..))

end Omnius.Ledger
