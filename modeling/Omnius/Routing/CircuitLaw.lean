/-
# The transition law of the circuit breaker

What is retained of a scope is sorted, bounded in number and in age (`Lawful`), whatever order the
samples arrive in and whatever instants summaries are asked for.  Nothing but the success of a
current probe closes an open scope, and the failures of one credential, tenant or caller move no
scope at all.  Health failures open a closed scope at the moment they reach the threshold, and only
then, exactly if the clock can represent the end of the open interval: the sum is formed when the
sample is stored, and where it panics the scope stays closed with its threshold reached
(`unrepresentable_sum_stays_closed`).

The invariant is per entry.  Recording is three list operations, an eviction, an insertion and a
truncation, and each has its lemma; the calls of the breaker are composed of them.
-/
import Mathlib.Data.List.TakeWhile
import Omnius.Routing.CircuitEntry

namespace Omnius.Routing

open Omnius.Lib List ScopeEntry

/-! ## 1. Samples in order -/

/-- Sorted by the instant of observation. -/
def InOrder (samples : List Evidence) : Prop :=
  samples.Pairwise fun x y => x.observedAt ≤ y.observedAt

/-- No sample is older than another by more than the window. -/
def Recent (window : Nat) (samples : List Evidence) : Prop :=
  ∀ x ∈ samples, ∀ y ∈ samples, y.observedAt ≤ x.observedAt + window

def failures (samples : List Evidence) : Nat :=
  samples.countP fun sample => sample.outcome.countsTowardHealth

section

variable {samples kept : List Evidence} {window : Nat} {now : Instant}

theorem InOrder.sublist (h : InOrder samples) (hkept : kept.Sublist samples) : InOrder kept :=
  List.Pairwise.sublist hkept h

theorem Recent.subset (h : Recent window samples) (hkept : kept ⊆ samples) :
    Recent window kept := fun x hx y hy => h x (hkept hx) y (hkept hy)

variable {x : Evidence}

section

variable (h : InOrder samples)

include h

theorem not_of_mem_dropWhile {p : Evidence → Bool}
    (hp : ∀ x y, x.observedAt ≤ y.observedAt → p y = true → p x = true)
    (hx : x ∈ samples.dropWhile p) : p x = false := by
  induction samples with
  | nil => cases hx
  | cons y rest ih =>
    obtain ⟨hle, hrest⟩ := pairwise_cons.mp h
    by_cases hy : p y = true
    · rw [dropWhile_cons_of_pos hy] at hx
      exact ih hrest hx
    · rw [dropWhile_cons_of_neg hy] at hx
      refine Bool.eq_false_iff.mpr fun hpx => hy ?_
      rcases mem_cons.mp hx with rfl | hx
      · exact hpx
      · exact hp y x (hle x hx) hpx

theorem mem_evicted (hx : x ∈ samples.dropWhile fun y => decide (window < now - y.observedAt)) :
    now - x.observedAt ≤ window := by
  have hkept := not_of_mem_dropWhile h (fun y z hle => by
    simpa using fun hz => hz.trans_le (Nat.sub_le_sub_left hle now)) hx
  exact Nat.le_of_not_lt (of_decide_eq_false hkept)

theorem mem_behind {t : Instant}
    (hx : x ∈ samples.dropWhile fun y => decide (y.observedAt ≤ t)) : t ≤ x.observedAt := by
  have hkept := not_of_mem_dropWhile h (fun y z hle => by simpa using hle.trans) hx
  exact Nat.le_of_not_le (of_decide_eq_false hkept)

/-- **Inserting at the partition point keeps the order.** -/
theorem InOrder.insert (sample : Evidence) :
    InOrder (samples.takeWhile (fun y => decide (y.observedAt ≤ sample.observedAt)) ++
      sample :: samples.dropWhile fun y => decide (y.observedAt ≤ sample.observedAt)) := by
  unfold InOrder
  rw [pairwise_append, pairwise_cons]
  refine ⟨h.sublist (takeWhile_sublist _), ⟨fun y hy => mem_behind h hy,
    h.sublist (dropWhile_sublist _)⟩, ?_⟩
  intro x hx y hy
  have hbef : x.observedAt ≤ sample.observedAt := by simpa using mem_takeWhile_imp hx
  rcases mem_cons.mp hy with rfl | hy
  · exact hbef
  · exact hbef.trans (mem_behind h hy)

end

theorem failures_insert (samples : List Evidence) (sample : Evidence) (p : Evidence → Bool) :
    failures (samples.takeWhile p ++ sample :: samples.dropWhile p) =
      failures samples + if sample.outcome.countsTowardHealth then 1 else 0 := by
  conv_rhs => rw [← takeWhile_append_dropWhile (p := p) (l := samples)]
  simp only [failures, countP_append, countP_cons]
  omega

end

/-! ## 2. Entries -/

/-- **What every entry is like.** -/
structure Lawful (policy : CircuitPolicy) (e : ScopeEntry) : Prop where
  sorted : InOrder e.evidence
  bounded : e.evidence.length ≤ policy.maxSamplesPerScope
  recent : Recent policy.window e.evidence

/-- A closed scope holds fewer failures than the threshold. -/
def Quiet (policy : CircuitPolicy) (e : ScopeEntry) : Prop :=
  e.openedUntil = none → e.healthFailures < policy.failureThreshold

section

variable {policy : CircuitPolicy} {e e' : ScopeEntry} {t now : Instant} {o : CircuitOutcome}

theorem lawful_default (policy : CircuitPolicy) : Lawful policy .default where
  sorted := List.Pairwise.nil
  bounded := Nat.zero_le _
  recent := fun x hx => by cases hx

theorem Lawful.of_sublist (h : Lawful policy e) (hsub : e'.evidence.Sublist e.evidence) :
    Lawful policy e' where
  sorted := h.sorted.sublist hsub
  bounded := hsub.length_le.trans h.bounded
  recent := h.recent.subset hsub.subset

theorem Quiet.of_sublist (h : Quiet policy e) (hsub : e'.evidence.Sublist e.evidence)
    (hop : e'.openedUntil = e.openedUntil) : Quiet policy e' := fun hcl =>
  (hsub.countP_le : e'.healthFailures ≤ e.healthFailures).trans_lt (h (hop ▸ hcl))

/-- **What recording retains** is in order, bounded and recent, with at most one more failure. -/
theorem recordEvidence_lawful (h : Lawful policy e) (t : Instant) (o : CircuitOutcome) :
    InOrder (e.recordEvidence t o policy.window policy.maxSamplesPerScope).1.evidence ∧
    (e.recordEvidence t o policy.window policy.maxSamplesPerScope).1.evidence.length ≤
      policy.maxSamplesPerScope ∧
    Recent policy.window
      (e.recordEvidence t o policy.window policy.maxSamplesPerScope).1.evidence ∧
    (e.recordEvidence t o policy.window policy.maxSamplesPerScope).1.healthFailures ≤
      e.healthFailures + if o.countsTowardHealth then 1 else 0 := by
  have hevicted : InOrder (e.evictExpired (e.timeline t) policy.window).evidence :=
    h.sorted.sublist (dropWhile_sublist _)
  have hins := hevicted.insert ⟨t, o⟩
  have hsub : (e.recordEvidence t o policy.window policy.maxSamplesPerScope).1.evidence.Sublist
      (((e.evictExpired (e.timeline t) policy.window).insertSample ⟨t, o⟩).evictExpired
        (e.timeline t) policy.window).evidence := drop_sublist _ _
  -- nothing stored or observed is after the timeline
  have hnwst : ∀ x ∈ ((e.evictExpired (e.timeline t) policy.window).insertSample
      ⟨t, o⟩).evidence, x.observedAt ≤ e.timeline t := by
    intro x hx
    have hmem : x = ⟨t, o⟩ ∨ x ∈ e.evidence := by
      rcases mem_append.mp hx with hx | hx
      · exact .inr ((dropWhile_sublist _).subset ((takeWhile_sublist _).subset hx))
      · rcases mem_cons.mp hx with rfl | hx
        · exact .inl rfl
        · exact .inr ((dropWhile_sublist _).subset ((dropWhile_sublist _).subset hx))
    unfold timeline
    rcases hmem with rfl | hx
    · split
      · exact le_refl t
      · exact le_max_right _ _
    cases hlast : e.evidence.getLast? with
    | none =>
      rw [List.getLast?_eq_none_iff] at hlast
      rw [hlast] at hx
      cases hx
    | some newest =>
      refine le_trans ?_ (le_max_left _ _)
      obtain ⟨older, heq⟩ := List.getLast?_eq_some_iff.mp hlast
      have hsrt := h.sorted
      rw [heq] at hx hsrt
      rcases mem_append.mp hx with hx | hx
      · exact (pairwise_append.mp hsrt).2.2 x hx newest (mem_singleton.mpr rfl)
      · rw [mem_singleton.mp hx]
  refine ⟨(hins.sublist (dropWhile_sublist _)).sublist hsub, ?_, ?_, ?_⟩
  · unfold recordEvidence truncate
    simp only [length_drop]
    omega
  · intro x hx y hy
    have hage : e.timeline t - x.observedAt ≤ policy.window :=
      mem_evicted hins (hsub.subset hx)
    have hle := hnwst y ((dropWhile_sublist _).subset (hsub.subset hy))
    exact hle.trans (Nat.sub_le_iff_le_add'.mp hage)
  · have hct := failures_insert (e.evictExpired (e.timeline t) policy.window).evidence
      ⟨t, o⟩ fun y => decide (y.observedAt ≤ t)
    have hfst : failures (e.evictExpired (e.timeline t) policy.window).evidence ≤
        e.healthFailures := (dropWhile_sublist _).countP_le
    have hrest := ((hsub.trans (dropWhile_sublist _)).countP_le :
      (e.recordEvidence t o policy.window policy.maxSamplesPerScope).1.healthFailures ≤ failures
        ((e.evictExpired (e.timeline t) policy.window).insertSample ⟨t, o⟩).evidence)
    refine hrest.trans (hct.le.trans ?_)
    exact Nat.add_le_add_right hfst _

/-! ## 3. What recording and completing do -/

theorem recordEntry_opened (hop : e.openedUntil ≠ none) :
    (policy.recordEntry t o e).1.openedUntil = e.openedUntil := by
  have hnot : e.state (e.timeline t) ≠ .closed := by
    rw [Ne, state_eq_closed]
    exact hop
  unfold CircuitPolicy.recordEntry
  simp only
  rw [if_neg fun h => hnot h.2, if_neg fun h => hnot h.1]
  rfl

theorem openFrom_evidence (policy : CircuitPolicy) (t : Instant) (e : ScopeEntry) :
    (policy.openFrom t e).1.evidence = e.evidence := by
  unfold CircuitPolicy.openFrom
  split <;> rfl

theorem recordEntry_evidence (policy : CircuitPolicy) (t : Instant) (o : CircuitOutcome)
    (e : ScopeEntry) : (policy.recordEntry t o e).1.evidence =
      (e.recordEvidence t o policy.window policy.maxSamplesPerScope).1.evidence := by
  unfold CircuitPolicy.recordEntry
  simp only
  split
  · rfl
  · split
    · exact openFrom_evidence policy _ _
    · rfl

theorem recordEntry_failures (policy : CircuitPolicy) (t : Instant) (o : CircuitOutcome)
    (e : ScopeEntry) : (policy.recordEntry t o e).1.healthFailures =
      (e.recordEvidence t o policy.window policy.maxSamplesPerScope).1.healthFailures := by
  unfold healthFailures
  rw [recordEntry_evidence]

/-- **A closed scope opens exactly when a health failure reaches the threshold** and the end of the
open interval can be represented. -/
theorem recordEntry_closed (policy : CircuitPolicy) (t : Instant) (o : CircuitOutcome)
    (hcl : e.openedUntil = none) :
    ((policy.recordEntry t o e).1.openedUntil ≠ none ↔ o.countsTowardHealth = true ∧
      policy.failureThreshold ≤ (policy.recordEntry t o e).1.healthFailures ∧
      e.timeline t + policy.openDuration ≤ maxInstant) ∧
    ((policy.recordEntry t o e).1.openedUntil ≠ none →
      (policy.recordEntry t o e).1.openedUntil = some (e.timeline t + policy.openDuration)) := by
  have hst : (e.evictExpired (e.timeline t) policy.window).state (e.timeline t) = .closed :=
    state_eq_closed.mpr hcl
  have hfails := recordEntry_failures policy t o e
  unfold CircuitPolicy.recordEntry recordEvidence CircuitPolicy.openFrom at *
  simp only [hst, and_true, true_and] at *
  by_cases hsuc : o = .success
  · subst hsuc
    simp [CircuitOutcome.countsTowardHealth]
  rw [if_neg hsuc] at *
  split
  · rename_i hreached
    split
    · rename_i hfits
      exact ⟨⟨fun _ => ⟨hreached.1, hreached.2, hfits⟩, fun _ => by simp [openUntil]⟩, fun _ => rfl⟩
    · rename_i hfits
      exact ⟨⟨fun hop => absurd hcl hop, fun h => absurd h.2.2 hfits⟩, fun hop => absurd hcl hop⟩
  · rename_i hnot
    exact ⟨⟨fun hop => absurd hcl hop, fun h => absurd ⟨h.1, h.2.1⟩ hnot⟩,
      fun hop => absurd hcl hop⟩

theorem isIsolated_not {o : CircuitOutcome} (h : o.isIsolated = true) :
    o ≠ .success ∧ o.countsTowardHealth = false := by
  cases o <;> simp_all [CircuitOutcome.isIsolated, CircuitOutcome.countsTowardHealth]

theorem recordEntry_isolated (h : o.isIsolated = true) :
    (policy.recordEntry t o e).1.openedUntil = e.openedUntil := by
  by_cases hcl : e.openedUntil = none
  · by_contra hne
    have hop := (recordEntry_closed policy t o hcl).1.mp (hcl ▸ hne)
    rw [(isIsolated_not h).2] at hop
    cases hop.1
  · exact recordEntry_opened hcl

theorem Lawful.record (h : Lawful policy e) (t : Instant) (o : CircuitOutcome) :
    Lawful policy (policy.recordEntry t o e).1 := by
  obtain ⟨hsrt, hbdd, hrecent, -⟩ := recordEvidence_lawful h t o
  have hevi := recordEntry_evidence policy t o e
  exact ⟨hevi ▸ hsrt, hevi ▸ hbdd, hevi ▸ hrecent⟩

/-- The sum that recording forms in a closed scope, if it forms one, is an instant. -/
def CircuitPolicy.Representable (policy : CircuitPolicy) (t : Instant) (o : CircuitOutcome)
    (e : ScopeEntry) : Prop :=
  e.openedUntil = none → o.countsTowardHealth = true → policy.failureThreshold ≤
      (e.recordEvidence t o policy.window policy.maxSamplesPerScope).1.healthFailures →
    e.timeline t + policy.openDuration ≤ maxInstant

instance (t : Instant) (o : CircuitOutcome) (e : ScopeEntry) :
    Decidable (policy.Representable t o e) := inferInstanceAs (Decidable (_ → _ → _ → _))

/-- **Recording keeps a scope quiet exactly if its sum is representable.** -/
theorem quiet_record (h : Lawful policy e) (hquiet : Quiet policy e) (t : Instant)
    (o : CircuitOutcome) :
    Quiet policy (policy.recordEntry t o e).1 ↔ policy.Representable t o e := by
  have hfails := recordEntry_failures policy t o e
  by_cases hcl : e.openedUntil = none
  · have hopens := (recordEntry_closed policy t o hcl).1
    rw [hfails] at hopens
    unfold Quiet CircuitPolicy.Representable
    rw [hfails]
    constructor
    · intro hafter _ hcts hreached
      by_contra hbeyond
      have hstays := not_not.mp (mt hopens.mp fun hop => hbeyond hop.2.2)
      exact absurd hreached (Nat.not_le.mpr (hafter hstays))
    · intro hrep hafter
      have hnot := mt hopens.mpr (not_not.mpr hafter)
      have hone := (recordEvidence_lawful h t o).2.2.2
      by_cases hcts : o.countsTowardHealth = true
      · by_contra hreached
        have hreached := Nat.not_lt.mp hreached
        exact hnot ⟨hcts, hreached, hrep hcl hcts hreached⟩
      · rw [if_neg hcts] at hone
        exact hone.trans_lt (hquiet hcl)
  · refine ⟨fun _ hclosed => absurd hclosed hcl, fun _ hafter => ?_⟩
    rw [recordEntry_opened hcl] at hafter
    exact absurd hafter hcl

/-- **What completing a probe can do**: nothing, or with a current generation in a half-open scope,
close it, open it again, or leave its state alone. -/
inductive Completed (policy : CircuitPolicy) (g : Nat) (t : Instant) (o : CircuitOutcome)
    (e : ScopeEntry) : ScopeEntry → Prop
  | skipped : Completed policy g t o e e
  | closed {e' : ScopeEntry} (success : o = .success) (current : g = e.probeGeneration)
      (half : e.state (e.timeline t) = .halfOpen)
      (evidence : e'.evidence = [⟨e.timeline t, o⟩]) : Completed policy g t o e e'
  | opened {e' : ScopeEntry} (counts : o.countsTowardHealth = true)
      (wasOpen : e.openedUntil ≠ none) (openedUntil : e'.openedUntil ≠ none)
      (evidence : e'.evidence =
        (e.recordEvidence t o policy.window policy.maxSamplesPerScope).1.evidence) :
      Completed policy g t o e e'
  | left {e' : ScopeEntry} (failed : o ≠ .success) (wasOpen : e.openedUntil ≠ none)
      (openedUntil : e'.openedUntil = e.openedUntil)
      (evidence : e'.evidence =
        (e.recordEvidence t o policy.window policy.maxSamplesPerScope).1.evidence) :
      Completed policy g t o e e'

theorem completeEntry_completed (policy : CircuitPolicy) (g : Nat) (t : Instant)
    (o : CircuitOutcome) (e : ScopeEntry) :
    Completed policy g t o e (policy.completeEntry g t o e).1 := by
  unfold CircuitPolicy.completeEntry CircuitPolicy.openFrom
  split
  · exact .skipped
  rename_i hcur
  obtain ⟨hgen, hhalf⟩ := not_or.mp hcur
  have hhalf := not_not.mp hhalf
  have hop : e.openedUntil ≠ none := by
    obtain ⟨u, hu, -⟩ := state_eq_halfOpen.mp hhalf
    rw [hu]
    simp
  simp only
  split
  · rename_i hsuc
    exact .closed hsuc (not_not.mp hgen).symm hhalf rfl
  rename_i hfailed
  split
  · rename_i hcts
    split
    · exact .opened hcts hop (by simp [openUntil]) rfl
    · exact .left hfailed hop rfl rfl
  · exact .left hfailed hop rfl rfl

theorem Lawful.complete (h : Lawful policy e) (g : Nat) (t : Instant) (o : CircuitOutcome) :
    Lawful policy (policy.completeEntry g t o e).1 := by
  obtain ⟨hsrt, hbdd, hrecent, -⟩ := recordEvidence_lawful h t o
  have hcompleted := completeEntry_completed policy g t o e
  generalize (policy.completeEntry g t o e).1 = e' at hcompleted
  cases hcompleted with
  | skipped => exact h
  | closed hsuc _ _ hevi =>
    refine ⟨?_, ?_, ?_⟩
    · rw [hevi]
      exact pairwise_singleton _ _
    · rw [hevi]
      exact policy.samples_pos
    · rw [hevi]
      intro x hx y hy
      rw [mem_singleton.mp hx, mem_singleton.mp hy]
      exact Nat.le_add_right _ _
  | opened _ _ _ hevi | left _ _ _ hevi => exact ⟨hevi ▸ hsrt, hevi ▸ hbdd, hevi ▸ hrecent⟩

theorem Quiet.complete (h : Quiet policy e) (g : Nat) (t : Instant) (o : CircuitOutcome) :
    Quiet policy (policy.completeEntry g t o e).1 := by
  have hcompleted := completeEntry_completed policy g t o e
  generalize (policy.completeEntry g t o e).1 = e' at hcompleted
  cases hcompleted with
  | skipped => exact h
  | closed hsuc _ _ hevi =>
    subst hsuc
    intro _
    unfold healthFailures
    rw [hevi]
    exact policy.threshold_pos
  | opened _ _ hop _ => exact fun hcl => absurd hcl hop
  | left _ hwasOpen hsame _ => exact fun hcl => absurd (hsame ▸ hcl) hwasOpen

/-! ## 4. The loops over a permit's probes -/

theorem Lawful.completeAll (h : Lawful policy e) (t : Instant) (o : CircuitOutcome)
    (probes : List ReservedProbe) :
    Lawful policy (probes.foldl (fun e q => (policy.completeEntry q.generation t o e).1) e) := by
  induction probes generalizing e with
  | nil => exact h
  | cons q rest ih => exact ih (h.complete q.generation t o)

theorem Quiet.completeAll (h : Quiet policy e) (t : Instant) (o : CircuitOutcome)
    (probes : List ReservedProbe) :
    Quiet policy (probes.foldl (fun e q => (policy.completeEntry q.generation t o e).1) e) := by
  induction probes generalizing e with
  | nil => exact h
  | cons q rest ih => exact ih (h.complete q.generation t o)

theorem releaseAll_rest (probes : List ReservedProbe) (e : ScopeEntry) :
    (probes.foldl (fun e q => releaseEntry q.generation e) e).evidence = e.evidence ∧
      (probes.foldl (fun e q => releaseEntry q.generation e) e).openedUntil = e.openedUntil := by
  induction probes generalizing e with
  | nil => exact ⟨rfl, rfl⟩
  | cons q rest ih =>
    obtain ⟨hevi, hop⟩ := ih (releaseEntry q.generation e)
    rw [foldl_cons, hevi, hop]
    unfold releaseEntry
    split <;> exact ⟨rfl, rfl⟩

theorem completeAll_closed (probes : List ReservedProbe) (hcl : e.openedUntil = none) :
    probes.foldl (fun e q => (policy.completeEntry q.generation t o e).1) e = e := by
  induction probes with
  | nil => rfl
  | cons q rest ih => rw [foldl_cons, completeEntry_closed policy hcl, ih]

/-- **Only a success of a current probe closes an open scope.** -/
theorem completeAll_closes (probes : List ReservedProbe) (hop : e.openedUntil ≠ none)
    (hcl : (probes.foldl (fun e q => (policy.completeEntry q.generation t o e).1) e).openedUntil =
      none) : o = .success ∧ e.state (e.timeline t) = .halfOpen ∧
        ∃ q ∈ probes, q.generation = e.probeGeneration := by
  induction probes generalizing e with
  | nil => exact absurd hcl hop
  | cons q rest ih =>
    rw [foldl_cons] at hcl
    have hfst := completeEntry_completed policy q.generation t o e
    generalize (policy.completeEntry q.generation t o e).1 = e' at hcl hfst
    cases hfst with
    | skipped =>
      obtain ⟨hsuc, hhalf, p, hp, hgen⟩ := ih hop hcl
      exact ⟨hsuc, hhalf, p, mem_cons_of_mem _ hp, hgen⟩
    | closed hsuc hcur hhalf _ =>
      exact ⟨hsuc, hhalf, q, mem_cons_self, hcur⟩
    | opened hcts _ hop' _ =>
      obtain ⟨hsuc, -⟩ := ih hop' hcl
      rw [hsuc] at hcts
      cases hcts
    | left hfailed _ hsame _ =>
      obtain ⟨hsuc, -⟩ := ih (hsame ▸ hop) hcl
      exact absurd hsuc hfailed

theorem completeAll_isolated (probes : List ReservedProbe) (h : o.isIsolated = true) :
    (probes.foldl (fun e q => (policy.completeEntry q.generation t o e).1) e).openedUntil =
      e.openedUntil := by
  induction probes generalizing e with
  | nil => rfl
  | cons q rest ih =>
    rw [foldl_cons, ih]
    have hfst := completeEntry_completed policy q.generation t o e
    generalize (policy.completeEntry q.generation t o e).1 = e' at hfst
    cases hfst with
    | skipped => rfl
    | closed hsuc _ _ _ => exact absurd hsuc (isIsolated_not h).1
    | opened hcts _ _ _ =>
      rw [(isIsolated_not h).2] at hcts
      cases hcts
    | left _ _ hsame _ => exact hsame

/-! ## 5. Every run -/

variable {w w' : World} {a : Action} {s : CircuitScope}

theorem withProbes_rest (e : ScopeEntry) (now : Instant) (n : Nat) :
    (e.withProbes now n).evidence = e.evidence ∧
      (e.withProbes now n).openedUntil = e.openedUntil := by
  unfold withProbes
  split <;> exact ⟨rfl, rfl⟩

/-- **Every step keeps the law of every entry.** -/
theorem EntryStep.lawful (hstep : EntryStep policy w s a e') (h : Lawful policy (w.entry s)) :
    Lawful policy e' := by
  cases hstep with
  | kept => exact h
  | recorded t o _ => exact h.record t o
  | acquired _ now n | acquiredCandidate _ now n =>
    exact h.of_sublist ((withProbes_rest (w.entry s) now n).1 ▸ .refl _)
  | evicted now => exact h.of_sublist (dropWhile_sublist _)
  | completed t o _ _ _ => exact h.completeAll t o _
  | released _ _ => exact h.of_sublist ((releaseAll_rest _ (w.entry s)).1 ▸ .refl _)

theorem lawful_reach (policy : CircuitPolicy) (hw : (circuit policy).Reach .start w)
    (s : CircuitScope) : Lawful policy (w.entry s) := by
  refine hw.invariant (I := fun u => ∀ s, Lawful policy (u.entry s)) ?_ ?_ s
  · intro s
    exact lawful_default policy
  · intro u a v hu _ hstep s
    exact (step_entry hstep s).lawful (hu s)

/-- The sum that a call forms to open a closed scope, if it forms one, is an instant. -/
def World.Representable (policy : CircuitPolicy) (w : World) : Action → Prop
  | .record scope t o =>
    policy.full w.book scope = false → policy.Representable t o (w.entry scope)
  | .tryAcquire .. | .tryAcquireCandidate .. | .evidenceSummary .. | .complete .. | .release _
  | .drop _ => True

instance (w : World) (a : Action) : Decidable (w.Representable policy a) :=
  match a with
  | .record .. => inferInstanceAs (Decidable (_ → _))
  | .tryAcquire .. | .tryAcquireCandidate .. | .evidenceSummary .. | .complete .. | .release _
  | .drop _ => .isTrue trivial

/-- **A step keeps a scope quiet** if its sum is representable. -/
theorem EntryStep.quiet (hstep : EntryStep policy w s a e') (h : Lawful policy (w.entry s))
    (hquiet : Quiet policy (w.entry s)) (hrep : w.Representable policy a) : Quiet policy e' := by
  cases hstep with
  | kept => exact hquiet
  | recorded t o hroom => exact (quiet_record h hquiet t o).mpr (hrep hroom)
  | acquired _ now n | acquiredCandidate _ now n =>
    obtain ⟨hevi, hop⟩ := withProbes_rest (w.entry s) now n
    exact hquiet.of_sublist (hevi ▸ .refl _) hop
  | evicted now => exact hquiet.of_sublist (dropWhile_sublist _) rfl
  | completed t o _ _ _ => exact hquiet.completeAll t o _
  | released _ _ =>
    obtain ⟨hevi, hop⟩ := releaseAll_rest _ (w.entry s)
    exact hquiet.of_sublist (hevi ▸ .refl _) hop

theorem quiet_reach (policy : CircuitPolicy)
    (hw : (circuit policy).ReachIf (fun u a => u.Representable policy a) .start w)
    (s : CircuitScope) : Quiet policy (w.entry s) := by
  refine (hw.invariant (I := fun u => ∀ s, Lawful policy (u.entry s) ∧ Quiet policy (u.entry s))
    ?_ ?_ s).2
  · intro s
    exact ⟨lawful_default policy, fun _ => policy.threshold_pos⟩
  · intro u a v hu hrep hstep s
    have hent := step_entry hstep s
    exact ⟨hent.lawful (hu s).1, hent.quiet (hu s).1 (hu s).2 hrep⟩

/-- Where a sum is not representable, the scope it was to open is closed and not quiet. -/
theorem representable_of_quiet (hlawful : ∀ s, Lawful policy (w.entry s))
    (hquiet : ∀ s, Quiet policy (w.entry s)) (hstep : (circuit policy).step w a = some w')
    (hafter : ∀ s, Quiet policy (w'.entry s)) : w.Representable policy a := by
  cases a with
  | record scope t o =>
    intro hroom
    cases hstep
    have hent : World.entry { w with book := (policy.record w.book scope t o).2 } scope =
        (policy.recordEntry t o (w.entry scope)).1 := by
      unfold World.entry CircuitPolicy.record
      simp only [hroom, Bool.false_eq_true, if_false, AList.lookup_insert]
      rfl
    exact (quiet_record (hlawful scope) (hquiet scope) t o).mp (hent ▸ hafter scope)
  | tryAcquire | tryAcquireCandidate | evidenceSummary | complete | release | drop => trivial

section

variable (hstep : EntryStep policy w s a e')

include hstep

/-- **What a step can do to the state of a scope**: nothing, unless it records or completes. -/
theorem EntryStep.state_cases :
    e'.openedUntil = (w.entry s).openedUntil ∨
    (∃ t o, a = .record s t o ∧ e' = (policy.recordEntry t o (w.entry s)).1) ∨
    ∃ id p t o, ∃ done ⊆ p.scopes, a = .complete id t o ∧ w.permits.lookup id = some p ∧
      p.active = true ∧ e' = (done.filter fun q => decide (q.scope = s)).foldl
        (fun e q => (policy.completeEntry q.generation t o e).1) (w.entry s) := by
  cases hstep with
  | kept | evicted => exact .inl rfl
  | recorded t o _ => exact .inr (.inl ⟨t, o, rfl, rfl⟩)
  | acquired | acquiredCandidate => exact .inl (withProbes_rest _ _ _).2
  | completed t o hlk hact hpart => exact .inr (.inr ⟨_, _, t, o, _, hpart, rfl, hlk, hact, rfl⟩)
  | released => exact .inl (releaseAll_rest _ _).2

/-- **A closed scope opens exactly when a recorded health failure reaches the threshold**, and it is
open on the timeline of that record, if it is quiet before and after. -/
theorem EntryStep.opens (h : Lawful policy (w.entry s)) (hquiet : Quiet policy (w.entry s))
    (hafter : Quiet policy e') (hcl : (w.entry s).openedUntil = none) :
    (e'.openedUntil ≠ none ↔ ∃ t o, a = .record s t o ∧ o.countsTowardHealth = true ∧
      e'.healthFailures = policy.failureThreshold) ∧
    ∀ t o, a = .record s t o → e'.openedUntil ≠ none →
      e'.state ((w.entry s).timeline t) = .open := by
  by_cases hnone : e'.openedUntil = none
  · -- where nothing is opened, no record has reached the threshold either
    refine ⟨⟨fun hop => absurd hnone hop, ?_⟩, fun _ _ _ hop => absurd hnone hop⟩
    rintro ⟨t, o, -, -, hreached⟩
    exact absurd hreached (hafter hnone).ne
  rcases hstep.state_cases with hsame | ⟨t, o, rfl, rfl⟩ | ⟨id, p, t, o, done, -, -, -, -, rfl⟩
  · exact absurd (hsame.trans hcl) hnone
  · obtain ⟨hiff, huntil⟩ := recordEntry_closed policy t o hcl
    obtain ⟨hcts, hle, -⟩ := hiff.mp hnone
    have hone := (recordEvidence_lawful h t o).2.2.2
    rw [← recordEntry_failures, if_pos hcts] at hone
    refine ⟨⟨fun _ => ⟨t, o, rfl, hcts, ?_⟩, fun _ => hnone⟩, ?_⟩
    · have hbefore := hquiet hcl
      omega
    · intro t' o' heq hop
      cases heq
      unfold ScopeEntry.state
      rw [huntil hop]
      exact if_pos (Nat.lt_add_of_pos_right policy.open_pos)
  · rw [completeAll_closed _ hcl] at hnone
    exact absurd hcl hnone

/-- **Only the success of a current probe closes a scope.** -/
theorem EntryStep.closes (hop : (w.entry s).openedUntil ≠ none) (hcl : e'.openedUntil = none) :
    ∃ id t p q, a = .complete id t .success ∧ w.permits.lookup id = some p ∧ p.active = true ∧
      q ∈ p.scopes ∧ q.scope = s ∧ q.generation = (w.entry s).probeGeneration ∧
      (w.entry s).state ((w.entry s).timeline t) = .halfOpen := by
  rcases hstep.state_cases with hsame | ⟨t, o, -, rfl⟩ |
    ⟨id, p, t, o, done, hpart, rfl, hlk, hact, rfl⟩
  · exact absurd (hsame.symm.trans hcl) hop
  · exact absurd ((recordEntry_opened hop).symm.trans hcl) hop
  · obtain ⟨rfl, hhalf, q, hq, hgen⟩ := completeAll_closes _ hop hcl
    obtain ⟨hmem, hsc⟩ := mem_filter.mp hq
    exact ⟨id, t, p, q, rfl, hlk, hact, hpart hmem, of_decide_eq_true hsc, hgen, hhalf⟩

/-- **Isolated failures change no state**, of any scope. -/
theorem EntryStep.isolated {o : CircuitOutcome} (h : o.isIsolated = true)
    (ha : (∃ scope t, a = .record scope t o) ∨ ∃ id t, a = .complete id t o) :
    e'.openedUntil = (w.entry s).openedUntil := by
  rcases hstep.state_cases with hsame | ⟨t, o', rfl, rfl⟩ | ⟨id, p, t, o', done, -, rfl, -, -, rfl⟩
  · exact hsame
  · obtain ⟨_, _, heq⟩ := ha.resolve_right nofun
    cases heq
    exact recordEntry_isolated h
  · obtain ⟨_, _, heq⟩ := ha.resolve_left nofun
    cases heq
    exact completeAll_isolated _ h

end

/-- **The transition law.**  In every world that any sequence of calls reaches, with any instants,
the samples of each scope are sorted, bounded in number and within the window of the newest; and
whatever is called next, an open or half-open scope closes only through the success of an active
permit's current probe, and isolated failures change the state of no scope.  If the sums formed on
the way were representable, a closed scope holds fewer failures than the threshold; and the next
call keeps that, and opens a closed scope exactly when it records the health failure that brings the
retained ones to the threshold, if and only if its own sum is representable. -/
theorem circuit_transition_law (policy : CircuitPolicy) (hw : (circuit policy).Reach .start w) :
    (∀ s, (w.entry s).evidence.Pairwise (fun x y => x.observedAt ≤ y.observedAt) ∧
      (w.entry s).evidence.length ≤ policy.maxSamplesPerScope ∧
      ∀ newest, (w.entry s).evidence.getLast? = some newest → ∀ x ∈ (w.entry s).evidence,
        newest.observedAt - x.observedAt ≤ policy.window) ∧
    (∀ a w', (circuit policy).step w a = some w' → ∀ s,
      ((w.entry s).openedUntil ≠ none → (w'.entry s).openedUntil = none →
        ∃ id t p q, a = .complete id t .success ∧ w.permits.lookup id = some p ∧
          p.active = true ∧ q ∈ p.scopes ∧ q.scope = s ∧
          q.generation = (w.entry s).probeGeneration ∧
          (w.entry s).state ((w.entry s).timeline t) = .halfOpen) ∧
      ∀ o, o.isIsolated = true →
        ((∃ scope t, a = .record scope t o) ∨ ∃ id t, a = .complete id t o) →
        ∀ now, (w'.entry s).state now = (w.entry s).state now) ∧
    ((circuit policy).ReachIf (fun u a => u.Representable policy a) .start w →
      (∀ s now, (w.entry s).state now = .closed →
        (w.entry s).healthFailures < policy.failureThreshold) ∧
      ∀ a w', (circuit policy).step w a = some w' →
        ((∀ s, (∀ now, (w'.entry s).state now = .closed →
              (w'.entry s).healthFailures < policy.failureThreshold) ∧
            ((w.entry s).openedUntil = none →
              ((w'.entry s).openedUntil ≠ none ↔ ∃ t o, a = .record s t o ∧
                o.countsTowardHealth = true ∧
                (w'.entry s).healthFailures = policy.failureThreshold) ∧
              ∀ t o, a = .record s t o → (w'.entry s).openedUntil ≠ none →
                (w'.entry s).state ((w.entry s).timeline t) = .open)) ↔
          w.Representable policy a)) := by
  have hlawful := lawful_reach policy hw
  refine ⟨fun s => ⟨(hlawful s).sorted, (hlawful s).bounded, ?_⟩, ?_, ?_⟩
  · intro newest hlast x hx
    have hle := (hlawful s).recent x hx newest (mem_of_getLast? hlast)
    exact Nat.sub_le_iff_le_add'.mpr hle
  · intro a w' hstep s
    have hent := step_entry hstep s
    refine ⟨hent.closes, ?_⟩
    intro o hisolated ha now
    unfold ScopeEntry.state
    rw [hent.isolated hisolated ha]
  · intro hreach
    have hquiet := quiet_reach policy hreach
    refine ⟨fun s now hcl => hquiet s (state_eq_closed.mp hcl), fun a w' hstep => ⟨?_, ?_⟩⟩
    · intro hafter
      refine representable_of_quiet hlawful hquiet hstep fun s hcl => ?_
      exact (hafter s).1 0 (state_eq_closed.mpr hcl)
    · intro hrep s
      have hent := step_entry hstep s
      have hafter := hent.quiet (hlawful s) (hquiet s) hrep
      exact ⟨fun now hcl => hafter (state_eq_closed.mp hcl),
        hent.opens (hlawful s) (hquiet s) hafter⟩

end

/-- A timeout that is older than the window does not count, the next one opens the scope. -/
theorem circuit_transition_law_timeouts : ∃ policy w w',
    CircuitPolicy.new 8 4 10 2 5 1 = .ok policy ∧
    (circuit policy).runIf (fun u a => u.Representable policy a) .start
      [.record ⟨.provider, "provider-a"⟩ 20 .timeout,
        .record ⟨.provider, "provider-a"⟩ 0 .timeout] = some w ∧
    (circuit policy).step w (.record ⟨.provider, "provider-a"⟩ 20 .throttled) = some w' ∧
    (w'.entry ⟨.provider, "provider-a"⟩).openedUntil ≠ none := by
  obtain ⟨policy, w, w', hnew, hrun, hstep, hrep, hcl, hreached⟩ : ∃ policy w w',
      CircuitPolicy.new 8 4 10 2 5 1 = .ok policy ∧
      (circuit policy).runIf (fun u a => u.Representable policy a) .start
        [.record ⟨.provider, "provider-a"⟩ 20 .timeout,
          .record ⟨.provider, "provider-a"⟩ 0 .timeout] = some w ∧
      (circuit policy).step w (.record ⟨.provider, "provider-a"⟩ 20 .throttled) = some w' ∧
      w.Representable policy (.record ⟨.provider, "provider-a"⟩ 20 .throttled) ∧
      (w.entry ⟨.provider, "provider-a"⟩).openedUntil = none ∧
      (w'.entry ⟨.provider, "provider-a"⟩).healthFailures = policy.failureThreshold :=
    ⟨_, _, _, rfl, rfl, rfl, by decide, rfl, rfl⟩
  have hreach := Machine.reachIf_of_runIf _ hrun
  obtain ⟨-, -, hlaw⟩ := circuit_transition_law policy (hreach.mono fun _ _ _ => trivial)
  obtain ⟨-, hopens⟩ := ((hlaw hreach).2 _ _ hstep).mpr hrep ⟨.provider, "provider-a"⟩
  exact ⟨policy, w, w', hnew, hrun, hstep, (hopens hcl).1.mpr ⟨20, .throttled, rfl, rfl, hreached⟩⟩

/-- **A closed scope with its threshold reached.**  The policy opens for `Duration::MAX`, so the sum
panics at every instant but the earliest; the failure is stored, and the scope stays closed. -/
theorem unrepresentable_sum_stays_closed : ∃ policy w,
    CircuitPolicy.new 8 4 10 1 (2 ^ 64 * 10 ^ 9 - 1) 1 = .ok policy ∧
    (circuit policy).run .start [.record ⟨.provider, "provider-a"⟩ (2 ^ 63 * 10 ^ 9) .timeout] =
      some w ∧
    (∀ now, (w.entry ⟨.provider, "provider-a"⟩).state now = .closed) ∧
    policy.failureThreshold ≤ (w.entry ⟨.provider, "provider-a"⟩).healthFailures :=
  ⟨_, _, rfl, rfl, fun _ => rfl, by decide⟩

end Omnius.Routing
