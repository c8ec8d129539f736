/-
# Half-open slots: none leaked, none overbooked, and the one way to lose one

While a scope is half-open, `half_open_probes` should be the number of permits that still hold one
of its slots.  Every path that ends a permit gives its slots back, except one: `complete_probe`
skips a scope whose state ON THE RECONSTRUCTED TIMELINE is not half-open.  A permit acquired at the
recovery instant and completed with an observation BEFORE it is skipped and then inactive, so
nothing will ever give the slot back; with the default of one probe the scope is blocked forever
(`late_observation_wedges`).  A completion that panics is not such a path: its permit stays active.

The other ways to lose count are a candidate that names one scope twice
(`duplicate_scope_overbooks`; the candidates of the router never do, `forCandidate_nodup`) and a
generation counter that comes around while a permit is held.  `World.orderly` rules the three out,
step by step, and then the account is exact in every world (`half_open_slots`).
-/
import Omnius.Routing.CircuitEntry

namespace Omnius.Routing

open Omnius.Lib Option Table World ScopeEntry

variable {p : CircuitProbePermit} {id : Nat}

/-! ## 1. The account -/

namespace World

variable (policy : CircuitPolicy) (w : World)

/-- Whether the permit still holds a slot of the scope in the generation. -/
def holds (s : CircuitScope) (g : Nat) (p : CircuitProbePermit) : Nat :=
  if p.active = true ∧ ⟨s, g⟩ ∈ p.scopes then 1 else 0

/-- The number of active permits that reserved the scope in the generation. -/
def holders (s : CircuitScope) (g : Nat) : Nat := w.permits.total fun _ p => holds s g p

/-- Whether completing the probe at the instant is not before the recovery instant of its scope. -/
def timely (observedAt : Instant) (q : ReservedProbe) : Bool :=
  match (w.entry q.scope).openedUntil with
  | none => true
  | some u => decide ((w.entry q.scope).probeGeneration = q.generation →
      u ≤ (w.entry q.scope).timeline observedAt)

/-- No generation is about to come around. -/
def unwrapped : Bool := w.book.entries.all fun x => decide (x.2.probeGeneration + 1 < 2 ^ 64)

/-- **What keeps the account exact.**  No candidate names a scope twice, no completion is observed
before the recovery instant of a scope it holds a slot of, and no generation comes around. -/
def orderly (a : Action) : Bool :=
  w.unwrapped && match a with
    | .tryAcquireCandidate scopes _ => decide scopes.toList.Nodup
    | .complete id observedAt _ =>
      match w.permits.lookup id with
      | none => true
      | some p => !p.active || p.scopes.all (w.timely observedAt)
    | .record .. | .tryAcquire .. | .evidenceSummary .. | .release _ | .drop _ => true

/-- No generation is about to come around, stored or not. -/
def Unwrapped : Prop := ∀ s, (w.entry s).probeGeneration + 1 < 2 ^ 64

theorem unwrapped_of_orderly {w : World} {a : Action} (h : w.orderly a = true) : w.Unwrapped := by
  have hall := List.all_eq_true.mp (Bool.and_eq_true_iff.mp h).1
  intro s
  unfold entry
  cases hlk : w.book.lookup s with
  | none => decide
  | some e => exact of_decide_eq_true (hall ⟨s, e⟩ (AList.mem_lookup_iff.mp hlk))

/-- **The account.** -/
structure Slots : Prop where
  /-- No permit is ahead of its scope. -/
  earlier : ∀ id p, w.permits.lookup id = some p → ∀ q ∈ p.scopes,
    q.generation ≤ (w.entry q.scope).probeGeneration
  distinct : ∀ id p, w.permits.lookup id = some p → (p.scopes.map (·.scope)).Nodup
  closed : ∀ s, (w.entry s).openedUntil = none → (w.entry s).halfOpenProbes = 0
  opened : ∀ s, (w.entry s).openedUntil ≠ none →
    (w.entry s).halfOpenProbes = w.holders s (w.entry s).probeGeneration
  bounded : ∀ s, (w.entry s).halfOpenProbes ≤ policy.halfOpenMaxProbes
  /-- Permits are numbered as they are made. -/
  numbered : ∀ id p, w.permits.lookup id = some p → id < w.nextPermit

end World

section

variable {policy : CircuitPolicy} {w w' : World} {s : CircuitScope}

/-- A generation that no permit has reached has no holders. -/
theorem World.Slots.holders_next (hs : w.Slots policy) {g : Nat}
    (hg : (w.entry s).probeGeneration < g) : w.holders s g = 0 := by
  refine total_eq_zero ?_
  intro id p hp
  unfold holds
  rw [if_neg]
  rintro ⟨-, hmem⟩
  have hle := hs.earlier id p hp _ hmem
  simp only at hle
  omega

/-- Every permit of the later world is one of the earlier, perhaps spent. -/
def World.PermitsFrom (w w' : World) : Prop := ∀ id p, w'.permits.lookup id = some p →
  ∃ p₀, w.permits.lookup id = some p₀ ∧ p.scopes = p₀.scopes

/-- **A move that makes no permit keeps the account**: a scope loses the slots that lost their
holders, or all of them with its state or its generation. -/
theorem World.Slots.moved (hs : w.Slots policy) (hwrap : w.Unwrapped)
    (hper : w.PermitsFrom w') (hnext : w'.nextPermit = w.nextPermit)
    (hhs : ∀ s g, w'.holders s g ≤ w.holders s g)
    (hmove : ∀ s, ((w'.entry s).openedUntil = (w.entry s).openedUntil ∧
        (w'.entry s).probeGeneration = (w.entry s).probeGeneration ∧
        (w'.entry s).halfOpenProbes = (w.entry s).halfOpenProbes -
          (w.holders s (w.entry s).probeGeneration - w'.holders s (w.entry s).probeGeneration)) ∨
      (w'.entry s).halfOpenProbes = 0 ∧ ((w'.entry s).openedUntil = none ∧
        (w'.entry s).probeGeneration = (w.entry s).probeGeneration ∨
        (w'.entry s).probeGeneration = ((w.entry s).probeGeneration + 1) % 2 ^ 64)) :
    w'.Slots policy := by
  constructor
  · intro id p hp q hq
    obtain ⟨p₀, hp₀, hscs⟩ := hper id p hp
    refine (hs.earlier id p₀ hp₀ q (hscs ▸ hq)).trans ?_
    rcases hmove q.scope with ⟨-, hgen, -⟩ | ⟨-, ⟨-, hgen⟩ | hgen⟩
    · exact hgen.ge
    · exact hgen.ge
    · rw [hgen, Nat.mod_eq_of_lt (hwrap q.scope)]
      exact Nat.le_succ _
  · intro id p hp
    obtain ⟨p₀, hp₀, hscs⟩ := hper id p hp
    rw [hscs]
    exact hs.distinct id p₀ hp₀
  · intro s hcl
    rcases hmove s with ⟨hop, -, hprb⟩ | ⟨hprb, -⟩
    · rw [hprb, hs.closed s (hop ▸ hcl), Nat.zero_sub]
    · exact hprb
  · intro s hop
    rcases hmove s with ⟨hsame, hgen, hprb⟩ | ⟨hprb, ⟨hnone, -⟩ | hgen⟩
    · rw [hprb, hgen, hs.opened s (hsame ▸ hop), Nat.sub_sub_self (hhs s _)]
    · exact absurd hnone hop
    · have haft := hhs s ((w.entry s).probeGeneration + 1)
      rw [hs.holders_next (Nat.lt_succ_self _)] at haft
      rw [hprb, hgen, Nat.mod_eq_of_lt (hwrap s), Nat.le_zero.mp haft]
  · intro s
    refine le_trans ?_ (hs.bounded s)
    rcases hmove s with ⟨-, -, hprb⟩ | ⟨hprb, -⟩ <;> omega
  · intro id p hp
    obtain ⟨p₀, hp₀, -⟩ := hper id p hp
    exact hnext ▸ hs.numbered id p₀ hp₀

/-- **A move of the entries that leaves the permits alone keeps the account.** -/
theorem World.Slots.entries (hs : w.Slots policy) (hwrap : w.Unwrapped)
    (hper : w'.permits = w.permits) (hnext : w'.nextPermit = w.nextPermit)
    (hmove : ∀ s, SlotMove (w.entry s) (w'.entry s)) : w'.Slots policy := by
  have hhs : ∀ s g, w'.holders s g = w.holders s g := by
    intro s g
    unfold holders
    rw [hper]
  refine hs.moved hwrap (fun id p hp => ⟨p, hper ▸ hp, rfl⟩) hnext
    (fun s g => (hhs s g).le) fun s => ?_
  cases hmove s with
  | kept hop hprb hgen =>
    rw [hhs, Nat.sub_self]
    exact .inl ⟨hop, hgen, hprb⟩
  | closed hnone hprb hgen => exact .inr ⟨hprb, .inl ⟨hnone, hgen⟩⟩
  | opened _ hprb hgen => exact .inr ⟨hprb, .inr hgen⟩

/-! ## 2. Acquiring keeps the account -/

variable {now : Instant}

theorem admits_slot (had : policy.admits w.book now s = true)
    (hhalf : (w.entry s).state now = .halfOpen) :
    (w.entry s).halfOpenProbes < policy.halfOpenMaxProbes := by
  unfold CircuitPolicy.admits entry at *
  cases hlk : w.book.lookup s with
  | none =>
    rw [hlk] at hhalf
    cases hhalf
  | some e =>
    rw [hlk] at had hhalf
    rw [getD_some] at hhalf ⊢
    simp only [hhalf] at had
    exact of_decide_eq_true had

theorem World.Slots.acquire (hs : w.Slots policy) {scopes : List CircuitScope}
    (hnd : scopes.Nodup) : (w.acquire policy scopes now).Slots policy := by
  rcases w.acquire_eq policy scopes now with heq | ⟨had, hper, hnext, hent⟩
  · rw [heq]
    exact hs
  have hfr : w.permits.lookup w.nextPermit = none :=
    eq_none_iff_forall_ne_some.mpr fun p hp => lt_irrefl _ (hs.numbered _ p hp)
  have hsame : ∀ s, ((w.acquire policy scopes now).entry s).probeGeneration =
      (w.entry s).probeGeneration ∧
      ((w.acquire policy scopes now).entry s).openedUntil = (w.entry s).openedUntil := by
    intro s
    rw [hent, withProbes]
    split <;> exact ⟨rfl, rfl⟩
  have hhs : ∀ s g, (w.acquire policy scopes now).holders s g = w.holders s g +
      holds s g ⟨scopes.filterMap (probeAt now w.book), true⟩ := by
    intro s g
    unfold holders
    rw [hper]
    exact total_insert_new hfr
  -- the slots of a scope: one more exactly when it is half-open and was asked for
  have hprb : ∀ s, ((w.acquire policy scopes now).entry s).halfOpenProbes =
      (w.entry s).halfOpenProbes + holds s (w.entry s).probeGeneration
        ⟨scopes.filterMap (probeAt now w.book), true⟩ := by
    intro s
    rw [hent, withProbes, holds]
    by_cases hhalf : (w.entry s).state now = .halfOpen
    · rw [if_pos hhalf]
      by_cases hmem : s ∈ scopes
      · rw [if_pos ⟨rfl, mem_probes.mpr ⟨hmem, hhalf, rfl⟩⟩, List.count_eq_one_of_mem hnd hmem]
      · rw [if_neg (fun h => hmem (mem_probes.mp h.2).1), List.count_eq_zero_of_not_mem hmem]
    · rw [if_neg hhalf, if_neg (fun h => hhalf (mem_probes.mp h.2).2.1)]
      rfl
  constructor
  · intro id p hp q hq
    rw [(hsame q.scope).1]
    rcases lookup_insert_iff.mp (hper ▸ hp) with ⟨-, rfl⟩ | ⟨-, hold⟩
    · exact (mem_probes.mp hq).2.2.le
    · exact hs.earlier id p hold q hq
  · intro id p hp
    rcases lookup_insert_iff.mp (hper ▸ hp) with ⟨-, rfl⟩ | ⟨-, hold⟩
    · exact hnd.sublist (probes_sublist now w.book scopes)
    · exact hs.distinct id p hold
  · intro s hcl
    rw [(hsame s).2] at hcl
    rw [hent, withProbes, if_neg]
    · exact hs.closed s hcl
    · rw [state_eq_closed.mpr hcl]
      simp
  · intro s hop
    rw [(hsame s).2] at hop
    rw [(hsame s).1, hhs, hprb, hs.opened s hop]
  · intro s
    by_cases hhalf : s ∈ scopes ∧ (w.entry s).state now = .halfOpen
    · have hslot := admits_slot (had s hhalf.1) hhalf.2
      rw [hprb, holds]
      split <;> omega
    · rw [hprb, holds, if_neg]
      · exact hs.bounded s
      · rintro ⟨-, hmem⟩
        exact hhalf ⟨(mem_probes.mp hmem).1, (mem_probes.mp hmem).2.1⟩
  · intro id p hp
    rw [hnext]
    rcases lookup_insert_iff.mp (hper ▸ hp) with ⟨rfl, -⟩ | ⟨-, hold⟩
    · exact Nat.lt_succ_self _
    · exact (hs.numbered id p hold).trans (Nat.lt_succ_self _)

/-! ## 3. Ending a permit keeps the account -/

/-- What the end of a permit does to a scope that it holds a current slot of. -/
inductive Ended (e : ScopeEntry) : ScopeEntry → Prop
  | freed {e' : ScopeEntry} (openedUntil : e'.openedUntil = e.openedUntil)
      (probes : e'.halfOpenProbes = e.halfOpenProbes - 1)
      (generation : e'.probeGeneration = e.probeGeneration) : Ended e e'
  | closed {e' : ScopeEntry} (openedUntil : e'.openedUntil = none) (probes : e'.halfOpenProbes = 0)
      (generation : e'.probeGeneration = e.probeGeneration) : Ended e e'
  | opened {e' : ScopeEntry} (probes : e'.halfOpenProbes = 0)
      (generation : e'.probeGeneration = (e.probeGeneration + 1) % 2 ^ 64) : Ended e e'

/-- **Ending a permit keeps the account**, when every scope it holds a current slot of is told. -/
theorem World.Slots.ended (hs : w.Slots policy) (hwrap : w.Unwrapped)
    (hper : w.PermitsFrom w') (hnext : w'.nextPermit = w.nextPermit)
    (hhs : ∀ s g, w'.holders s g + holds s g p = w.holders s g)
    (hstale : ∀ s, holds s (w.entry s).probeGeneration p = 0 → w'.entry s = w.entry s)
    (hcur : ∀ s, holds s (w.entry s).probeGeneration p = 1 →
      Ended (w.entry s) (w'.entry s)) : w'.Slots policy := by
  refine hs.moved hwrap hper hnext (fun s g => hhs s g ▸ Nat.le_add_right _ _) fun s => ?_
  have hfreed := hhs s (w.entry s).probeGeneration
  have hcases : holds s (w.entry s).probeGeneration p = 0 ∨
      holds s (w.entry s).probeGeneration p = 1 := by
    unfold holds
    split
    · exact .inr rfl
    · exact .inl rfl
  rcases hcases with hnot | hheld
  · rw [hstale s hnot]
    exact .inl ⟨rfl, rfl, by omega⟩
  cases hcur s hheld with
  | freed hop hprb hgen => exact .inl ⟨hop, hgen, by omega⟩
  | closed hnone hprb hgen => exact .inr ⟨hprb, .inl ⟨hnone, hgen⟩⟩
  | opened hprb hgen => exact .inr ⟨hprb, .inr hgen⟩

/-- The entries after a loop over probes of distinct scopes. -/
theorem entry_probes {w : World} (w' : World) {probes : List ReservedProbe}
    (hnd : (probes.map (·.scope)).Nodup) {f : Nat → ScopeEntry → ScopeEntry}
    (hdefault : ∀ g, f g .default = .default)
    (hbook : w'.book = probes.foldl (fun book q => book.modify q.scope (f q.generation)) w.book)
    (s : CircuitScope) : ((∀ q ∈ probes, q.scope ≠ s) ∧ w'.entry s = w.entry s) ∨
      ∃ g, ⟨s, g⟩ ∈ probes ∧ w'.entry s = f g (w.entry s) := by
  have hent : w'.entry s = (probes.filter fun q => decide (q.scope = s)).foldl
      (fun e q => f q.generation e) (w.entry s) := by
    unfold entry
    rw [hbook]
    exact entry_foldl (fun q => hdefault q.generation) probes s
  rw [hent]
  by_cases hsc : ∃ q ∈ probes, q.scope = s
  · obtain ⟨q, hq, rfl⟩ := hsc
    refine .inr ⟨q.generation, hq, ?_⟩
    rw [filter_scope hnd hq]
    rfl
  · have hnot : ∀ q ∈ probes, q.scope ≠ s := fun q hq heq => hsc ⟨q, hq, heq⟩
    have hnil : (probes.filter fun q => decide (q.scope = s)) = [] := by
      rw [List.filter_eq_nil_iff]
      intro q hq heq
      exact hnot q hq (of_decide_eq_true heq)
    rw [hnil]
    exact .inl ⟨hnot, rfl⟩

/-- The entries after a loop over the probes of an active permit: only a current probe touches
one. -/
theorem entry_loop {w : World} (w' : World) (hs : w.Slots policy)
    (hp : w.permits.lookup id = some p) (hact : p.active = true)
    {f : Nat → ScopeEntry → ScopeEntry} (hdefault : ∀ g, f g .default = .default)
    (hstale : ∀ s g, g ≠ (w.entry s).probeGeneration → f g (w.entry s) = w.entry s)
    (hbook : w'.book = p.scopes.foldl (fun book q => book.modify q.scope (f q.generation)) w.book)
    (s : CircuitScope) :
    (holds s (w.entry s).probeGeneration p = 0 → w'.entry s = w.entry s) ∧
    (holds s (w.entry s).probeGeneration p = 1 →
      w'.entry s = f (w.entry s).probeGeneration (w.entry s) ∧
        ⟨s, (w.entry s).probeGeneration⟩ ∈ p.scopes) := by
  unfold holds
  by_cases hmem : ⟨s, (w.entry s).probeGeneration⟩ ∈ p.scopes
  · rw [if_pos ⟨hact, hmem⟩]
    refine ⟨(fun h => by cases h), fun _ => ⟨?_, hmem⟩⟩
    rcases entry_probes w' (hs.distinct id p hp) hdefault hbook s with ⟨hnot, -⟩ | ⟨g, hg, hent⟩
    · exact absurd rfl (hnot _ hmem)
    · cases List.inj_on_of_nodup_map (hs.distinct id p hp) hg hmem rfl
      exact hent
  · rw [if_neg fun h => hmem h.2]
    refine ⟨fun _ => ?_, fun h => by cases h⟩
    rcases entry_probes w' (hs.distinct id p hp) hdefault hbook s with ⟨-, hent⟩ | ⟨g, hg, hent⟩
    · exact hent
    · rw [hent]
      refine hstale s g ?_
      rintro rfl
      exact hmem hg

section

variable (hp : w.permits.lookup id = some p)

include hp

theorem holders_insert
    (hper : w'.permits = w.permits.insert id { p with active := false }) (s : CircuitScope)
    (g : Nat) : w'.holders s g + holds s g p = w.holders s g := by
  have htot := total_insert (fun _ => holds s g) w.permits id { p with active := false }
  rw [share_some hp] at htot
  have hzero : holds s g { p with active := false } = 0 := if_neg (by simp)
  unfold holders
  rw [hper, htot, hzero, Nat.add_zero]

theorem holders_erase (hper : w'.permits = w.permits.erase id) (s : CircuitScope) (g : Nat) :
    w'.holders s g + holds s g p = w.holders s g := by
  have htot := total_erase (fun _ => holds s g) w.permits id
  rw [share_some hp] at htot
  unfold holders
  rw [hper]
  exact htot

theorem permits_insert (hper : w'.permits = w.permits.insert id { p with active := false }) :
    w.PermitsFrom w' := by
  intro id' p' hp'
  rcases lookup_insert_iff.mp (hper ▸ hp') with ⟨rfl, rfl⟩ | ⟨-, hold⟩
  · exact ⟨p, hp, rfl⟩
  · exact ⟨p', hold, rfl⟩

end

theorem releaseEntry_ended (e : ScopeEntry) : Ended e (releaseEntry e.probeGeneration e) := by
  unfold releaseEntry
  rw [if_pos rfl]
  exact .freed rfl rfl rfl

theorem completeEntry_ended (policy : CircuitPolicy) {e : ScopeEntry} {t : Instant}
    {o : CircuitOutcome} (hcl : e.openedUntil = none → e.halfOpenProbes = 0)
    (htimely : ∀ u, e.openedUntil = some u → u ≤ e.timeline t)
    (hret : (policy.completeEntry e.probeGeneration t o e).2 = true) :
    Ended e (policy.completeEntry e.probeGeneration t o e).1 := by
  cases hu : e.openedUntil with
  | none =>
    rw [completeEntry_closed policy hu]
    refine .freed rfl ?_ rfl
    rw [hcl hu]
  | some u =>
    rcases completeEntry_current policy hu (htimely u hu) hret rfl with
      ⟨hsame, hprb, hgen⟩ | ⟨hprb, ⟨hnone, hgen⟩ | hgen⟩
    · exact .freed hsame hprb hgen
    · exact .closed hnone hprb hgen
    · exact .opened hprb hgen

theorem World.Slots.release (hs : w.Slots policy) (hwrap : w.Unwrapped)
    (hp : w.permits.lookup id = some p)
    (hbook : w'.book = if p.active then releaseProbes w.book p.scopes else w.book)
    (hper : w.PermitsFrom w') (hnext : w'.nextPermit = w.nextPermit)
    (hhs : ∀ s g, w'.holders s g + holds s g p = w.holders s g) : w'.Slots policy := by
  by_cases hact : p.active = true
  · rw [if_pos hact] at hbook
    have hloop := entry_loop w' hs hp hact releaseEntry_default
      (fun s g hg => releaseEntry_stale hg) hbook
    refine hs.ended hwrap hper hnext hhs (fun s => (hloop s).1) ?_
    intro s hheld
    rw [((hloop s).2 hheld).1]
    exact releaseEntry_ended _
  · rw [if_neg hact] at hbook
    refine hs.ended hwrap hper hnext hhs (fun s _ => ?_) fun s hheld => ?_
    · unfold entry
      rw [hbook]
    · rw [holds, if_neg fun h => hact h.1] at hheld
      cases hheld

/-! ## 4. Every run -/

theorem slots_start (policy : CircuitPolicy) : World.start.Slots policy where
  earlier := nofun
  distinct := nofun
  closed := fun _ _ => rfl
  opened := by
    intro s hop
    exact absurd rfl hop
  bounded := fun _ => Nat.zero_le _
  numbered := nofun

/-- **A completion keeps the account**, also one that panics: then its permit is still active. -/
theorem World.Slots.complete (hs : w.Slots policy) (hwrap : w.Unwrapped) {t : Instant}
    {o : CircuitOutcome} (hp : w.permits.lookup id = some p) (hact : p.active = true)
    (htimely : p.scopes.all (w.timely t) = true)
    (h : (circuit policy).step w (.complete id t o) = some w') : w'.Slots policy := by
  obtain ⟨_, hp', heq⟩ := map_eq_some_iff.mp h
  obtain rfl := Option.some.inj (hp.symm.trans hp')
  rw [if_pos hact] at heq
  obtain ⟨done, hpre, hdone, hend⟩ := completeProbe_done policy t o p.scopes w.book
  obtain ⟨hbook, hnext, hper⟩ := completed_eq heq
  rw [hdone] at hbook
  have hnd := hs.distinct id p hp
  have hdefault : ∀ g, (policy.completeEntry g t o .default).1 = .default := by
    intro g
    rw [completeEntry_closed policy rfl]
  rcases hend with ⟨hret, rfl⟩ | ⟨hpanic, hcts⟩
  · rw [if_pos hret] at hper
    have hloop := entry_loop w' hs hp hact (f := fun g e => (policy.completeEntry g t o e).1)
      hdefault (fun s g hg => by rw [completeEntry_stale policy hg]) hbook
    refine hs.ended hwrap (permits_insert hp hper) hnext (holders_insert hp hper)
      (fun s => (hloop s).1) ?_
    intro s hheld
    obtain ⟨hent, hmem⟩ := (hloop s).2 hheld
    rw [hent]
    refine completeEntry_ended policy (hs.closed s) (fun u hu => ?_) ?_
    · have htime := List.all_eq_true.mp htimely _ hmem
      unfold timely at htime
      simp only [hu] at htime
      exact of_decide_eq_true htime trivial
    · exact completeProbe_returned policy hnd hret hmem
  · rw [if_neg (by simp [hpanic])] at hper
    refine hs.entries hwrap hper hnext fun s => ?_
    have hpart := hnd.sublist (hpre.sublist.map _)
    rcases entry_probes w' hpart (f := fun g e => (policy.completeEntry g t o e).1) hdefault hbook
      s with ⟨-, hent⟩ | ⟨g, -, hent⟩
    · rw [hent]
      exact .kept rfl rfl rfl
    · rw [hent]
      exact completeEntry_move policy hcts

/-- **An orderly step keeps the account.** -/
theorem slots_step (hs : w.Slots policy) {a : Action} (horderly : w.orderly a = true)
    (h : (circuit policy).step w a = some w') : w'.Slots policy := by
  have hwrap := unwrapped_of_orderly horderly
  have hcond := (Bool.and_eq_true_iff.mp horderly).2
  cases a with
  | record scope t o =>
    cases h
    refine hs.entries hwrap rfl rfl fun s => ?_
    rcases w.entry_record policy scope t o s with heq | ⟨-, heq, -⟩
    · rw [heq]
      exact .kept rfl rfl rfl
    · rw [heq]
      exact recordEntry_move policy
  | tryAcquire scope now =>
    cases h
    exact hs.acquire (List.nodup_singleton scope)
  | tryAcquireCandidate scopes now =>
    cases h
    exact hs.acquire (of_decide_eq_true hcond)
  | evidenceSummary scope now =>
    cases h
    refine hs.entries hwrap rfl rfl fun s => ?_
    rcases w.entry_summary policy scope now s with heq | ⟨-, heq⟩
    all_goals
      rw [heq]
      exact .kept rfl rfl rfl
  | complete id t o =>
    obtain ⟨p, hp, heq⟩ := map_eq_some_iff.mp h
    by_cases hact : p.active = true
    · simp only [hp, hact, Bool.not_true, Bool.false_or] at hcond
      exact hs.complete hwrap hp hact hcond h
    · rw [if_neg hact] at heq
      rw [← heq]
      exact hs
  | release id =>
    obtain ⟨p, hp, heq⟩ := map_eq_some_iff.mp h
    by_cases hact : p.active = true
    · rw [if_pos hact] at heq
      refine hs.release hwrap hp ?_ (permits_insert hp (heq ▸ rfl)) (heq ▸ rfl)
        (holders_insert hp (heq ▸ rfl))
      rw [if_pos hact, ← heq]
    · rw [if_neg hact] at heq
      rw [← heq]
      exact hs
  | drop id =>
    obtain ⟨p, hp, heq⟩ := map_eq_some_iff.mp h
    have hper : w'.permits = w.permits.erase id := by rw [← heq]
    refine hs.release hwrap hp (heq ▸ rfl) (fun id' p' hp' => ?_) (heq ▸ rfl)
      (holders_erase hp hper)
    exact ⟨p', (lookup_erase_iff.mp (hper ▸ hp')).2, rfl⟩

theorem slots_reach (policy : CircuitPolicy)
    (hw : (circuit policy).ReachIf (fun u a => u.orderly a = true) .start w) : w.Slots policy :=
  hw.invariant (slots_start policy) fun _ _ _ hs horderly hstep => slots_step hs horderly hstep

theorem World.Slots.acquirable (hs : w.Slots policy)
    (hidle : ∀ id p, w.permits.lookup id = some p → p.active = false)
    (hhalf : (w.entry s).state now = .halfOpen) : (policy.acquireScopes w.book [s] now).1 =
      some [⟨s, (w.entry s).probeGeneration⟩] := by
  obtain ⟨u, hu, -⟩ := state_eq_halfOpen.mp hhalf
  have hnone : w.holders s (w.entry s).probeGeneration = 0 := by
    refine total_eq_zero fun id p hp => ?_
    rw [holds, if_neg]
    rintro ⟨hact, -⟩
    rw [hidle id p hp] at hact
    cases hact
  have hfree := hs.opened s (by rw [hu]; simp)
  rw [hnone] at hfree
  cases hlk : w.book.lookup s with
  | none =>
    rw [entry, hlk] at hhalf
    cases hhalf
  | some e =>
    have hent : w.entry s = e := by rw [entry, hlk]; rfl
    rw [hent] at hhalf hfree ⊢
    have had : policy.admits w.book now s = true := by
      unfold CircuitPolicy.admits
      simp only [hlk, hhalf, hfree]
      exact decide_eq_true policy.probes_pos
    unfold CircuitPolicy.acquireScopes
    rw [if_pos (by simp [had])]
    simp only [(reserveScopes_eq now [s] w.book).1]
    simp [probeAt, hlk, hhalf]

/-- **A permit of an earlier generation leaves a later recovery window alone**, however it ends. -/
theorem World.Slots.stale (hs : w.Slots policy) (hp : w.permits.lookup id = some p)
    (hstale : ∀ q ∈ p.scopes, q.scope = s → q.generation < (w.entry s).probeGeneration)
    {a : Action} (ha : (∃ t o, a = .complete id t o) ∨ a = .release id ∨ a = .drop id)
    (h : (circuit policy).step w a = some w') : w'.entry s = w.entry s := by
  have hnot : ⟨s, (w.entry s).probeGeneration⟩ ∉ p.scopes := by
    intro hmem
    exact lt_irrefl _ (hstale _ hmem rfl)
  have hhd : holds s (w.entry s).probeGeneration p = 0 := if_neg fun h => hnot h.2
  have hrelease : p.active = true → w'.book = releaseProbes w.book p.scopes →
      w'.entry s = w.entry s := by
    intro hact hbook
    exact (entry_loop w' hs hp hact releaseEntry_default
      (fun s g hg => releaseEntry_stale hg) hbook s).1 hhd
  rcases ha with ⟨t, o, rfl⟩ | rfl | rfl
  all_goals
    obtain ⟨_, hp', heq⟩ := map_eq_some_iff.mp h
    obtain rfl := Option.some.inj (hp.symm.trans hp')
  · split at heq
    · rename_i hact
      obtain ⟨done, hpre, hdone, -⟩ := completeProbe_done policy t o p.scopes w.book
      have hbook := (completed_eq heq).1
      rw [hdone] at hbook
      have hpart := (hs.distinct id p hp).sublist (hpre.sublist.map _)
      rcases entry_probes w' hpart (f := fun g e => (policy.completeEntry g t o e).1)
        (fun g => by rw [completeEntry_closed policy rfl]) hbook s with ⟨-, hent⟩ | ⟨g, hg, hent⟩
      · exact hent
      · have hlt := hstale _ (hpre.subset hg) rfl
        rw [hent, completeEntry_stale policy hlt.ne]
    · rw [← heq]
  · split at heq
    · rename_i hact
      exact hrelease hact (by rw [← heq])
    · rw [← heq]
  · by_cases hact : p.active = true
    · refine hrelease hact ?_
      rw [← heq]
      exact if_pos hact
    · unfold entry
      rw [← heq]
      simp [if_neg hact]

/-- **No slot is leaked and none is overbooked**, in every world that orderly steps reach: the slots
taken in a half-open scope are the active permits that hold one of its current generation, never
more than the policy allows; once no permit is active a half-open scope can be acquired; and a
permit of an earlier generation changes nothing of a later recovery window. -/
theorem half_open_slots (policy : CircuitPolicy)
    (hw : (circuit policy).ReachIf (fun u a => u.orderly a = true) .start w) :
    (∀ s, (w.entry s).openedUntil ≠ none →
      (w.entry s).halfOpenProbes = w.holders s (w.entry s).probeGeneration) ∧
    (∀ s, (w.entry s).halfOpenProbes ≤ policy.halfOpenMaxProbes) ∧
    ((∀ id p, w.permits.lookup id = some p → p.active = false) → ∀ s now,
      (w.entry s).state now = .halfOpen → (policy.acquireScopes w.book [s] now).1 =
        some [⟨s, (w.entry s).probeGeneration⟩]) ∧
    ∀ id p s, w.permits.lookup id = some p →
      (∀ q ∈ p.scopes, q.scope = s → q.generation ≤ (w.entry s).probeGeneration) ∧
      ((∀ q ∈ p.scopes, q.scope = s → q.generation < (w.entry s).probeGeneration) →
        ∀ a, ((∃ t o, a = .complete id t o) ∨ a = .release id ∨ a = .drop id) →
          ∀ w', (circuit policy).step w a = some w' → w'.entry s = w.entry s) := by
  have hs := slots_reach policy hw
  refine ⟨hs.opened, hs.bounded, fun hidle s now hhalf => hs.acquirable hidle hhalf, ?_⟩
  intro id p s hp
  refine ⟨?_, fun hstale a ha w' hstep => hs.stale hp hstale ha hstep⟩
  rintro q hq rfl
  exact hs.earlier id p hp q hq

/-! ## 5. When steps are orderly -/

end

/-- The candidates of the router name four scopes. -/
theorem forCandidate_nodup {provider model revision endpoint region : String}
    {scopes : Vector CircuitScope 4}
    (h : CircuitScope.forCandidate provider model revision endpoint region = .ok scopes) :
    scopes.toList.Nodup := by
  unfold CircuitScope.forCandidate CircuitScope.provider CircuitScope.endpoint
    CircuitScope.region CircuitScope.model at h
  repeat' split at h
  all_goals cases h
  simp

/-! ### One scope, one slot -/

def samplePolicy : CircuitPolicy :=
  ⟨8, 4, 10, 1, 5, 1, by decide, by decide, by decide, Nat.one_pos, by decide,
    Nat.succ_pos _, Nat.one_pos⟩

def sampleScope : CircuitScope := ⟨.provider, "provider-a"⟩

theorem idle_of_all {w : World} (h : (w.permits.entries.all fun x => !x.2.active) = true) (id : Nat)
    (p : CircuitProbePermit) (hp : w.permits.lookup id = some p) : p.active = false := by
  simpa using List.all_eq_true.mp h ⟨id, p⟩ (AList.mem_lookup_iff.mp hp)

/-- A probe that is acquired and given back leaves the slot for another one. -/
theorem half_open_slots_released : ∃ w, (circuit samplePolicy).runIf
      (fun u a => u.orderly a = true) .start
      [.record sampleScope 0 .timeout, .tryAcquire sampleScope 5, .release 0] = some w ∧
    (w.entry sampleScope).state 5 = .halfOpen ∧
    (samplePolicy.acquireScopes w.book [sampleScope] 5).1 = some [⟨sampleScope, 1⟩] := by
  refine ⟨_, rfl, rfl, ?_⟩
  have hslots := half_open_slots samplePolicy (Machine.reachIf_of_runIf
    [.record sampleScope 0 .timeout, .tryAcquire sampleScope 5, .release 0] rfl)
  exact hslots.2.2.1 (idle_of_all rfl) sampleScope 5 rfl

/-- **A slot can be leaked, and then the scope is blocked for good.**  The probe is acquired at the
recovery instant and its success is observed one instant earlier: the completion is skipped, the
permit is spent, and no acquisition ever succeeds again. -/
theorem late_observation_wedges : ∃ w, (circuit samplePolicy).run .start
      [.record sampleScope 0 .timeout, .tryAcquire sampleScope 5,
        .complete 0 4 .success] = some w ∧
    (∀ id p, w.permits.lookup id = some p → p.active = false) ∧
    (w.entry sampleScope).state 5 = .halfOpen ∧ (w.entry sampleScope).halfOpenProbes = 1 ∧
    w.holders sampleScope (w.entry sampleScope).probeGeneration = 0 ∧
    ∀ now, (samplePolicy.acquireScopes w.book [sampleScope] now).1 = none := by
  obtain ⟨w, e, hrun, hidle, hent, hop, hprb, hhs⟩ : ∃ w e,
      (circuit samplePolicy).run .start
        [.record sampleScope 0 .timeout, .tryAcquire sampleScope 5,
          .complete 0 4 .success] = some w ∧
      (w.permits.entries.all fun x => !x.2.active) = true ∧
      w.book.lookup sampleScope = some e ∧ e.openedUntil = some 5 ∧ e.halfOpenProbes = 1 ∧
      w.holders sampleScope (w.entry sampleScope).probeGeneration = 0 :=
    ⟨_, _, rfl, rfl, rfl, rfl, rfl, rfl⟩
  have hsame : w.entry sampleScope = e := by rw [entry, hent]; rfl
  refine ⟨w, hrun, idle_of_all hidle, ?_, hsame ▸ hprb, hhs, ?_⟩
  · rw [hsame]
    exact state_eq_halfOpen.mpr ⟨5, hop, le_refl 5⟩
  · intro now
    have had : samplePolicy.admits w.book now sampleScope = false := by
      unfold CircuitPolicy.admits
      simp only [hent]
      split
      · rfl
      · rw [hprb]
        rfl
      · rename_i hst
        rw [state_eq_closed, hop] at hst
        cases hst
    unfold CircuitPolicy.acquireScopes
    rw [if_neg (by simp [had])]

/-- A candidate that names one scope four times takes four slots where one is allowed. -/
theorem duplicate_scope_overbooks : ∃ w, (circuit samplePolicy).run .start
      [.record sampleScope 0 .timeout,
        .tryAcquireCandidate #v[sampleScope, sampleScope, sampleScope, sampleScope] 5] = some w ∧
    samplePolicy.halfOpenMaxProbes < (w.entry sampleScope).halfOpenProbes :=
  ⟨_, rfl, by decide⟩

end Omnius.Routing
