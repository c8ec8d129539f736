/-
# What one call does to one scope

A call of the breaker reads and writes several scopes, in loops over a permit's probes or over the
scopes of a candidate.  Each scope goes its own way: `step_entry` says what a step makes of the
entry of ONE scope, whatever it does to the others, and everything later is about single entries.
A completion that panics has worked off a first part of its probes.
-/
import Omnius.Routing.Circuit
import Mathlib.Data.Vector.Defs

namespace Omnius.Routing

open Omnius.Lib Option AList CircuitPolicy
open List hiding Vector

/-! ## 1. What the calls do to one scope -/

namespace ScopeEntry

theorem state_eq_closed {e : ScopeEntry} {now : Instant} :
    e.state now = .closed ↔ e.openedUntil = none := by
  unfold state
  cases e.openedUntil with
  | none => simp
  | some u =>
    simp only [reduceCtorEq, iff_false]
    split <;> simp

theorem state_eq_halfOpen {e : ScopeEntry} {now : Instant} :
    e.state now = .halfOpen ↔ ∃ u, e.openedUntil = some u ∧ u ≤ now := by
  unfold state
  cases e.openedUntil with
  | none => simp
  | some u =>
    simp only [some.injEq, exists_eq_left']
    split
    · rename_i hlt
      simpa using hlt
    · rename_i hle
      simpa using hle

end ScopeEntry

/-- **What one call can do to the slots of a scope.** -/
inductive SlotMove (e : ScopeEntry) : ScopeEntry → Prop
  | kept {e' : ScopeEntry} (openedUntil : e'.openedUntil = e.openedUntil)
      (probes : e'.halfOpenProbes = e.halfOpenProbes)
      (generation : e'.probeGeneration = e.probeGeneration) : SlotMove e e'
  | closed {e' : ScopeEntry} (openedUntil : e'.openedUntil = none) (probes : e'.halfOpenProbes = 0)
      (generation : e'.probeGeneration = e.probeGeneration) : SlotMove e e'
  | opened {e' : ScopeEntry} (openedUntil : e'.openedUntil ≠ none) (probes : e'.halfOpenProbes = 0)
      (generation : e'.probeGeneration = (e.probeGeneration + 1) % 2 ^ 64) : SlotMove e e'

section

variable (policy : CircuitPolicy) {e : ScopeEntry} {t : Instant} {o : CircuitOutcome}

theorem openFrom_move : SlotMove e (policy.openFrom t e).1 := by
  unfold openFrom
  split
  · exact .opened (by simp [ScopeEntry.openUntil]) rfl rfl
  · exact .kept rfl rfl rfl

theorem recordEntry_move : SlotMove e (policy.recordEntry t o e).1 := by
  unfold recordEntry
  simp only
  split
  · exact .closed rfl rfl rfl
  · split
    · cases openFrom_move policy with
      | kept hop hprb hgen => exact .kept hop hprb hgen
      | closed hop hprb hgen => exact .closed hop hprb hgen
      | opened hop hprb hgen => exact .opened hop hprb hgen
    · exact .kept rfl rfl rfl

theorem openFrom_returned (h : (policy.openFrom t e).2 = true) :
    (policy.openFrom t e).1 = e.openUntil (t + policy.openDuration) := by
  unfold openFrom at *
  split
  · rfl
  · rename_i hbeyond
    rw [if_neg hbeyond] at h
    cases h

/-- A completion of a current probe that returns closes the scope, opens it, or frees the slot. -/
theorem completeEntry_current {u : Instant} (hu : e.openedUntil = some u)
    (htimely : u ≤ e.timeline t)
    (hret : (policy.completeEntry e.probeGeneration t o e).2 = true) {e' : ScopeEntry}
    (he' : (policy.completeEntry e.probeGeneration t o e).1 = e') :
    (e'.openedUntil = e.openedUntil ∧ e'.halfOpenProbes = e.halfOpenProbes - 1 ∧
      e'.probeGeneration = e.probeGeneration) ∨
    e'.halfOpenProbes = 0 ∧ ((e'.openedUntil = none ∧ e'.probeGeneration = e.probeGeneration) ∨
      e'.probeGeneration = (e.probeGeneration + 1) % 2 ^ 64) := by
  have hhalf : e.state (e.timeline t) = .halfOpen :=
    ScopeEntry.state_eq_halfOpen.mpr ⟨u, hu, htimely⟩
  subst he'
  unfold completeEntry at hret ⊢
  rw [if_neg (by simp [hhalf])] at hret ⊢
  simp only at hret ⊢
  split
  · exact .inr ⟨rfl, .inl ⟨rfl, rfl⟩⟩
  rename_i hfailed
  rw [if_neg hfailed] at hret
  split
  · rename_i hcts
    rw [if_pos hcts] at hret
    rw [openFrom_returned policy hret]
    exact .inr ⟨rfl, .inr rfl⟩
  · exact .inl ⟨rfl, rfl, rfl⟩

/-- A health failure opens the scope or leaves its slots alone. -/
theorem completeEntry_move {g : Nat} (h : o.countsTowardHealth = true) :
    SlotMove e (policy.completeEntry g t o e).1 := by
  unfold completeEntry
  split
  · exact .kept rfl rfl rfl
  simp only
  have hfailed : o ≠ .success := by
    rintro rfl
    cases h
  rw [if_neg hfailed]
  cases openFrom_move policy with
  | kept hop hprb hgen => exact .kept hop hprb hgen
  | closed hop hprb hgen => exact .closed hop hprb hgen
  | opened hop hprb hgen => exact .opened hop hprb hgen

/-- Only a health failure panics. -/
theorem completeEntry_panics {g : Nat} (h : (policy.completeEntry g t o e).2 = false) :
    o.countsTowardHealth = true := by
  by_contra hcts
  unfold completeEntry at h
  split at h
  · cases h
  simp only at h
  split at h <;> cases h

theorem completeEntry_stale {g : Nat} (hg : g ≠ e.probeGeneration) :
    policy.completeEntry g t o e = (e, true) := by
  unfold completeEntry
  rw [if_pos (.inl (Ne.symm hg))]

theorem completeEntry_closed {g : Nat} (hcl : e.openedUntil = none) :
    policy.completeEntry g t o e = (e, true) := by
  unfold completeEntry
  rw [if_pos (.inr (by rw [ScopeEntry.state_eq_closed.mpr hcl]; simp))]

theorem releaseEntry_stale {g : Nat} (hg : g ≠ e.probeGeneration) : releaseEntry g e = e := by
  unfold releaseEntry
  rw [if_neg (Ne.symm hg)]

end

theorem filter_scope {probes : List ReservedProbe} (hnd : (probes.map (·.scope)).Nodup)
    {q : ReservedProbe} (hq : q ∈ probes) :
    (probes.filter fun p => decide (p.scope = q.scope)) = [q] := by
  induction probes with
  | nil => cases hq
  | cons p rest ih =>
    rw [map_cons, nodup_cons] at hnd
    have hnone : ∀ s, s ∉ rest.map (·.scope) →
        (rest.filter fun p => decide (p.scope = s)) = [] := by
      intro s hs
      rw [filter_eq_nil_iff]
      intro p' hp' heq
      exact hs (mem_map.mpr ⟨p', hp', of_decide_eq_true heq⟩)
    rcases mem_cons.mp hq with rfl | hq
    · rw [filter_cons, if_pos (by simp), hnone _ hnd.1]
    · have hne : p.scope ≠ q.scope := by
        intro heq
        exact hnd.1 (heq ▸ mem_map.mpr ⟨q, hq, rfl⟩)
      rw [filter_cons, if_neg (by simpa using hne), ih hnd.2 hq]

variable {book : CircuitBook}

theorem entry_foldl {f : ReservedProbe → ScopeEntry → ScopeEntry}
    (hdefault : ∀ q, f q .default = .default) (probes : List ReservedProbe) (s : CircuitScope) :
    ((probes.foldl (fun book q => book.modify q.scope (f q)) book).lookup s).getD .default =
      (probes.filter fun q => decide (q.scope = s)).foldl (fun e q => f q e)
        ((book.lookup s).getD .default) := by
  rw [Table.lookup_foldl_modify]
  cases book.lookup s with
  | some e => rfl
  | none =>
    simp only [map_none, getD_none]
    induction probes.filter fun q => decide (q.scope = s) with
    | nil => rfl
    | cons q rest ih => rw [foldl_cons, hdefault, ← ih]

/-- **What the loop has worked off**: all the probes, or those up to a panic. -/
theorem completeProbe_done (policy : CircuitPolicy) (t : Instant) (o : CircuitOutcome) :
    ∀ (probes : List ReservedProbe) (book : CircuitBook), ∃ done, done <+: probes ∧
      (policy.completeProbe t o book probes).1 = done.foldl (fun book q => book.modify q.scope
        fun e => (policy.completeEntry q.generation t o e).1) book ∧
      ((policy.completeProbe t o book probes).2 = true ∧ done = probes ∨
        (policy.completeProbe t o book probes).2 = false ∧ o.countsTowardHealth = true)
  | [], book => ⟨[], prefix_rfl, rfl, .inl ⟨rfl, rfl⟩⟩
  | probe :: rest, book => by
    unfold completeProbe
    cases hlk : book.lookup probe.scope with
    | none =>
      obtain ⟨done, hpre, hbook, hend⟩ := completeProbe_done policy t o rest book
      refine ⟨probe :: done, cons_prefix_cons.mpr ⟨rfl, hpre⟩, ?_, ?_⟩
      · rw [foldl_cons, Table.modify, hlk]
        exact hbook
      · exact hend.imp_left (And.imp_right (congrArg _))
    | some e =>
      simp only
      have hmod : book.modify probe.scope (fun e => (policy.completeEntry probe.generation t o e).1)
          = book.insert probe.scope (policy.completeEntry probe.generation t o e).1 := by
        rw [Table.modify, hlk]
      cases hce : policy.completeEntry probe.generation t o e with
      | mk e' returned =>
        rw [hce] at hmod
        cases returned with
        | true =>
          obtain ⟨done, hpre, hbook, hend⟩ :=
            completeProbe_done policy t o rest (book.insert probe.scope e')
          refine ⟨probe :: done, cons_prefix_cons.mpr ⟨rfl, hpre⟩, ?_, ?_⟩
          · rw [foldl_cons, hmod]
            exact hbook
          · exact hend.imp_left (And.imp_right (congrArg _))
        | false =>
          refine ⟨[probe], cons_prefix_cons.mpr ⟨rfl, nil_prefix⟩, hmod.symm, .inr ⟨rfl, ?_⟩⟩
          exact completeEntry_panics policy (by rw [hce])

/-- A loop that came to its end did so at every probe. -/
theorem completeProbe_returned (policy : CircuitPolicy) {t : Instant} {o : CircuitOutcome}
    {probes : List ReservedProbe} (hnd : (probes.map (·.scope)).Nodup)
    (h : (policy.completeProbe t o book probes).2 = true) {q : ReservedProbe} (hq : q ∈ probes) :
    (policy.completeEntry q.generation t o ((book.lookup q.scope).getD .default)).2 = true := by
  induction probes generalizing book with
  | nil => cases hq
  | cons probe rest ih =>
    rw [map_cons, nodup_cons] at hnd
    unfold completeProbe at h
    cases hlk : book.lookup probe.scope with
    | none =>
      rw [hlk] at h
      rcases mem_cons.mp hq with rfl | hq
      · rw [hlk, getD_none, completeEntry_closed policy rfl]
      · exact ih hnd.2 h hq
    | some e =>
      rw [hlk] at h
      simp only at h
      cases hce : policy.completeEntry probe.generation t o e with
      | mk e' returned =>
        rw [hce] at h
        cases returned with
        | false => cases h
        | true =>
          rcases mem_cons.mp hq with rfl | hq
          · rw [hlk, getD_some, hce]
          · have hrest := ih hnd.2 h hq
            rwa [lookup_insert_ne] at hrest
            intro heq
            exact hnd.1 (heq ▸ mem_map.mpr ⟨q, hq, rfl⟩)

/-! ## 2. Acquiring -/

/-- The probe that the second loop takes of a scope. -/
def probeAt (now : Instant) (book : CircuitBook) (s : CircuitScope) : Option ReservedProbe :=
  match book.lookup s with
  | some e => if e.state now = .halfOpen then some ⟨s, e.probeGeneration⟩ else none
  | none => none

def ScopeEntry.withProbes (e : ScopeEntry) (now : Instant) (n : Nat) : ScopeEntry :=
  if e.state now = .halfOpen then { e with halfOpenProbes := e.halfOpenProbes + n } else e

variable {now : Instant}

theorem probeAt_eq_some {s : CircuitScope}
    {q : ReservedProbe} : probeAt now book s = some q ↔ ∃ e, book.lookup s = some e ∧
      e.state now = .halfOpen ∧ ⟨s, e.probeGeneration⟩ = q := by
  unfold probeAt
  cases book.lookup s <;> simp

theorem probeAt_insert {s : CircuitScope} {e : ScopeEntry}
    (hs : book.lookup s = some e) (n : Nat) (s' : CircuitScope) :
    probeAt now (book.insert s { e with halfOpenProbes := n }) s' = probeAt now book s' := by
  unfold probeAt
  by_cases h : s' = s
  · subst h
    rw [lookup_insert, hs]
    rfl
  · rw [lookup_insert_ne h]

/-- **What the second loop reserves, and what it leaves in the book.** -/
theorem reserveScopes_eq (now : Instant) : ∀ (scopes : List CircuitScope) (book : CircuitBook),
    (reserveScopes now book scopes).1 = scopes.filterMap (probeAt now book) ∧
      ∀ s, (reserveScopes now book scopes).2.lookup s =
        (book.lookup s).map fun e => e.withProbes now (scopes.count s)
  | [], book => by
    refine ⟨rfl, fun s => ?_⟩
    unfold reserveScopes ScopeEntry.withProbes
    cases book.lookup s <;> simp
  | scope :: rest, book => by
    unfold reserveScopes
    cases hsc : book.lookup scope with
    | none =>
      obtain ⟨hres, hbook⟩ := reserveScopes_eq now rest book
      refine ⟨?_, fun s => ?_⟩
      · rw [filterMap_cons]
        simp only [probeAt, hsc]
        exact hres
      · rw [hbook s]
        by_cases h : s = scope
        · subst h
          rw [hsc]
          rfl
        · rw [count_cons_of_ne (Ne.symm h)]
    | some entry =>
      simp only
      by_cases hhalf : entry.state now = .halfOpen
      · rw [if_pos hhalf]
        obtain ⟨hres, hbook⟩ := reserveScopes_eq now rest
          (book.insert scope { entry with halfOpenProbes := entry.halfOpenProbes + 1 })
        refine ⟨?_, fun s => ?_⟩
        · rw [filterMap_cons]
          simp only [probeAt, hsc, hhalf, if_true]
          rw [hres]
          refine congrArg (List.cons _) ?_
          exact filterMap_congr fun s _ => probeAt_insert hsc _ s
        · rw [hbook s]
          by_cases h : s = scope
          · subst h
            rw [lookup_insert, hsc, count_cons_self]
            simp only [map_some, some.injEq]
            have hhalf' : ScopeEntry.state
                { entry with halfOpenProbes := entry.halfOpenProbes + 1 } now = .halfOpen := hhalf
            unfold ScopeEntry.withProbes
            rw [if_pos hhalf, if_pos hhalf']
            simp only [ScopeEntry.mk.injEq, true_and, and_true]
            omega
          · rw [lookup_insert_ne h, count_cons_of_ne (Ne.symm h)]
      · rw [if_neg hhalf]
        obtain ⟨hres, hbook⟩ := reserveScopes_eq now rest book
        refine ⟨?_, fun s => ?_⟩
        · rw [filterMap_cons]
          simp only [probeAt, hsc, hhalf, if_false]
          exact hres
        · rw [hbook s]
          by_cases h : s = scope
          · subst h
            rw [hsc]
            simp only [map_some, some.injEq]
            unfold ScopeEntry.withProbes
            rw [if_neg hhalf, if_neg hhalf]
          · rw [count_cons_of_ne (Ne.symm h)]

/-! ## 3. Recording, summarising, acquiring -/

section

variable {w w' : World} {s : CircuitScope}

theorem World.entry_record (policy : CircuitPolicy) (w : World) (scope : CircuitScope) (t : Instant)
    (o : CircuitOutcome) (s : CircuitScope) :
    World.entry { w with book := (policy.record w.book scope t o).2 } s = w.entry s ∨
      s = scope ∧ World.entry { w with book := (policy.record w.book scope t o).2 } s =
        (policy.recordEntry t o (w.entry s)).1 ∧ policy.full w.book scope = false := by
  unfold World.entry record
  split
  · exact .inl rfl
  rename_i hroom
  by_cases h : s = scope
  · subst h
    refine .inr ⟨rfl, ?_, Bool.eq_false_iff.mpr hroom⟩
    simp only [lookup_insert]
    rfl
  · left
    simp only [lookup_insert_ne h]

theorem World.entry_summary (policy : CircuitPolicy) (w : World) (scope : CircuitScope)
    (now : Instant) (s : CircuitScope) :
    World.entry { w with book := (policy.evidenceSummary w.book scope now).2 } s = w.entry s ∨
      s = scope ∧ World.entry { w with book := (policy.evidenceSummary w.book scope now).2 } s =
        (w.entry s).evictExpired now policy.window := by
  unfold World.entry evidenceSummary
  split
  · exact .inl rfl
  rename_i e he
  by_cases h : s = scope
  · subst h
    refine .inr ⟨rfl, ?_⟩
    rw [lookup_insert, he]
    rfl
  · left
    rw [lookup_insert_ne h]

theorem mem_probes {scopes : List CircuitScope} {g : Nat} :
    ⟨s, g⟩ ∈ scopes.filterMap (probeAt now w.book) ↔
      s ∈ scopes ∧ (w.entry s).state now = .halfOpen ∧ g = (w.entry s).probeGeneration := by
  simp only [mem_filterMap, probeAt_eq_some, ReservedProbe.mk.injEq]
  constructor
  · rintro ⟨s', hs', e, he, hhalf, rfl, rfl⟩
    have hent : w.entry s' = e := by rw [World.entry, he]; rfl
    exact ⟨hs', hent ▸ hhalf, by rw [hent]⟩
  · rintro ⟨hmem, hhalf, rfl⟩
    unfold World.entry at *
    cases hlk : w.book.lookup s with
    | none =>
      rw [hlk] at hhalf
      cases hhalf
    | some e =>
      rw [hlk] at hhalf
      exact ⟨s, hmem, e, hlk, hhalf, rfl, rfl⟩

theorem probes_sublist (now : Instant) (book : CircuitBook) : ∀ scopes : List CircuitScope,
    ((scopes.filterMap (probeAt now book)).map (·.scope)).Sublist scopes
  | [] => .slnil
  | scope :: rest => by
    rw [filterMap_cons]
    have ih := probes_sublist now book rest
    cases hprobe : probeAt now book scope with
    | none => exact ih.cons scope
    | some q =>
      obtain ⟨e, -, -, rfl⟩ := probeAt_eq_some.mp hprobe
      exact ih.cons_cons scope

/-- **What acquiring does**: nothing, or one slot in each half-open scope it was asked for. -/
theorem World.acquire_eq (policy : CircuitPolicy) (w : World) (scopes : List CircuitScope)
    (now : Instant) : w.acquire policy scopes now = w ∨
      ((∀ s ∈ scopes, policy.admits w.book now s = true) ∧
        (w.acquire policy scopes now).permits = w.permits.insert w.nextPermit
          ⟨scopes.filterMap (probeAt now w.book), true⟩ ∧
        (w.acquire policy scopes now).nextPermit = w.nextPermit + 1 ∧
        ∀ s, (w.acquire policy scopes now).entry s =
          (w.entry s).withProbes now (scopes.count s)) := by
  unfold World.acquire acquireScopes
  by_cases hall : scopes.all (policy.admits w.book now) = true
  · right
    obtain ⟨hres, hbook⟩ := reserveScopes_eq now scopes w.book
    simp only [hall, if_true, hres]
    refine ⟨all_eq_true.mp hall, trivial, trivial, fun s => ?_⟩
    unfold World.entry
    simp only [hbook s]
    cases w.book.lookup s <;> rfl
  · left
    simp only [hall]
    rfl

/-! ## 4. The step -/

theorem releaseEntry_default (g : Nat) : releaseEntry g .default = .default := by
  unfold releaseEntry
  split <;> rfl

theorem World.completed_eq {id : Nat} {p : CircuitProbePermit} {r : CircuitBook × Bool}
    (h : (match r with
      | (book, true) =>
        { w with book := book, permits := w.permits.insert id { p with active := false } }
      | (book, false) => { w with book := book }) = w') :
    w'.book = r.1 ∧ w'.nextPermit = w.nextPermit ∧
      w'.permits = if r.2 then w.permits.insert id { p with active := false } else w.permits := by
  subst h
  rcases r with ⟨book, returned⟩
  cases returned <;> exact ⟨rfl, rfl, rfl⟩

/-- **What a step makes of the entry of a scope.** -/
inductive EntryStep (policy : CircuitPolicy) (w : World) (s : CircuitScope) :
    Action → ScopeEntry → Prop
  | kept (a : Action) : EntryStep policy w s a (w.entry s)
  | recorded (t : Instant) (o : CircuitOutcome) (room : policy.full w.book s = false) :
      EntryStep policy w s (.record s t o) (policy.recordEntry t o (w.entry s)).1
  | acquired (scope : CircuitScope) (now : Instant) (n : Nat) :
      EntryStep policy w s (.tryAcquire scope now) ((w.entry s).withProbes now n)
  | acquiredCandidate (scopes : Vector CircuitScope 4) (now : Instant) (n : Nat) :
      EntryStep policy w s (.tryAcquireCandidate scopes now) ((w.entry s).withProbes now n)
  | evicted (now : Instant) :
      EntryStep policy w s (.evidenceSummary s now) ((w.entry s).evictExpired now policy.window)
  | completed {id : Nat} {p : CircuitProbePermit} (t : Instant) (o : CircuitOutcome)
      (lookup : w.permits.lookup id = some p) (active : p.active = true)
      {done : List ReservedProbe} (part : done ⊆ p.scopes) :
      EntryStep policy w s (.complete id t o)
        ((done.filter fun q => decide (q.scope = s)).foldl
          (fun e q => (policy.completeEntry q.generation t o e).1) (w.entry s))
  | released {id : Nat} {p : CircuitProbePermit} (lookup : w.permits.lookup id = some p)
      {a : Action} (ends : a = .release id ∨ a = .drop id) :
      EntryStep policy w s a ((p.scopes.filter fun q => decide (q.scope = s)).foldl
        (fun e q => releaseEntry q.generation e) (w.entry s))

/-- **Each scope goes its own way.** -/
theorem step_entry {policy : CircuitPolicy} {a : Action}
    (h : (circuit policy).step w a = some w') (s : CircuitScope) :
    EntryStep policy w s a (w'.entry s) := by
  have hrel : ∀ {id p}, w.permits.lookup id = some p → (a = .release id ∨ a = .drop id) →
      w'.book = releaseProbes w.book p.scopes → EntryStep policy w s a (w'.entry s) := by
    intro id p hp ha hbook
    have hent : w'.entry s = (p.scopes.filter fun q => decide (q.scope = s)).foldl
        (fun e q => releaseEntry q.generation e) (w.entry s) := by
      unfold World.entry
      rw [hbook]
      exact entry_foldl (fun q => releaseEntry_default q.generation) p.scopes s
    rw [hent]
    exact .released hp ha
  cases a with
  | record scope t o =>
    cases h
    rcases w.entry_record policy scope t o s with heq | ⟨rfl, heq, hroom⟩
    · exact heq ▸ .kept _
    · exact heq ▸ .recorded t o hroom
  | tryAcquire scope now =>
    cases h
    rcases w.acquire_eq policy [scope] now with heq | ⟨-, -, -, hent⟩
    · rw [heq]
      exact .kept _
    · exact hent s ▸ .acquired scope now _
  | tryAcquireCandidate scopes now =>
    cases h
    rcases w.acquire_eq policy scopes.toList now with heq | ⟨-, -, -, hent⟩
    · rw [heq]
      exact .kept _
    · exact hent s ▸ .acquiredCandidate scopes now _
  | evidenceSummary scope now =>
    cases h
    rcases w.entry_summary policy scope now s with heq | ⟨rfl, heq⟩
    · exact heq ▸ .kept _
    · exact heq ▸ .evicted now
  | complete id t o =>
    obtain ⟨p, hp, heq⟩ := map_eq_some_iff.mp h
    by_cases hact : p.active = true
    · rw [if_pos hact] at heq
      obtain ⟨done, hpre, hbook, -⟩ := completeProbe_done policy t o p.scopes w.book
      have hent : w'.entry s = (done.filter fun q => decide (q.scope = s)).foldl
          (fun e q => (policy.completeEntry q.generation t o e).1) (w.entry s) := by
        unfold World.entry
        rw [(World.completed_eq heq).1, hbook]
        exact entry_foldl (f := fun q e => (policy.completeEntry q.generation t o e).1)
          (fun q => by rw [completeEntry_closed policy rfl]) done s
      rw [hent]
      exact .completed t o hp hact hpre.subset
    · rw [if_neg hact] at heq
      exact heq ▸ .kept _
  | release id =>
    obtain ⟨p, hp, heq⟩ := map_eq_some_iff.mp h
    by_cases hact : p.active = true
    · rw [if_pos hact] at heq
      exact hrel hp (.inl rfl) (by rw [← heq])
    · rw [if_neg hact] at heq
      exact heq ▸ .kept _
  | drop id =>
    obtain ⟨p, hp, heq⟩ := map_eq_some_iff.mp h
    by_cases hact : p.active = true
    · rw [if_pos hact] at heq
      exact hrel hp (.inr rfl) (by rw [← heq])
    · rw [if_neg hact] at heq
      rw [show w'.entry s = w.entry s by rw [← heq]; rfl]
      exact .kept _

end

end Omnius.Routing
