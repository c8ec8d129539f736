/-
# Walking a topic while the registry changes

A `TopicSubscriptionCursor` keeps the LAST id it went past and nothing else.  Every call locks the
registry afresh and looks for the next id in the topic's set as it is now, so between two calls any
operation may have run.

The walk is right because the topic index holds exactly the active subscriptions
(`RegistryState.Consistent`): what a call yields is active at that moment, what stays active ahead
of the cursor is met before the cursor can run out, and the latch is set only when nothing is left.

Translated from `crates/realtime-core/src/registry.rs`.
-/
import Omnius.Realtime.RegistryIndex

namespace Omnius.Realtime

open Omnius.Lib RegistryState List

/-! ## 1. The cursor -/

structure TopicSubscriptionCursor where
  tenantId : TenantId
  topic : Topic
  after : Option SubscriptionId
  exhausted : Bool

/-- `subscriptions_for_topic`: the registry is not read yet. -/
def subscriptionsForTopic (tenantId : TenantId) (topic : Topic) : TopicSubscriptionCursor :=
  ⟨tenantId, topic, none, false⟩

namespace TopicSubscriptionCursor

/-- `ids.range((Excluded(after), Unbounded))`, or all of `ids` before the first step; a topic that
is not indexed has none. -/
def remaining (c : TopicSubscriptionCursor) (s : RegistryState) : List SubscriptionId :=
  (s.tenantTopics.ids c.tenantId c.topic).elems.filter fun i => c.after.all (· < i)

/-- The loop of `next_subscription`.  The lock is held, so the id after the one just passed is the
next of the same list. -/
def walk (c : TopicSubscriptionCursor) (s : RegistryState) :
    List SubscriptionId → Option SubscriptionSnapshot × TopicSubscriptionCursor
  | [] => (none, { c with exhausted := true })
  | i :: rest =>
    match (s.subscriptions.lookup i).filter fun r => r.state = .active with
    | some r => (some r, { c with after := some i })
    | none => walk { c with after := some i } s rest

def nextSubscription (c : TopicSubscriptionCursor) (registry : ConnectionRegistry) :
    Except RegistryError (Option SubscriptionSnapshot) × TopicSubscriptionCursor :=
  if c.exhausted then (.ok none, c)
  else if registry.poisoned then (.error .unavailable, c)
  else
    let out := c.walk registry.state (c.remaining registry.state)
    (.ok out.1, out.2)

end TopicSubscriptionCursor

/-- The generation `g` of `i` is active under this tenant and topic. -/
def RegistryState.Standing (s : RegistryState) (t : TenantId) (p : Topic) (i : SubscriptionId)
    (g : Nat) : Prop :=
  ∃ r, s.subscriptions.lookup i = some r ∧ r.generation = g ∧ r.state = .active ∧ r.tenantId = t ∧
    r.topic = p

section

variable {config : RegistryConfig} {s : RegistryState} {registry : ConnectionRegistry}
  {c : TopicSubscriptionCursor} {i : SubscriptionId} {g : Nat}

theorem TopicSubscriptionCursor.mem_remaining : i ∈ c.remaining s ↔
    i ∈ s.tenantTopics.ids c.tenantId c.topic ∧ ∀ a ∈ c.after, a < i := by
  rw [remaining, mem_filter, Option.all_eq_true]
  simp only [decide_eq_true_eq]
  rfl

/-- What a call can answer. -/
inductive Answer (c : TopicSubscriptionCursor) (registry : ConnectionRegistry) :
    Except RegistryError (Option SubscriptionSnapshot) × TopicSubscriptionCursor → Prop
  | latched (exhausted : c.exhausted = true) : Answer c registry (.ok none, c)
  | unavailable : Answer c registry (.error .unavailable, c)
  | none (left : c.remaining registry.state = []) :
      Answer c registry (.ok none, { c with exhausted := true })
  | next {r : SubscriptionRecord}
      (standing : registry.state.Standing c.tenantId c.topic r.id r.generation)
      (found : registry.state.subscriptions.lookup r.id = some r)
      (later : ∀ a ∈ c.after, a < r.id) (first : ∀ i ∈ c.remaining registry.state, r.id ≤ i) :
      Answer c registry (.ok (some r), { c with after := some r.id })

/-- **One call.**  No id of the index is ever skipped: each of them is active. -/
theorem RegistryState.Consistent.answer (h : registry.state.Consistent config) :
    Answer c registry (c.nextSubscription registry) := by
  unfold TopicSubscriptionCursor.nextSubscription
  split
  · next hlatched => exact .latched hlatched
  split
  · exact .unavailable
  cases hleft : c.remaining registry.state with
  | nil => exact .none hleft
  | cons i rest =>
    have hmem : i ∈ c.remaining registry.state := hleft ▸ mem_cons_self
    obtain ⟨hids, hlat⟩ := TopicSubscriptionCursor.mem_remaining.mp hmem
    obtain ⟨r, hfd, hact, htenant, htopic⟩ := (h.indexed.mem_iff _ _ _).mp hids
    obtain rfl := h.indexed.id_eq i r hfd
    have hsrt : (c.remaining registry.state).Pairwise (· < ·) := (SortedSet.sorted _).filter _
    simp only [TopicSubscriptionCursor.walk, hfd, Option.filter_some, hact, decide_true, if_true]
    refine .next ⟨r, hfd, rfl, hact, htenant, htopic⟩ hfd hlat ?_
    rw [hleft] at hsrt ⊢
    exact forall_mem_cons.mpr ⟨le_rfl, fun i hi => le_of_lt ((pairwise_cons.mp hsrt).1 i hi)⟩

theorem RegistryState.Consistent.mem_ids (h : s.Consistent config) {t : TenantId} {p : Topic}
    (hstanding : s.Standing t p i g) : i ∈ s.tenantTopics.ids t p := by
  obtain ⟨r, hfd, -, hr⟩ := hstanding
  exact (h.indexed.mem_iff t p i).mpr ⟨r, hfd, hr⟩

end

/-! ## 2. Calls among operations -/

/-- A registry in use, a cursor over it, and, newest first, what the cursor has yielded. -/
structure Traversal where
  run : RegistryRun
  cursor : TopicSubscriptionCursor
  yielded : List SubscriptionSnapshot

inductive TraversalAction
  | registry (action : RegistryAction)
  | next

def Traversal.next (w : Traversal) : Traversal :=
  let out := w.cursor.nextSubscription w.run.registry
  { w with
    cursor := out.2
    yielded := match out.1 with
      | .ok (some r) => r :: w.yielded
      | _ => w.yielded }

def traversal (config : RegistryConfig) (t : TenantId) (p : Topic) :
    Machine Traversal TraversalAction where
  start := ⟨(registryMachine config).start, subscriptionsForTopic t p, []⟩
  step w a := match a with
    | .registry action =>
      ((registryMachine config).step w.run action).map fun run => { w with run }
    | .next => some w.next

section

variable {config : RegistryConfig} {t : TenantId} {p : Topic} {w w' : Traversal}
  {a : TraversalAction} {i : SubscriptionId} {g : Nat}

/-- What every run keeps: ids are yielded in increasing order, none beyond the cursor. -/
structure Traversal.Inv (config : RegistryConfig) (t : TenantId) (p : Topic) (w : Traversal) :
    Prop where
  reach : (registryMachine config).Reach (registryMachine config).start w.run
  tenantId : w.cursor.tenantId = t
  topic : w.cursor.topic = p
  increasing : w.yielded.Pairwise fun r r' => r'.id < r.id
  passed : ∀ r ∈ w.yielded, ∃ i ∈ w.cursor.after, r.id ≤ i

theorem Traversal.Inv.consistent (h : w.Inv config t p) :
    w.run.registry.state.Consistent config := (RegistryRun.inv_reach h.reach).consistent

theorem Traversal.Inv.step (h : w.Inv config t p)
    (hst : (traversal config t p).step w a = some w') :
    w'.Inv config t p := by
  cases a with
  | registry action =>
    obtain ⟨run, hrun, rfl⟩ := Option.map_eq_some_iff.mp hst
    exact { h with reach := h.reach.tail trivial hrun }
  | next =>
    cases hst
    have hansw := h.consistent.answer (c := w.cursor)
    unfold Traversal.next
    generalize w.cursor.nextSubscription w.run.registry = out at hansw ⊢
    cases hansw with
    | latched | unavailable | none =>
      exact { h with }
    | @next r standing found later first =>
      have hpassed : ∀ r' ∈ w.yielded, r'.id < r.id := by
        intro r' hr'
        obtain ⟨i, hi, hle⟩ := h.passed r' hr'
        exact hle.trans_lt (later i hi)
      refine ⟨h.reach, h.tenantId, h.topic, pairwise_cons.mpr ⟨hpassed, h.increasing⟩, ?_⟩
      exact forall_mem_cons.mpr ⟨⟨r.id, rfl, le_rfl⟩,
        fun r' hr' => ⟨r.id, rfl, (hpassed r' hr').le⟩⟩

theorem Traversal.inv_reach (h : (traversal config t p).Reach (traversal config t p).start w) :
    w.Inv config t p :=
  h.invariant ⟨.refl, rfl, rfl, .nil, nofun⟩ fun _ _ _ hu _ hst => hu.step hst

/-- The cursor has met generation `g` of `i`, or `i` is still ahead of it. -/
def Traversal.Covers (w : Traversal) (i : SubscriptionId) (g : Nat) : Prop :=
  (∃ r ∈ w.yielded, r.id = i ∧ r.generation = g) ∨
    w.cursor.exhausted = false ∧ ∀ a ∈ w.cursor.after, a < i

/-- **A standing generation is met before the cursor gets past it.** -/
theorem Traversal.Covers.step (h : w.Covers i g) (hinv : w.Inv config t p)
    (hstanding : w.run.registry.state.Standing t p i g)
    (hst : (traversal config t p).step w a = some w') : w'.Covers i g := by
  cases a with
  | registry action =>
    obtain ⟨run, -, rfl⟩ := Option.map_eq_some_iff.mp hst
    exact h
  | next =>
    cases hst
    have hids := hinv.consistent.mem_ids hstanding
    rw [← hinv.tenantId, ← hinv.topic] at hids
    have hansw := hinv.consistent.answer (c := w.cursor)
    unfold Traversal.next
    generalize w.cursor.nextSubscription w.run.registry = out at hansw ⊢
    rcases h with ⟨r, hr, hmet⟩ | ⟨hopen, hahead⟩
    · refine .inl ⟨r, ?_, hmet⟩
      cases hansw with
      | latched | unavailable | none => exact hr
      | next => exact mem_cons_of_mem _ hr
    have hleft := TopicSubscriptionCursor.mem_remaining.mpr ⟨hids, hahead⟩
    cases hansw with
    | latched | unavailable => exact .inr ⟨hopen, hahead⟩
    | none left =>
      rw [left] at hleft
      cases hleft
    | @next r standing found later first =>
      rcases (first i hleft).lt_or_eq with hlt | rfl
      · exact .inr ⟨hopen, by rintro _ ⟨⟩; exact hlt⟩
      · obtain ⟨r', hfd, hgen, -⟩ := hstanding
        rw [found, Option.some.injEq] at hfd
        exact .inl ⟨r, mem_cons_self, rfl, hfd ▸ hgen⟩

theorem Traversal.exhausted_step (h : w.cursor.exhausted = true)
    (hst : (traversal config t p).step w a = some w') : w'.cursor.exhausted = true := by
  cases a with
  | registry action =>
    obtain ⟨run, -, rfl⟩ := Option.map_eq_some_iff.mp hst
    exact h
  | next =>
    cases hst
    simp [Traversal.next, TopicSubscriptionCursor.nextSubscription, h]

/-- **Topic traversal under concurrent change.**  In every run, the ids yielded are strictly
increasing, and what the next call yields is active under the cursor's tenant and topic at that
moment.  If a generation has stood from before the first step of the cursor until a call answers
`None`, it has been yielded.  After that answer every later call answers `None`. -/
theorem topic_traversal (h : (traversal config t p).Reach (traversal config t p).start w) :
    (w.yielded.Pairwise fun r r' => r'.id < r.id) ∧
    (∀ r c, w.cursor.nextSubscription w.run.registry = (.ok (some r), c) →
      w.run.registry.state.subscriptions.lookup r.id = some r ∧ r.state = .active ∧
        r.tenantId = t ∧ r.topic = p) ∧
    (∀ u i g, (traversal config t p).Reach (traversal config t p).start u →
      u.cursor = subscriptionsForTopic t p →
      (traversal config t p).ReachIf (fun v _ => v.run.registry.state.Standing t p i g) u w →
      w.run.registry.state.Standing t p i g →
      (w.cursor.nextSubscription w.run.registry).1 = .ok none →
      ∃ r ∈ w.yielded, r.id = i ∧ r.generation = g) ∧
    ((w.cursor.nextSubscription w.run.registry).1 = .ok none →
      ∀ v, (traversal config t p).Reach w.next v →
        (v.cursor.nextSubscription v.run.registry).1 = .ok none) := by
  have hinv := Traversal.inv_reach h
  have hansw := hinv.consistent.answer (c := w.cursor)
  refine ⟨hinv.increasing, ?_, ?_, ?_⟩
  · intro r c hyields
    rw [hyields] at hansw
    cases hansw with
    | next standing found =>
      obtain ⟨r', hfd, -, hact, htenant, htopic⟩ := standing
      obtain rfl : r = r' := Option.some.inj (found.symm.trans hfd)
      exact ⟨found, hact, htenant.trans hinv.tenantId, htopic.trans hinv.topic⟩
  · intro u i g hu hfr hrun hstanding hnone
    have hcovers : w.Inv config t p ∧ w.Covers i g := by
      refine hrun.invariant (I := fun v => v.Inv config t p ∧ v.Covers i g)
        ⟨Traversal.inv_reach hu, .inr (hfr ▸ ⟨rfl, nofun⟩)⟩ ?_
      intro v a v' hv hgd hst
      exact ⟨hv.1.step hst, hv.2.step hv.1 hgd hst⟩
    -- one more call: it yields nothing, and still covers the generation
    have hnext := hcovers.2.step (a := .next) hinv hstanding rfl
    unfold Traversal.next at hnext
    generalize w.cursor.nextSubscription w.run.registry = out at hansw hnone hnext
    cases hansw with
    | latched exhausted =>
      rcases hcovers.2 with hmet | ⟨hopen, -⟩
      · exact hmet
      · rw [exhausted] at hopen
        cases hopen
    | none left =>
      rcases hnext with hmet | ⟨hopen, -⟩
      · exact hmet
      · cases hopen
    | unavailable | next => cases hnone
  · intro hnone v hv
    have hexhausted : v.cursor.exhausted = true := by
      refine hv.invariant (I := fun u => u.cursor.exhausted = true) ?_
        fun u a u' hu _ hst => Traversal.exhausted_step hu hst
      unfold Traversal.next
      generalize w.cursor.nextSubscription w.run.registry = out at hansw hnone ⊢
      cases hansw with
      | latched exhausted => exact exhausted
      | none => rfl
      | unavailable | next => cases hnone
    rw [TopicSubscriptionCursor.nextSubscription, if_pos hexhausted]

end

/-- Three subscriptions; one is removed ahead of the cursor and one is added behind it. -/
def walkedTopic : List TraversalAction :=
  [.registry (.op (.register ⟨1⟩ ⟨⟨9⟩, some ⟨7⟩⟩)), .registry (.op (.activate ⟨1⟩)),
    .registry (.op (.addSubscription ⟨1⟩ ⟨5⟩ ⟨7⟩ ⟨"orders"⟩ none)),
    .registry (.op (.addSubscription ⟨1⟩ ⟨6⟩ ⟨7⟩ ⟨"orders"⟩ none)),
    .registry (.op (.addSubscription ⟨1⟩ ⟨8⟩ ⟨7⟩ ⟨"orders"⟩ none)), .next,
    .registry (.op (.removeSubscription ⟨1⟩ ⟨6⟩)),
    .registry (.op (.addSubscription ⟨1⟩ ⟨4⟩ ⟨7⟩ ⟨"orders"⟩ none)), .next, .next]

/-- The two that stood are yielded, and then nothing. -/
theorem topic_traversal_walkedTopic :
    ∃ w, (traversal ⟨1, 3, 3⟩ ⟨7⟩ ⟨"orders"⟩).run (traversal ⟨1, 3, 3⟩ ⟨7⟩ ⟨"orders"⟩).start
        walkedTopic = some w ∧ w.yielded.map (·.id) = [⟨8⟩, ⟨5⟩] ∧
      (w.yielded.Pairwise fun r r' => r'.id < r.id) ∧
      (w.next.cursor.nextSubscription w.next.run.registry).1 = .ok none := by
  refine ⟨_, rfl, rfl, ?_⟩
  have h := topic_traversal
    (Machine.reach_of_run (M := traversal ⟨1, 3, 3⟩ ⟨7⟩ ⟨"orders"⟩) walkedTopic rfl)
  exact ⟨h.1, h.2.2.2 rfl _ .refl⟩

end Omnius.Realtime
