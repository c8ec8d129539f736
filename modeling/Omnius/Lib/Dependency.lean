/-
# Dependency graphs explored by depth-first search

A graph is a lookup: the items an item requires, or nothing for an item that is not known.  Two
searches walk it.  `collect` adds everything an item requires, directly or not, to a set of
COLLECTED items; `reaches` asks whether an item requires a target.  Both keep the set of items they
are in the middle of VISITING and fail when they meet one of them again.

The searches take fuel.  Every nested call visits one item more, so as much fuel as there are known
items, and one, is enough (`Fuelled`).  A search that succeeds from an empty set proves the graph
below its item well-founded (`collect_acc`), and on a well-founded graph in which every requirement
is known both searches always succeed (`collect_succeeds`, `reaches_succeeds`).
-/
import Mathlib.Order.WellFounded
import Omnius.Lib.Attempt
import Omnius.Lib.SortedSet

namespace Omnius.Lib.Dependency

open Relation

variable {α : Type} [LinearOrder α]

/-- Why a search stops. -/
inductive Fault (α : Type) where
  | cycle (item : α)
  | unknown (item : α)
  | outOfFuel

/-- The two sets of a collecting search. -/
structure Visit (α : Type) [LinearOrder α] where
  (visiting collected : SortedSet α)

/-! ## 1. The searches -/

/-- Collects below each item of a list in turn, and then the item itself. -/
def collectEach (below : α → Visit α → Except (Fault α) (Visit α)) :
    List α → Visit α → Except (Fault α) (Visit α)
  | [], visit => .ok visit
  | item :: rest, visit => do
    let found ← below item visit
    collectEach below rest { found with collected := found.collected.insert item }

/-- Collects everything below an item. -/
def collect (requires : α → Option (List α)) : Nat → α → Visit α → Except (Fault α) (Visit α)
  | 0, _, _ => .error .outOfFuel
  | fuel + 1, item, visit =>
    if item ∈ visit.collected then .ok visit
    else if item ∈ visit.visiting then .error (.cycle item)
    else match requires item with
      | none => .error (.unknown item)
      | some required => do
        let found ← collectEach (collect requires fuel) required
          { visit with visiting := visit.visiting.insert item }
        .ok { found with visiting := found.visiting.erase item }

/-- Whether some item of a list is the target or requires it. -/
def reachesAny (target : α)
    (below : α → SortedSet α → Except (Fault α) (Bool × SortedSet α)) :
    List α → SortedSet α → Except (Fault α) (Bool × SortedSet α)
  | [], visiting => .ok (false, visiting)
  | item :: rest, visiting =>
    if item = target then .ok (true, visiting)
    else do
      let (found, visiting) ← below item visiting
      if found then .ok (true, visiting) else reachesAny target below rest visiting

/-- Whether an item requires the target, directly or not. -/
def reaches (requires : α → Option (List α)) (target : α) :
    Nat → α → SortedSet α → Except (Fault α) (Bool × SortedSet α)
  | 0, _, _ => .error .outOfFuel
  | fuel + 1, item, visiting =>
    if item ∈ visiting then .error (.cycle item)
    else match requires item with
      | none => .error (.unknown item)
      | some required => do
        let (found, visiting) ← reachesAny target (reaches requires target fuel) required
          (visiting.insert item)
        .ok (found, visiting.erase item)

/-! ## 2. What they find -/

/-- `a` requires `b` directly. -/
def Requires (requires : α → Option (List α)) (a b : α) : Prop :=
  ∃ required, requires a = some required ∧ b ∈ required

/-- A set that holds everything its members require. -/
def Closed (requires : α → Option (List α)) (s : SortedSet α) : Prop :=
  ∀ a ∈ s, ∀ b, Requires requires a b → b ∈ s

variable {requires : α → Option (List α)}

theorem Closed.mem_of_transGen {s : SortedSet α} (h : Closed requires s) {a b : α} (ha : a ∈ s)
    (hab : TransGen (Requires requires) a b) : b ∈ s := by
  induction hab with
  | single hb => exact h a ha _ hb
  | tail _ hbc ih => exact h _ ih _ hbc

/-- What a call on `item` adds to the collected set. -/
structure Collected (requires : α → Option (List α)) (added : α → Prop) (before after : Visit α) :
    Prop where
  visiting : after.visiting = before.visiting
  mem : Closed requires before.collected →
    ∀ x, x ∈ after.collected ↔ x ∈ before.collected ∨ added x

variable {below : α → Visit α → Except (Fault α) (Visit α)}

theorem collectEach_collected (hbl : ∀ item before after, below item before = .ok after →
      Collected requires (TransGen (Requires requires) item) before after) (items : List α) :
    ∀ {before after : Visit α}, collectEach below items before = .ok after →
      Collected requires (fun x => ∃ item ∈ items, ReflTransGen (Requires requires) item x)
        before after := by
  induction items with
  | nil =>
    intro before after h
    cases h
    exact ⟨rfl, fun _ x => by simp⟩
  | cons item rest ih =>
    intro before after h
    obtain ⟨found, hfd, h⟩ := bind_eq_ok.mp h
    have hfst := hbl item before found hfd
    have hrest := ih h
    refine ⟨hrest.visiting.trans hfst.visiting, ?_⟩
    intro hcl x
    have hmem : ∀ y, y ∈ found.collected.insert item ↔
        y ∈ before.collected ∨ ReflTransGen (Requires requires) item y := by
      intro y
      rw [SortedSet.mem_insert, hfst.mem hcl, reflTransGen_iff_eq_or_transGen]
      tauto
    have hcl' : Closed requires (found.collected.insert item) := by
      intro a ha b hab
      rcases (hmem a).mp ha with ha | ha
      · exact (hmem b).mpr (.inl (hcl a ha b hab))
      · exact (hmem b).mpr (.inr (ha.tail hab))
    rw [hrest.mem hcl', hmem, List.exists_mem_cons_iff]
    tauto

/-- **What a successful search collected**: everything the item requires, and nothing else. -/
theorem collect_collected (fuel : Nat) : ∀ {item : α} {before after : Visit α},
    collect requires fuel item before = .ok after →
    Collected requires (TransGen (Requires requires) item) before after := by
  induction fuel with
  | zero =>
    intro item before after h
    cases h
  | succ fuel ih =>
    intro item before after h
    unfold collect at h
    split at h
    next hmem =>
      cases h
      refine ⟨rfl, fun hcl x => ?_⟩
      simpa using hcl.mem_of_transGen hmem
    split at h
    · cases h
    next hvis =>
    split at h
    · cases h
    next required hneed =>
    obtain ⟨found, hfd, h⟩ := bind_eq_ok.mp h
    cases h
    have hlaw := collectEach_collected (fun _ _ _ hok => ih hok) required hfd
    refine ⟨?_, ?_⟩
    · change found.visiting.erase item = before.visiting
      rw [hlaw.visiting, SortedSet.erase_insert hvis]
    · intro hcl x
      rw [hlaw.mem hcl, TransGen.head'_iff]
      simp [Requires, hneed]

theorem reachesAny_spec {target : α}
    {below : α → SortedSet α → Except (Fault α) (Bool × SortedSet α)}
    (hbl : ∀ item before found after, below item before = .ok (found, after) →
      after = before ∧ (found = true ↔ TransGen (Requires requires) item target))
    (items : List α) : ∀ {before after : SortedSet α} {found : Bool},
      reachesAny target below items before = .ok (found, after) →
      after = before ∧
        (found = true ↔ ∃ item ∈ items, ReflTransGen (Requires requires) item target) := by
  induction items with
  | nil =>
    intro before after found h
    cases h
    simp
  | cons item rest ih =>
    intro before after found h
    unfold reachesAny at h
    split at h
    next heq =>
      cases h
      simp [heq, ReflTransGen.refl]
    next hne =>
    obtain ⟨⟨first, visiting⟩, hfst, h⟩ := bind_eq_ok.mp h
    obtain ⟨rfl, hiff⟩ := hbl item before first visiting hfst
    have hitem : ReflTransGen (Requires requires) item target ↔
        TransGen (Requires requires) item target := by
      rw [reflTransGen_iff_eq_or_transGen]
      exact or_iff_right (Ne.symm hne)
    cases first with
    | true =>
      cases h
      exact ⟨rfl, by simp [hitem, hiff.mp rfl]⟩
    | false =>
      obtain ⟨haft, hfd⟩ := ih h
      refine ⟨haft, hfd.trans ?_⟩
      have hnot : ¬ TransGen (Requires requires) item target := by simpa using hiff
      simp [hitem, hnot]

/-- **What a successful search answers.** -/
theorem reaches_spec {target : α} (fuel : Nat) : ∀ {item : α} {before after : SortedSet α}
    {found : Bool}, reaches requires target fuel item before = .ok (found, after) →
      after = before ∧ (found = true ↔ TransGen (Requires requires) item target) := by
  induction fuel with
  | zero =>
    intro item before after found h
    cases h
  | succ fuel ih =>
    intro item before after found h
    unfold reaches at h
    split at h
    · cases h
    next hvis =>
    split at h
    · cases h
    next required hneed =>
    obtain ⟨⟨answer, visiting⟩, hansw, h⟩ := bind_eq_ok.mp h
    cases h
    obtain ⟨rfl, hiff⟩ := reachesAny_spec (fun _ _ _ _ hok => ih hok) required hansw
    refine ⟨SortedSet.erase_insert hvis, hiff.trans ?_⟩
    rw [TransGen.head'_iff]
    simp [Requires, hneed]

/-! ## 3. A successful search proves its part of the graph well-founded -/

theorem collectEach_forall {P : α → Prop}
    (hbl : ∀ item before after, below item before = .ok after →
      (∀ c ∈ before.collected, P c) → P item ∧ ∀ c ∈ after.collected, P c) (items : List α) :
    ∀ {before after : Visit α}, collectEach below items before = .ok after →
      (∀ c ∈ before.collected, P c) → (∀ item ∈ items, P item) ∧ ∀ c ∈ after.collected, P c := by
  induction items with
  | nil =>
    intro before after h hacc
    cases h
    exact ⟨by simp, hacc⟩
  | cons item rest ih =>
    intro before after h hacc
    obtain ⟨found, hfd, h⟩ := bind_eq_ok.mp h
    obtain ⟨hitem, hcoll⟩ := hbl item before found hfd hacc
    obtain ⟨hrest, haft⟩ := ih h (SortedSet.forall_mem_insert.mpr ⟨hitem, hcoll⟩)
    exact ⟨List.forall_mem_cons.mpr ⟨hitem, hrest⟩, haft⟩

theorem collect_acc (fuel : Nat) : ∀ {item : α} {before after : Visit α},
    collect requires fuel item before = .ok after →
    (∀ c ∈ before.collected, Acc (flip (Requires requires)) c) →
    Acc (flip (Requires requires)) item ∧
      ∀ c ∈ after.collected, Acc (flip (Requires requires)) c := by
  induction fuel with
  | zero =>
    intro item before after h
    cases h
  | succ fuel ih =>
    intro item before after h hacc
    unfold collect at h
    split at h
    next hmem =>
      cases h
      exact ⟨hacc item hmem, hacc⟩
    split at h
    · cases h
    split at h
    · cases h
    next required hneed =>
    obtain ⟨found, hfd, h⟩ := bind_eq_ok.mp h
    cases h
    obtain ⟨hitems, haft⟩ := collectEach_forall (fun _ _ _ hok => ih hok) required hfd hacc
    refine ⟨⟨item, ?_⟩, haft⟩
    rintro b ⟨required', hneed', hb⟩
    rw [hneed] at hneed'
    cases hneed'
    exact hitems b hb

/-! ## 4. Enough fuel, and success on a well-founded graph -/

variable {known : List α} {fuel : Nat} {item target : α} {visiting : SortedSet α}

/-- Enough fuel for the items that are not being visited. -/
structure Fuelled (known : List α) (fuel : Nat) (visiting : SortedSet α) : Prop where
  subset : ∀ v ∈ visiting, v ∈ known
  enough : known.length + 1 ≤ fuel + visiting.size

theorem Fuelled.start (known : List α) : Fuelled known (known.length + 1) .empty where
  subset v hv := absurd hv (SortedSet.not_mem_empty v)
  enough := Nat.le_add_right _ _

theorem Fuelled.pos (h : Fuelled known 0 visiting) :
    False := by
  have hle := SortedSet.size_le_length h.subset
  have henough := h.enough
  omega

theorem Fuelled.visit (h : Fuelled known (fuel + 1) visiting) (hitem : item ∈ known)
    (hnew : item ∉ visiting) :
    Fuelled known fuel (visiting.insert item) := by
  refine ⟨SortedSet.forall_mem_insert.mpr ⟨hitem, h.subset⟩, ?_⟩
  have hsize := SortedSet.size_insert hnew
  have henough := h.enough
  omega

/-! On a well-founded graph the items being visited all lie strictly above the one looked at, so
the search meets none of them again. -/

/-- A graph without cycles in which every requirement is known, with its known items listed. -/
structure WellFormed (requires : α → Option (List α)) (known : List α) : Prop where
  known : ∀ a required, requires a = some required → a ∈ known
  total : ∀ a b, Requires requires a b → ∃ required, requires b = some required
  wf : WellFounded (flip (Requires requires))

omit [LinearOrder α] in
theorem WellFormed.not_transGen_self (h : WellFormed requires known) (a : α) :
    ¬ TransGen (Requires requires) a a := by
  intro ha
  exact h.wf.transGen.irrefl.irrefl a (transGen_swap.mpr ha)

/-- Where a search stands: with enough fuel, at a known item below everything being visited. -/
structure Ready (requires : α → Option (List α)) (known : List α) (fuel : Nat) (item : α)
    (visiting : SortedSet α) : Prop where
  fuelled : Fuelled known fuel visiting
  known : ∃ required, requires item = some required
  below : ∀ v ∈ visiting, TransGen (Requires requires) v item

theorem Ready.start (hitem : ∃ required, requires item = some required) :
    Ready requires known (known.length + 1) item .empty where
  fuelled := .start known
  known := hitem
  below v hv := absurd hv (SortedSet.not_mem_empty v)

theorem Ready.not_visiting (h : Ready requires known fuel item visiting)
    (hg : WellFormed requires known) :
    item ∉ visiting :=
  fun hmem => hg.not_transGen_self item (h.below item hmem)

theorem Ready.down {next : α} (h : Ready requires known (fuel + 1) item visiting)
    (hg : WellFormed requires known) (hnext : Requires requires item next) :
    Ready requires known fuel next (visiting.insert item) := by
  obtain ⟨required, hneed⟩ := h.known
  refine ⟨h.fuelled.visit (hg.known item required hneed) (h.not_visiting hg),
    hg.total item next hnext, SortedSet.forall_mem_insert.mpr ⟨.single hnext, ?_⟩⟩
  exact fun v hv => (h.below v hv).tail hnext

theorem collectEach_succeeds
    (ih : ∀ {item : α} {before : Visit α}, Ready requires known fuel item before.visiting →
      ∃ after, collect requires fuel item before = .ok after) (items : List α) :
    ∀ {before : Visit α}, (∀ item ∈ items, Ready requires known fuel item before.visiting) →
      ∃ after, collectEach (collect requires fuel) items before = .ok after := by
  induction items with
  | nil => exact fun {before} _ => ⟨before, rfl⟩
  | cons item rest ihrest =>
    intro before hready
    obtain ⟨hitem, hrest⟩ := List.forall_mem_cons.mp hready
    obtain ⟨found, hfd⟩ := ih hitem
    have hvis := (collect_collected fuel hfd).visiting
    obtain ⟨after, haft⟩ :=
      @ihrest { found with collected := found.collected.insert item } (hvis.symm ▸ hrest)
    refine ⟨after, ?_⟩
    unfold collectEach
    rw [hfd]
    exact haft

/-- **A collecting search on a well-formed graph succeeds.** -/
theorem collect_succeeds (hg : WellFormed requires known) (fuel : Nat) :
    ∀ {item : α} {before : Visit α}, Ready requires known fuel item before.visiting →
      ∃ after, collect requires fuel item before = .ok after := by
  induction fuel with
  | zero => exact fun h => h.fuelled.pos.elim
  | succ fuel ih =>
    intro item before h
    obtain ⟨required, hneed⟩ := h.known
    unfold collect
    by_cases hmem : item ∈ before.collected
    · exact ⟨before, if_pos hmem⟩
    have hdown : ∀ next ∈ required, Ready requires known fuel next
        { before with visiting := before.visiting.insert item }.visiting :=
      fun next hnext => h.down hg ⟨required, hneed, hnext⟩
    obtain ⟨found, hfd⟩ := collectEach_succeeds ih required hdown
    refine ⟨{ found with visiting := found.visiting.erase item }, ?_⟩
    rw [if_neg hmem, if_neg (h.not_visiting hg), hneed]
    simp only [hfd]
    rfl

theorem reachesAny_succeeds
    (ih : ∀ {item : α} {before : SortedSet α}, Ready requires known fuel item before →
      ∃ answer, reaches requires target fuel item before = .ok answer) (items : List α) :
    ∀ {before : SortedSet α}, (∀ item ∈ items, Ready requires known fuel item before) →
      ∃ answer, reachesAny target (reaches requires target fuel) items before = .ok answer := by
  induction items with
  | nil => exact fun {before} _ => ⟨(false, before), rfl⟩
  | cons item rest ihrest =>
    intro before hready
    obtain ⟨hitem, hrest⟩ := List.forall_mem_cons.mp hready
    unfold reachesAny
    by_cases heq : item = target
    · exact ⟨(true, before), if_pos heq⟩
    obtain ⟨⟨found, after⟩, hfd⟩ := ih hitem
    obtain ⟨rfl, -⟩ := reaches_spec fuel hfd
    rw [if_neg heq, hfd]
    cases found with
    | true => exact ⟨(true, after), rfl⟩
    | false => exact ihrest hrest

/-- **An asking search on a well-formed graph succeeds.** -/
theorem reaches_succeeds (hg : WellFormed requires known) (fuel : Nat) :
    ∀ {item : α} {before : SortedSet α}, Ready requires known fuel item before →
      ∃ answer, reaches requires target fuel item before = .ok answer := by
  induction fuel with
  | zero => exact fun h => h.fuelled.pos.elim
  | succ fuel ih =>
    intro item before h
    obtain ⟨required, hneed⟩ := h.known
    obtain ⟨⟨found, after⟩, hfd⟩ := reachesAny_succeeds ih required
      fun next hnext => h.down hg ⟨required, hneed, hnext⟩
    refine ⟨(found, after.erase item), ?_⟩
    unfold reaches
    rw [if_neg (h.not_visiting hg), hneed]
    simp only [hfd]
    rfl

end Omnius.Lib.Dependency
