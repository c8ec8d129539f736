/-
# Module resolution is the least closed selection

An accepted selection is a set of known runtime modules that is CLOSED (it holds what its members
require) and COMPATIBLE (no conflict, no provider slot filled twice, no configuration field defined
in two ways).  Compatibility is inherited by every subset (`Compatible.mono`), and closedness needs
nothing from the rest of the set, so adding a module succeeds exactly when the least closed set
above the selection is compatible.  That set does not depend on the order of several additions;
hence neither does the result, nor the failure.

The catalog check proves the requirement graph well-founded, which is why the searches never fail
and why the ordering loop always finds a module that is ready.
-/
import Omnius.Generator.Catalog
import Mathlib.Data.List.Perm.Basic

namespace Omnius.Generator

open Omnius.Lib Relation List SortedSet Dependency

theorem forEach_eq_ok {ε α : Type} {check : α → Except ε Unit} {items : List α} :
    forEach check items = .ok () ↔ ∀ item ∈ items, check item = .ok () := by
  induction items with
  | nil => simp [forEach]
  | cons item rest ih =>
    unfold forEach
    rw [check_eq_ok, forall_mem_cons, ih]

namespace ModuleCatalog

variable {catalog : ModuleCatalog} {selected : SortedSet String}

/-! ## 1. Accepted catalogs -/

abbrev Requires (catalog : ModuleCatalog) : String → String → Prop :=
  Dependency.Requires catalog.requires

/-- What resolution uses of an accepted catalog. -/
structure Accepted (catalog : ModuleCatalog) : Prop where
  nodup : (catalog.modules.map (·.id)).Nodup
  required : ∀ module ∈ catalog.modules, ∀ id ∈ module.requires,
    ∃ required, catalog.module id = some required ∧
      (module.isTooling = false → required.isTooling = false)
  wf : WellFounded (flip catalog.Requires)

variable {id a b : String} {checks : OtherChecks} {module : ModuleDefinition}

theorem module_eq_some (h : catalog.module id = some module) :
    module ∈ catalog.modules ∧ module.id = id :=
  ⟨mem_of_find?_eq_some h, by simpa using List.find?_some h⟩

theorem exists_module_of_mem (h : module ∈ catalog.modules) :
    ∃ found, catalog.module module.id = some found :=
  Option.isSome_iff_exists.mp (List.find?_isSome.mpr ⟨module, h, by simp⟩)

theorem Accepted.module_of_mem (h : catalog.Accepted)
    (hmem : module ∈ catalog.modules) : catalog.module module.id = some module := by
  obtain ⟨found, hfd⟩ := exists_module_of_mem hmem
  obtain ⟨hfoundMem, hid⟩ := module_eq_some hfd
  rw [hfd, inj_on_of_nodup_map h.nodup hfoundMem hmem hid]

theorem requires_iff :
    catalog.Requires a b ↔ ∃ module, catalog.module a = some module ∧ b ∈ module.requires := by
  simp only [Requires, Dependency.Requires, ModuleCatalog.requires, Option.map_eq_some_iff]
  constructor
  · rintro ⟨_, ⟨module, hmod, rfl⟩, hb⟩
    exact ⟨module, hmod, hb⟩
  · rintro ⟨module, hmod, hb⟩
    exact ⟨_, ⟨module, hmod, rfl⟩, hb⟩

theorem nodup_of_validateModuleDefinitions (modules : List ModuleDefinition) :
    ∀ {ids ids' : SortedSet String}, validateModuleDefinitions checks ids modules = .ok ids' →
      (∀ module ∈ modules, module.id ∉ ids) ∧ (modules.map (·.id)).Nodup := by
  induction modules with
  | nil => simp
  | cons module rest ih =>
    intro ids ids' h
    obtain ⟨-, h⟩ := check_eq_ok.mp h
    obtain ⟨-, h⟩ := check_eq_ok.mp h
    split at h
    · cases h
    next hnew =>
    obtain ⟨-, h⟩ := check_eq_ok.mp h
    obtain ⟨hfr, hnd⟩ := ih h
    refine ⟨forall_mem_cons.mpr ⟨hnew, ?_⟩, nodup_cons.mpr ⟨?_, hnd⟩⟩
    · intro other hoth hmem
      exact hfr other hoth (mem_insert.mpr (.inr hmem))
    · intro hmem
      obtain ⟨other, hoth, hid⟩ := mem_map.mp hmem
      exact hfr other hoth (mem_insert.mpr (.inl hid))

theorem collectDependencies_eq_ok {collected found : SortedSet String} :
    catalog.collectDependencies id collected = .ok found ↔
      ∃ visit, collect catalog.requires catalog.searchFuel id ⟨.empty, collected⟩ =
        .ok visit ∧ visit.collected = found := by
  unfold collectDependencies
  cases collect catalog.requires catalog.searchFuel id ⟨.empty, collected⟩ <;> simp

/-- **An accepted catalog is well-formed.** -/
theorem accepted_of_validate (h : catalog.validate checks = .ok ()) : catalog.Accepted := by
  unfold validate at h
  split at h
  · cases h
  split at h
  · cases h
  obtain ⟨-, h⟩ := check_eq_ok.mp h
  obtain ⟨ids, hids, h⟩ := bind_eq_ok.mp h
  obtain ⟨-, h⟩ := check_eq_ok.mp h
  obtain ⟨hrelated, hcycles⟩ := check_eq_ok.mp h
  refine ⟨(nodup_of_validateModuleDefinitions _ hids).2, ?_, ⟨?_⟩⟩
  · intro module hmod id hid
    obtain ⟨hneed, -⟩ := check_eq_ok.mp (forEach_eq_ok.mp hrelated module hmod)
    have hone := forEach_eq_ok.mp hneed id hid
    unfold validateRequired at hone
    split at hone
    · cases hone
    next required hfd =>
    refine ⟨required, hfd, fun hrt => ?_⟩
    simpa [hrt] using hone
  · -- an identifier without a module requires nothing; one with a module was searched from
    intro id
    by_cases hknown : ∃ module ∈ catalog.modules, module.id = id
    · obtain ⟨module, hmod, rfl⟩ := hknown
      obtain ⟨collected, hcoll, -⟩ :=
        bind_eq_ok.mp (forEach_eq_ok.mp hcycles module hmod)
      obtain ⟨visit, hvisit, -⟩ := collectDependencies_eq_ok.mp hcoll
      exact (Dependency.collect_acc _ hvisit (by simp)).1
    · refine ⟨id, fun b hb => ?_⟩
      obtain ⟨module, hmod, -⟩ := requires_iff.mp hb
      obtain ⟨hmem, hid⟩ := module_eq_some hmod
      exact absurd ⟨module, hmem, hid⟩ hknown

theorem known_of_requires {required : List String} (h : catalog.requires a = some required) :
    a ∈ catalog.modules.map (·.id) := by
  obtain ⟨module, hmod, -⟩ := Option.map_eq_some_iff.mp h
  obtain ⟨hmem, hid⟩ := module_eq_some hmod
  exact mem_map.mpr ⟨module, hmem, hid⟩

theorem Accepted.wellFormed (h : catalog.Accepted) :
    WellFormed catalog.requires (catalog.modules.map (·.id)) where
  known _ _ := known_of_requires
  total a b hab := by
    obtain ⟨module, hmod, hb⟩ := requires_iff.mp hab
    obtain ⟨required, hneed, -⟩ := h.required module (module_eq_some hmod).1 b hb
    exact ⟨required.requires, by simp [ModuleCatalog.requires, hneed]⟩
  wf := h.wf

theorem ready_of_module (hmod : catalog.module id = some module) :
    Ready catalog.requires (catalog.modules.map (·.id)) catalog.searchFuel id .empty :=
  .start ⟨module.requires, by simp [ModuleCatalog.requires, hmod]⟩

/-- From a closed set the search collects exactly what the module requires. -/
theorem Accepted.collectDependencies (h : catalog.Accepted) (hmod : catalog.module id = some module)
    (hcl : Closed catalog.requires selected) :
    ∃ found, catalog.collectDependencies id selected = .ok found ∧
      ∀ x, x ∈ found ↔ x ∈ selected ∨ TransGen catalog.Requires id x := by
  obtain ⟨visit, hvisit⟩ : ∃ visit, collect catalog.requires catalog.searchFuel id
      ⟨.empty, selected⟩ = .ok visit :=
    collect_succeeds h.wellFormed _ (ready_of_module hmod)
  exact ⟨visit.collected, collectDependencies_eq_ok.mpr ⟨visit, hvisit, rfl⟩,
    (Dependency.collect_collected _ hvisit).mem hcl⟩

theorem Accepted.dependsOn (h : catalog.Accepted)
    (hmod : catalog.module id = some module) (target : String) :
    ∃ found, catalog.dependsOn id target = .ok found ∧
      (found = true ↔ TransGen catalog.Requires id target) := by
  obtain ⟨⟨found, after⟩, hfd⟩ : ∃ answer, reaches catalog.requires target
      catalog.searchFuel id .empty = .ok answer :=
    Dependency.reaches_succeeds h.wellFormed _ (ready_of_module hmod)
  refine ⟨found, ?_, (Dependency.reaches_spec _ hfd).2⟩
  unfold ModuleCatalog.dependsOn
  rw [hfd]

/-! ## 2. Accepted selections -/

/-- Two different modules may stand in one selection. -/
def Goes (catalog : ModuleCatalog) (a b : String) : Prop :=
  ∀ left right, catalog.module a = some left → catalog.module b = some right →
    right.id ∉ left.conflictsWith ∧ left.id ∉ right.conflictsWith ∧
      ¬ (left.providerSlot.isSome = true ∧ left.providerSlot = right.providerSlot)

theorem Goes.symm (h : catalog.Goes a b) : catalog.Goes b a := by
  intro left right hleft hright
  obtain ⟨hlr, hrl, hslot⟩ := h right left hright hleft
  refine ⟨hrl, hlr, ?_⟩
  rintro ⟨hsome, heq⟩
  exact hslot ⟨heq ▸ hsome, heq.symm⟩

instance : Std.Symm catalog.Goes := ⟨fun _ _ => Goes.symm⟩

def Agree (defined : Configured → Prop) : Prop :=
  ∀ x y, defined x → defined y → x.field.path = y.field.path →
    x.field = y.field ∧ x.secret = y.secret

/-- The configuration fields that the modules in `P` define. -/
def Defines (catalog : ModuleCatalog) (P : String → Prop) (x : Configured) : Prop :=
  ∃ id module, P id ∧ catalog.module id = some module ∧ x ∈ module.configured

/-- No conflict, no provider slot filled twice and no conflicting configuration. -/
structure Compatible (catalog : ModuleCatalog) (P : String → Prop) : Prop where
  goes : ∀ a b, P a → P b → a ≠ b → catalog.Goes a b
  agree : Agree (catalog.Defines P)

theorem Compatible.mono {P Q : String → Prop} (h : catalog.Compatible Q) (hPQ : ∀ x, P x → Q x) :
    catalog.Compatible P := by
  refine ⟨fun a b ha hb => h.goes a b (hPQ a ha) (hPQ b hb), ?_⟩
  rintro x y ⟨a, left, ha, hleft⟩ ⟨b, right, hb, hright⟩
  exact h.agree x y ⟨a, left, hPQ a ha, hleft⟩ ⟨b, right, hPQ b hb, hright⟩

/-- Known runtime modules, with everything they require. -/
structure Selectable (catalog : ModuleCatalog) (selected : SortedSet String) : Prop where
  runtime : ∀ id ∈ selected, ∃ module, catalog.module id = some module ∧ module.isTooling = false
  closed : Closed catalog.requires selected

theorem Selectable.known (h : catalog.Selectable selected) :
    ∀ id ∈ selected.elems, ∃ module, catalog.module id = some module :=
  fun id hid => (h.runtime id hid).imp fun _ hmod => hmod.1

theorem validateSelected_eq_ok :
    catalog.validateSelected selected id = .ok () ↔
      (∃ module, catalog.module id = some module ∧ module.isTooling = false) ∧
        ∀ required, catalog.Requires id required → required ∈ selected := by
  unfold validateSelected
  cases hmod : catalog.module id with
  | none => simp
  | some module =>
    have hrqs : ∀ required, catalog.Requires id required ↔ required ∈ module.requires := by
      intro required
      simp [requires_iff, hmod]
    cases htool : module.isTooling with
    | true => simp [htool]
    | false => simp [htool, forEach_eq_ok, hrqs]

theorem validatePair_eq_ok {left right : ModuleDefinition} {rightId : String}
    (hright : catalog.module rightId = some right) :
    catalog.validatePair left rightId = .ok () ↔
      right.id ∉ left.conflictsWith ∧ left.id ∉ right.conflictsWith ∧
        ¬ (left.providerSlot.isSome = true ∧ left.providerSlot = right.providerSlot) := by
  unfold validatePair
  rw [hright]
  by_cases hcfl : right.id ∈ left.conflictsWith ∨ left.id ∈ right.conflictsWith
  · simp only [Bool.or_eq_true, decide_eq_true_eq, hcfl, if_true]
    tauto
  · obtain ⟨hlr, hrl⟩ := not_or.mp hcfl
    simp [hlr, hrl]

theorem validatePairs_eq_ok {ids : List String}
    (hknown : ∀ id ∈ ids, ∃ module, catalog.module id = some module) :
    catalog.validatePairs ids = .ok () ↔ ids.Pairwise catalog.Goes := by
  induction ids with
  | nil => simp [validatePairs]
  | cons leftId rest ih =>
    obtain ⟨⟨left, hleft⟩, hrest⟩ := forall_mem_cons.mp hknown
    have hpair : ∀ id ∈ rest, (catalog.validatePair left id = .ok () ↔ catalog.Goes leftId id) := by
      intro id hid
      obtain ⟨right, hright⟩ := hrest id hid
      rw [validatePair_eq_ok hright]
      simp [Goes, hleft, hright]
    unfold validatePairs
    simp only [hleft]
    rw [check_eq_ok, forEach_eq_ok, ih hrest, pairwise_cons]
    exact and_congr_left fun _ => forall₂_congr hpair

theorem Agree.mono {P Q : Configured → Prop} (h : Agree Q) (hPQ : ∀ x, P x → Q x) : Agree P :=
  fun x y hx hy => h x y (hPQ x hx) (hPQ y hy)

theorem agree_cons {configured : List Configured} {new : Configured} (h : Agree (· ∈ configured))
    (hnew : ∀ x ∈ configured, x.field.path = new.field.path →
      x.field = new.field ∧ x.secret = new.secret) : Agree (· ∈ new :: configured) := by
  intro x y hx hy hpath
  rcases mem_cons.mp hx with rfl | hx'
  · rcases mem_cons.mp hy with rfl | hy'
    · exact ⟨rfl, rfl⟩
    · obtain ⟨hfield, hsecret⟩ := hnew y hy' hpath.symm
      exact ⟨hfield.symm, hsecret.symm⟩
  · rcases mem_cons.mp hy with rfl | hy'
    · exact hnew x hx' hpath
    · exact h x y hx' hy' hpath

theorem addConfigured_mem (new : List Configured) : ∀ {configured after : List Configured},
    addConfigured configured new = .ok after → ∀ x, x ∈ after ↔ x ∈ new ∨ x ∈ configured := by
  induction new with
  | nil =>
    intro configured after h x
    cases h
    simp
  | cons first rest ih =>
    intro configured after h x
    have haft : addConfigured (first :: configured) rest = .ok after := by
      unfold addConfigured at h
      split at h
      · exact h
      · split at h
        · cases h
        · exact h
    rw [ih haft, mem_cons, mem_cons]
    tauto

theorem addConfigured_eq_ok (new : List Configured) : ∀ {configured : List Configured},
    Agree (· ∈ configured) →
    ((∃ after, addConfigured configured new = .ok after) ↔
      Agree fun x => x ∈ new ∨ x ∈ configured) := by
  induction new with
  | nil =>
    intro configured h
    simpa [addConfigured] using h
  | cons first rest ih =>
    intro configured h
    have hrest : ∀ x, (x ∈ rest ∨ x ∈ first :: configured) ↔
        (x ∈ first :: rest ∨ x ∈ configured) := by
      intro x
      rw [mem_cons, mem_cons]
      tauto
    unfold addConfigured
    split
    next hnone =>
      have hnew : ∀ x ∈ configured, x.field.path ≠ first.field.path := by
        simpa using hnone
      rw [ih (agree_cons h fun x hx hpath => absurd hpath (hnew x hx))]
      simp only [hrest]
    next existing hsome =>
    have hmem := mem_of_find?_eq_some hsome
    have hpath : existing.field.path = first.field.path := by simpa using List.find?_some hsome
    split
    next hdiffer =>
      simp only [reduceCtorEq, exists_false, false_iff]
      intro hagree
      obtain ⟨hfield, hsecret⟩ :=
        hagree existing first (.inr hmem) (.inl mem_cons_self) hpath
      simp [hfield, hsecret] at hdiffer
    next hsame =>
    simp only [ne_eq, decide_not, Bool.or_eq_true, Bool.not_eq_true', decide_eq_false_iff_not,
      not_or, not_not] at hsame
    rw [ih (agree_cons h fun x hx hxpath => ?_)]
    · simp only [hrest]
    · -- through the newest field of the path
      obtain ⟨hfield, hsecret⟩ := h x existing hx hmem (hxpath.trans hpath.symm)
      exact ⟨hfield.trans hsame.1, hsecret.trans hsame.2⟩

theorem validateConfigurationConflicts_eq_ok (ids : List String) :
    ∀ {configured : List Configured}, Agree (· ∈ configured) →
      (∀ id ∈ ids, ∃ module, catalog.module id = some module) →
      (catalog.validateConfigurationConflicts configured ids = .ok () ↔
        Agree fun x => x ∈ configured ∨ catalog.Defines (· ∈ ids) x) := by
  induction ids with
  | nil =>
    intro configured h _
    simpa [validateConfigurationConflicts, Defines] using h
  | cons id rest ih =>
    intro configured h hknown
    obtain ⟨⟨module, hmod⟩, hrest⟩ := forall_mem_cons.mp hknown
    have hdefines : ∀ x, catalog.Defines (· ∈ id :: rest) x ↔
        x ∈ module.configured ∨ catalog.Defines (· ∈ rest) x := by
      intro x
      simp [Defines, hmod]
    have hstep : ∀ after, addConfigured configured module.configured = .ok after →
        (catalog.validateConfigurationConflicts after rest = .ok () ↔
          Agree fun x => x ∈ configured ∨ catalog.Defines (· ∈ id :: rest) x) := by
      intro after haft
      have hmem := addConfigured_mem _ haft
      have hagree := (addConfigured_eq_ok _ h).mp ⟨after, haft⟩
      rw [ih (hagree.mono fun x => (hmem x).mp) hrest]
      simp only [hmem, hdefines, or_assoc, or_left_comm]
    unfold validateConfigurationConflicts
    rw [hmod, bind_eq_ok]
    constructor
    · rintro ⟨after, haft, hok⟩
      exact (hstep after haft).mp hok
    · intro hagree
      obtain ⟨after, haft⟩ := (addConfigured_eq_ok module.configured h).mpr
        (hagree.mono fun x hx => by rw [hdefines]; tauto)
      exact ⟨after, haft, (hstep after haft).mpr hagree⟩

/-- **What an accepted selection is.** -/
theorem validateSelection_eq_ok :
    catalog.validateSelection selected = .ok () ↔
      catalog.Selectable selected ∧ catalog.Compatible (· ∈ selected) := by
  have hslb : (∀ id ∈ selected.elems, catalog.validateSelected selected id = .ok ()) ↔
      catalog.Selectable selected := by
    simp only [validateSelected_eq_ok, forall_and]
    exact ⟨fun ⟨hrt, hcl⟩ => ⟨hrt, hcl⟩, fun h => ⟨h.runtime, h.closed⟩⟩
  unfold validateSelection
  rw [check_eq_ok, forEach_eq_ok, hslb, check_eq_ok, and_congr_right]
  intro h
  rw [validatePairs_eq_ok h.known, validateConfigurationConflicts_eq_ok _ (by simp [Agree]) h.known]
  constructor
  · rintro ⟨hgoes, hagree⟩
    exact ⟨fun a b ha hb hne => hgoes.forall ha hb hne, hagree.mono fun x hx => .inr hx⟩
  · rintro ⟨hgoes, hagree⟩
    refine ⟨selected.nodup.pairwise_of_forall_ne fun a ha b => hgoes a b ha, ?_⟩
    exact hagree.mono fun x hx => hx.resolve_left not_mem_nil

/-! ## 3. Adding -/

/-- The modules of a selection and everything below some others. -/
def With (catalog : ModuleCatalog) (selected : SortedSet String) (requested : List String)
    (x : String) : Prop :=
  x ∈ selected ∨ ∃ id ∈ requested, ReflTransGen catalog.Requires id x

variable {requested : String}

theorem requestable_eq_ok :
    catalog.requestable requested = .ok () ↔
      ∃ module, catalog.module requested = some module ∧ module.isTooling = false := by
  unfold requestable
  cases catalog.module requested with
  | none => simp
  | some module => cases htool : module.isTooling <;> simp [htool]

section

variable (h : catalog.Accepted)

include h

theorem Accepted.runtime_below {x : String}
    (hid : ∃ module, catalog.module id = some module ∧ module.isTooling = false)
    (hx : ReflTransGen catalog.Requires id x) :
    ∃ module, catalog.module x = some module ∧ module.isTooling = false := by
  induction hx with
  | refl => exact hid
  | tail _ hstep ih =>
    obtain ⟨module, hmod, hrt⟩ := ih
    obtain ⟨found, hfd, hmem⟩ := requires_iff.mp hstep
    cases hmod.symm.trans hfd
    obtain ⟨required, hneed, hkeeps⟩ := h.required module (module_eq_some hmod).1 _ hmem
    exact ⟨required, hneed, hkeeps hrt⟩

variable (hsel : catalog.Selectable selected)

include hsel

theorem Accepted.selectable_with
    (hreq : catalog.requestable requested = .ok ()) {resolved : SortedSet String}
    (hmem : ∀ x, x ∈ resolved ↔ catalog.With selected [requested] x) :
    catalog.Selectable resolved := by
  refine ⟨fun id hid => ?_, fun a ha b hab => (hmem b).mpr ?_⟩
  · rcases (hmem id).mp hid with hid | ⟨_, hone, hbl⟩
    · exact hsel.runtime id hid
    · cases mem_singleton.mp hone
      exact h.runtime_below (requestable_eq_ok.mp hreq) hbl
  · rcases (hmem a).mp ha with ha | ⟨id, hone, hbl⟩
    · exact .inl (hsel.closed a ha b hab)
    · exact .inr ⟨id, hone, hbl.tail hab⟩

theorem Accepted.resolved (hreq : catalog.requestable requested = .ok ()) :
    ∃ found, catalog.collectDependencies requested selected = .ok found ∧
      ∀ x, x ∈ found.insert requested ↔ catalog.With selected [requested] x := by
  obtain ⟨module, hmod, -⟩ := requestable_eq_ok.mp hreq
  obtain ⟨found, hfd, hmem⟩ := h.collectDependencies hmod hsel.closed
  refine ⟨found, hfd, fun x => ?_⟩
  simp only [With, mem_singleton, exists_eq_left, mem_insert, hmem, reflTransGen_iff_eq_or_transGen]
  tauto

/-- **Adding a module.**  It succeeds exactly when the module may be requested and the least closed
set is compatible, and that set is the result. -/
theorem Accepted.resolveAdd_eq_ok {result : SortedSet String} :
    catalog.resolveAdd selected requested = .ok result ↔
      catalog.requestable requested = .ok () ∧
      catalog.Compatible (catalog.With selected [requested]) ∧
      ∀ x, x ∈ result ↔ catalog.With selected [requested] x := by
  unfold resolveAdd
  rw [check_eq_ok, and_congr_right]
  intro hreq
  obtain ⟨found, hfd, hmem⟩ := h.resolved hsel hreq
  have hslb := h.selectable_with hsel hreq hmem
  constructor
  · intro hok
    obtain ⟨found', hfd', hok⟩ := bind_eq_ok.mp hok
    cases hfd.symm.trans hfd'
    obtain ⟨hval, hok⟩ := check_eq_ok.mp hok
    cases hok
    exact ⟨(validateSelection_eq_ok.mp hval).2.mono fun x => (hmem x).mpr, hmem⟩
  · rintro ⟨hcpt, hrsl⟩
    have hval : catalog.validateSelection (found.insert requested) = .ok () :=
      validateSelection_eq_ok.mpr ⟨hslb, hcpt.mono fun x => (hmem x).mp⟩
    have heq : result = found.insert requested :=
      ext_mem fun x => (hrsl x).trans (hmem x).symm
    rw [hfd, heq]
    exact check_eq_ok.mpr ⟨hval, rfl⟩

end

theorem with_cons {rest : List String} {resolved : SortedSet String}
    (hmem : ∀ x, x ∈ resolved ↔ catalog.With selected [requested] x) :
    catalog.With resolved rest = catalog.With selected (requested :: rest) := by
  funext x
  simp [With, hmem, or_assoc]

/-- **Adding several modules.**  By induction on the list: a compatible set has only compatible
parts, so no intermediate selection is refused. -/
theorem Accepted.resolveAddAll_eq_ok (h : catalog.Accepted) (requested : List String) :
    ∀ {selected result : SortedSet String}, catalog.Selectable selected →
      catalog.Compatible (· ∈ selected) →
      (catalog.resolveAddAll selected requested = .ok result ↔
        (∀ id ∈ requested, catalog.requestable id = .ok ()) ∧
        catalog.Compatible (catalog.With selected requested) ∧
        ∀ x, x ∈ result ↔ catalog.With selected requested x) := by
  induction requested with
  | nil =>
    intro selected result hsel hcpt
    have hsame : catalog.With selected [] = (· ∈ selected) := by
      funext x
      simp [With]
    simp only [resolveAddAll, Except.ok.injEq, not_mem_nil, false_implies, implies_true,
      hsame, hcpt, true_and]
    constructor
    · rintro rfl
      exact fun _ => Iff.rfl
    · exact fun hmem => ext_mem fun x => (hmem x).symm
  | cons first rest ih =>
    intro selected result hsel hcpt
    have hstep : ∀ resolved, catalog.requestable first = .ok () →
        catalog.Compatible (catalog.With selected [first]) →
        (∀ x, x ∈ resolved ↔ catalog.With selected [first] x) →
        (catalog.resolveAddAll resolved rest = .ok result ↔
          (∀ id ∈ rest, catalog.requestable id = .ok ()) ∧
          catalog.Compatible (catalog.With selected (first :: rest)) ∧
          ∀ x, x ∈ result ↔ catalog.With selected (first :: rest) x) := by
      intro resolved hreq hwith hmem
      rw [← with_cons hmem]
      exact ih (h.selectable_with hsel hreq hmem) (hwith.mono fun x => (hmem x).mp)
    unfold resolveAddAll
    rw [bind_eq_ok, forall_mem_cons]
    constructor
    · rintro ⟨resolved, hfst, hrest⟩
      obtain ⟨hreq, hwith, hmem⟩ := (h.resolveAdd_eq_ok hsel).mp hfst
      obtain ⟨hoths, hall⟩ := (hstep resolved hreq hwith hmem).mp hrest
      exact ⟨⟨hreq, hoths⟩, hall⟩
    · rintro ⟨⟨hreq, hoths⟩, hall⟩
      obtain ⟨found, -, hmem⟩ := h.resolved hsel hreq
      have hwith : catalog.Compatible (catalog.With selected [first]) := by
        refine hall.1.mono ?_
        rintro x (hx | ⟨id, hid, hx⟩)
        · exact .inl hx
        · cases mem_singleton.mp hid
          exact .inr ⟨first, mem_cons_self, hx⟩
      exact ⟨found.insert first, (h.resolveAdd_eq_ok hsel).mpr ⟨hreq, hwith, hmem⟩,
        (hstep _ hreq hwith hmem).mpr ⟨hoths, hall⟩⟩

/-! ## 4. Removing -/

theorem Accepted.blockers (h : catalog.Accepted) (ids : List String) :
    (∀ id ∈ ids, ∃ module, catalog.module id = some module) →
    ∃ blocking, catalog.blockers requested ids = .ok blocking ∧
      ∀ id, id ∈ blocking ↔ id ∈ ids ∧ id ≠ requested ∧ TransGen catalog.Requires id requested := by
  induction ids with
  | nil => exact fun _ => ⟨[], rfl, by simp⟩
  | cons first rest ih =>
    intro hknown
    obtain ⟨⟨module, hmod⟩, hrest⟩ := forall_mem_cons.mp hknown
    obtain ⟨others, hoths, hmem⟩ := ih hrest
    -- the first module is in the list exactly when it blocks
    have hcons : ∀ id, (id ∈ first :: rest ∧ id ≠ requested ∧
        TransGen catalog.Requires id requested) ↔ (id = first ∧ first ≠ requested ∧
          TransGen catalog.Requires first requested) ∨ id ∈ others := by
      intro id
      rw [hmem, mem_cons, or_and_right]
      exact or_congr_left (and_congr_right fun heq => heq ▸ Iff.rfl)
    unfold ModuleCatalog.blockers
    by_cases heq : first = requested
    · exact ⟨others, by rw [if_pos heq, hoths], fun id => by rw [hcons]; simp [heq]⟩
    · obtain ⟨blocked, hblocked, hiff⟩ := h.dependsOn hmod requested
      refine ⟨if blocked then first :: others else others, by
        rw [if_neg heq, hblocked, hoths]; rfl, fun id => ?_⟩
      rw [hcons, ← hiff]
      cases blocked with
      | true => simp [heq]
      | false => simp

/-- In a closed selection a dependent is never far: some selected module requires the target
DIRECTLY. -/
theorem Selectable.direct (h : catalog.Selectable selected) {target : String} (hid : id ∈ selected)
    (hbl : TransGen catalog.Requires id target) :
    ∃ direct ∈ selected, catalog.Requires direct target := by
  obtain ⟨direct, hpath, hlast⟩ := TransGen.tail'_iff.mp hbl
  refine ⟨direct, ?_, hlast⟩
  rcases reflTransGen_iff_eq_or_transGen.mp hpath with rfl | hpath
  · exact hid
  · exact h.closed.mem_of_transGen hid hpath

theorem accepted_erase (hsel : catalog.Selectable selected)
    (hcpt : catalog.Compatible (· ∈ selected))
    (hfree : ∀ id ∈ selected, id ≠ requested → ¬ catalog.Requires id requested) :
    catalog.validateSelection (selected.erase requested) = .ok () := by
  rw [validateSelection_eq_ok]
  refine ⟨⟨fun id hid => hsel.runtime id (mem_erase.mp hid).2, ?_⟩,
    hcpt.mono fun x hx => (mem_erase.mp hx).2⟩
  intro a ha b hab
  obtain ⟨hne, hin⟩ := mem_erase.mp ha
  refine mem_erase.mpr ⟨?_, hsel.closed a hin b hab⟩
  intro heq
  exact hfree a hin hne (heq ▸ hab)

theorem erase_of_not_mem (hmem : requested ∉ selected) : selected.erase requested = selected := by
  refine ext_mem fun x => ?_
  rw [mem_erase]
  exact ⟨fun hx => hx.2, fun hx => ⟨fun heq => hmem (heq ▸ hx), hx⟩⟩

theorem Accepted.resolveRemove_of_free (h : catalog.Accepted)
    (hsel : catalog.Selectable selected) (hcpt : catalog.Compatible (· ∈ selected))
    (hreq : catalog.requestable requested = .ok ())
    (hfree : ∀ id ∈ selected, id ≠ requested → ¬ catalog.Requires id requested) :
    catalog.resolveRemove selected requested = .ok (selected.erase requested) := by
  refine check_eq_ok.mpr ⟨hreq, ?_⟩
  by_cases hmem : requested ∈ selected
  · obtain ⟨blocking, hblocking, hblocks⟩ := h.blockers selected.elems hsel.known
    have hnone : blocking = [] := by
      refine eq_nil_iff_forall_not_mem.mpr fun id hid => ?_
      obtain ⟨hin, -, hbl⟩ := (hblocks id).mp hid
      obtain ⟨direct, hdirect, hrqs⟩ := hsel.direct hin hbl
      refine hfree direct hdirect ?_ hrqs
      rintro rfl
      exact h.wellFormed.not_transGen_self direct (.single hrqs)
    rw [if_neg (not_not.mpr hmem), hblocking, hnone]
    exact check_eq_ok.mpr ⟨accepted_erase hsel hcpt hfree, rfl⟩
  · rw [if_pos hmem, erase_of_not_mem hmem]

theorem Accepted.resolveRemove_of_required (h : catalog.Accepted)
    (hsel : catalog.Selectable selected) (hid : id ∈ selected) (hne : id ≠ requested)
    (hrqs : catalog.Requires id requested) (result : SortedSet String) :
    catalog.resolveRemove selected requested ≠ .ok result := by
  intro hok
  obtain ⟨-, hok⟩ := check_eq_ok.mp hok
  have hmem : requested ∈ selected := hsel.closed id hid requested hrqs
  obtain ⟨blocking, hblocking, hblocks⟩ := h.blockers selected.elems hsel.known
  rw [if_neg (not_not.mpr hmem), hblocking] at hok
  have hin : id ∈ blocking := (hblocks id).mpr ⟨hid, hne, .single hrqs⟩
  cases blocking with
  | nil => cases hin
  | cons _ _ => cases hok

/-! ## 5. Ordering -/

/-- Some selected module that was not emitted is ready: a minimal one. -/
theorem Accepted.exists_ready (h : catalog.Accepted) (hsel : catalog.Selectable selected)
    {emitted : SortedSet String} (hmissing : ∃ x ∈ selected, x ∉ emitted) :
    ∃ module, catalog.modules.find? (isReady selected emitted) = some module := by
  obtain ⟨x, hx, hminimal⟩ := h.wf.has_min {x | x ∈ selected ∧ x ∉ emitted} hmissing
  obtain ⟨module, hmod, -⟩ := hsel.runtime x hx.1
  obtain ⟨hmem, rfl⟩ := module_eq_some hmod
  refine Option.isSome_iff_exists.mp (List.find?_isSome.mpr ⟨module, hmem, ?_⟩)
  simp only [isReady, Bool.and_eq_true, decide_eq_true_eq, all_eq_true]
  refine ⟨hx, fun required hneed => ?_⟩
  have hstep : catalog.Requires module.id required := requires_iff.mpr ⟨module, hmod, hneed⟩
  by_contra hnot
  exact hminimal required ⟨hsel.closed _ hx.1 required hstep, hnot⟩ hstep

/-- What the loop emits from a set of emitted modules on. -/
structure Ordered (catalog : ModuleCatalog) (selected emitted : SortedSet String)
    (order : List ModuleDefinition) : Prop where
  nodup : (order.map (·.id)).Nodup
  mem : ∀ id, id ∈ order.map (·.id) ↔ id ∈ selected ∧ id ∉ emitted
  found : ∀ module ∈ order, catalog.module module.id = some module
  before : ∀ earlier module later, order = earlier ++ module :: later →
    ∀ required ∈ module.requires, required ∈ emitted ∨ required ∈ earlier.map (·.id)

/-- The loop, by induction on the modules still to emit. -/
theorem Accepted.orderFrom (h : catalog.Accepted) (hsel : catalog.Selectable selected)
    (missing : Nat) : ∀ {emitted : SortedSet String}, (∀ x ∈ emitted, x ∈ selected) →
      emitted.size + missing = selected.size →
      ∃ order, catalog.orderFrom selected missing emitted = .ok order ∧
        Ordered catalog selected emitted order := by
  induction missing with
  | zero =>
    intro emitted hsub hsize
    refine ⟨[], rfl, nodup_nil, fun id => ?_, by simp, by simp⟩
    simp only [map_nil, not_mem_nil, false_iff, not_and, not_not]
    intro hid
    by_contra hnot
    -- an emitted set that misses a member is smaller
    have hlarger : (emitted.insert id).size ≤ selected.size :=
      size_le_length (forall_mem_insert.mpr ⟨hid, hsub⟩)
    rw [size_insert hnot] at hlarger
    omega
  | succ missing ih =>
    intro emitted hsub hsize
    obtain ⟨module, hfind⟩ := h.exists_ready hsel
      (exists_not_mem_of_size_lt (show emitted.size < selected.size by omega))
    have hready := List.find?_some hfind
    have hmod := h.module_of_mem (mem_of_find?_eq_some hfind)
    simp only [isReady, Bool.and_eq_true, decide_eq_true_eq, all_eq_true] at hready
    obtain ⟨⟨hin, hnew⟩, hrqs⟩ := hready
    obtain ⟨rest, hrest, hords⟩ := ih (forall_mem_insert.mpr ⟨hin, hsub⟩)
      (by rw [size_insert hnew]; omega)
    refine ⟨module :: rest, ?_, ?_⟩
    · unfold ModuleCatalog.orderFrom
      simp only [hfind, hrest]
      rfl
    refine ⟨?_, fun id => ?_, forall_mem_cons.mpr ⟨hmod, hords.found⟩, ?_⟩
    · refine nodup_cons.mpr ⟨fun hmem => ?_, hords.nodup⟩
      exact ((hords.mem module.id).mp hmem).2 (mem_insert.mpr (.inl rfl))
    · rw [map_cons, mem_cons, hords.mem, mem_insert, not_or]
      constructor
      · rintro (rfl | ⟨hid, -, hold⟩)
        · exact ⟨hin, hnew⟩
        · exact ⟨hid, hold⟩
      · rintro ⟨hid, hold⟩
        by_cases heq : id = module.id
        · exact .inl heq
        · exact .inr ⟨hid, heq, hold⟩
    · intro earlier other later heq required hneed
      cases earlier with
      | nil =>
        obtain ⟨rfl, -⟩ := cons_eq_cons.mp heq
        exact .inl (hrqs required hneed)
      | cons first earlier =>
        obtain ⟨rfl, htail⟩ := cons_eq_cons.mp heq
        rcases hords.before earlier other later htail required hneed with hemitted | hear
        · rcases mem_insert.mp hemitted with rfl | hemitted
          · exact .inr (mem_map.mpr ⟨module, mem_cons_self, rfl⟩)
          · exact .inl hemitted
        · exact .inr (mem_cons_of_mem _ hear)

/-! ## 6. Resolution -/

/-- **What resolution does from an accepted selection.** -/
structure ResolutionLaw (catalog : ModuleCatalog) (selected : SortedSet String) : Prop where
  /-- Adding gives the selection, the module and everything it requires. -/
  add : ∀ requested result, catalog.resolveAdd selected requested = .ok result →
    ∀ x, x ∈ result ↔ x ∈ selected ∨ ReflTransGen catalog.Requires requested x
  /-- It fails only for a module that cannot be requested or an incompatible set. -/
  add_fails : ∀ requested e, catalog.resolveAdd selected requested = .error e →
    catalog.module requested = none ∨
    (∃ module, catalog.module requested = some module ∧ module.isTooling = true) ∨
    ¬ catalog.Compatible fun x =>
      x ∈ selected ∨ ReflTransGen catalog.Requires requested x
  /-- Several modules may be added in any order. -/
  any_order : ∀ requested requested' result, requested.Perm requested' →
    catalog.resolveAddAll selected requested = .ok result →
    catalog.resolveAddAll selected requested' = .ok result
  /-- A runtime module is removed exactly when no other selected module requires it. -/
  remove : ∀ requested, catalog.requestable requested = .ok () →
    (catalog.resolveRemove selected requested = .ok (selected.erase requested) ↔
      ∀ id ∈ selected, id ≠ requested → ¬ catalog.Requires id requested)
  /-- Whatever removing returns is the selection without the module, and accepted. -/
  removed : ∀ requested result, catalog.resolveRemove selected requested = .ok result →
    result = selected.erase requested ∧ catalog.validateSelection result = .ok ()
  /-- A module that is not known, or is tooling, is not removed but refused. -/
  unremovable : ∀ requested,
    (catalog.module requested = none →
      catalog.resolveRemove selected requested = .error (.unknownRequested requested)) ∧
    ∀ module, catalog.module requested = some module → module.isTooling = true →
      catalog.resolveRemove selected requested = .error (.toolingSelected requested)
  /-- The order lists each selected module once, after everything it requires. -/
  order : ∃ order, catalog.compositionOrder selected = .ok order ∧
    (order.map (·.id)).Nodup ∧ (∀ id, id ∈ order.map (·.id) ↔ id ∈ selected) ∧
    (∀ module ∈ order, catalog.module module.id = some module) ∧
    ∀ earlier module later, order = earlier ++ module :: later →
      ∀ required ∈ module.requires, required ∈ earlier.map (·.id)

theorem with_singleton (requested : String) : catalog.With selected [requested] =
    fun x => x ∈ selected ∨ ReflTransGen catalog.Requires requested x := by
  funext x
  simp [With]

theorem with_perm {requested requested' : List String} (h : requested.Perm requested') :
    catalog.With selected requested = catalog.With selected requested' := by
  funext x
  simp [With, h.mem_iff]

theorem not_requestable {e : CatalogError} (h : catalog.requestable requested = .error e) :
    catalog.module requested = none ∨
      ∃ module, catalog.module requested = some module ∧ module.isTooling = true := by
  unfold requestable at h
  split at h
  next hnone => exact .inl hnone
  next module hmod =>
  cases htool : module.isTooling with
  | true => exact .inr ⟨module, hmod, htool⟩
  | false =>
    rw [htool] at h
    cases h

theorem resolveRemove_refused (requested : String) :
    (catalog.module requested = none →
      catalog.resolveRemove selected requested = .error (.unknownRequested requested)) ∧
    ∀ module, catalog.module requested = some module → module.isTooling = true →
      catalog.resolveRemove selected requested = .error (.toolingSelected requested) := by
  unfold resolveRemove requestable
  constructor
  · intro hnone
    rw [hnone]
    rfl
  · intro module hmod htool
    rw [hmod]
    simp only [htool, if_true]
    rfl

/-- **Module resolution is the least closed selection.** -/
theorem resolution_least_closed {checks : OtherChecks} (hcatalog : catalog.validate checks = .ok ())
    (hselection : catalog.validateSelection selected = .ok ()) :
    ResolutionLaw catalog selected := by
  have h := accepted_of_validate hcatalog
  obtain ⟨hsel, hcpt⟩ := validateSelection_eq_ok.mp hselection
  refine ⟨?_, ?_, ?_, ?_, ?_, resolveRemove_refused, ?_⟩
  · intro requested result hok x
    rw [((h.resolveAdd_eq_ok hsel).mp hok).2.2, with_singleton]
  · intro requested e herror
    cases hreq : catalog.requestable requested with
    | error e' => exact (not_requestable hreq).imp_right .inl
    | ok u =>
      refine .inr (.inr fun hwith => ?_)
      obtain ⟨found, -, hmem⟩ := h.resolved hsel hreq
      rw [← with_singleton] at hwith
      rw [(h.resolveAdd_eq_ok hsel).mpr ⟨hreq, hwith, hmem⟩] at herror
      cases herror
  · intro requested requested' result hperm hok
    obtain ⟨hall, hwith, hmem⟩ := (h.resolveAddAll_eq_ok requested hsel hcpt).mp hok
    refine (h.resolveAddAll_eq_ok requested' hsel hcpt).mpr ⟨?_, ?_, ?_⟩
    · exact fun id hid => hall id (hperm.mem_iff.mpr hid)
    · exact with_perm hperm ▸ hwith
    · exact with_perm hperm ▸ hmem
  · intro requested hreq
    constructor
    · intro hok id hid hne hrqs
      exact h.resolveRemove_of_required hsel hid hne hrqs _ hok
    · exact h.resolveRemove_of_free hsel hcpt hreq
  · intro requested result hok
    have hfree : ∀ id ∈ selected, id ≠ requested → ¬ catalog.Requires id requested :=
      fun id hid hne hrqs =>
        h.resolveRemove_of_required hsel hid hne hrqs result hok
    have hreq := (check_eq_ok.mp hok).1
    cases (h.resolveRemove_of_free hsel hcpt hreq hfree).symm.trans hok
    exact ⟨rfl, accepted_erase hsel hcpt hfree⟩
  · obtain ⟨order, hord, hords⟩ := h.orderFrom hsel selected.size
      (fun x hx => absurd hx (not_mem_empty x)) (Nat.zero_add _)
    refine ⟨order, check_eq_ok.mpr ⟨hselection, hord⟩, hords.nodup, fun id => ?_,
      hords.found, ?_⟩
    · simp [hords.mem]
    · intro earlier module later heq required hneed
      rcases hords.before earlier module later heq required hneed with hemp | hear
      · exact absurd hemp (not_mem_empty required)
      · exact hear

end ModuleCatalog

namespace Demo

def module (id kind : String) (requires : List String) : ModuleDefinition where
  id := id
  version := "1.0.0"
  kind := kind
  requires := requires
  conflictsWith := []
  providerSlot := none
  secretFields := []
  fields := []

def catalog : ModuleCatalog where
  schemaVersion := 1
  bundleVersion := "1.0.0"
  modules := [module "http" "transport" ["kernel"], module "kernel" "kernel" [],
    module "fixtures" "tooling" []]

def noOtherChecks : OtherChecks where
  runtimeDependencyRegistry _ := .ok ()
  declarations _ := .ok ()
  applicationTemplates _ := .ok ()

def kernelOnly : SortedSet String := SortedSet.insert "kernel" .empty

end Demo

open Demo in
/-- From the kernel alone: adding the transport. -/
theorem resolution_least_closed_kernel :
    Demo.catalog.ResolutionLaw kernelOnly ∧
      (catalog.resolveAdd kernelOnly "http").map (·.elems) = .ok ["http", "kernel"] :=
  ⟨@ModuleCatalog.resolution_least_closed Demo.catalog kernelOnly noOtherChecks (by decide)
    (by decide), by decide +kernel⟩

open Demo in
/-- **A module that nothing requires is not always removed**: `resolveRemove` refuses to look at a
tooling module, which no accepted selection contains, instead of returning the selection. -/
theorem tooling_not_removed :
    catalog.validate noOtherChecks = .ok () ∧ catalog.validateSelection kernelOnly = .ok () ∧
      (∀ module ∈ catalog.modules, "fixtures" ∉ module.requires) ∧
      (catalog.resolveRemove kernelOnly "fixtures").map (·.elems) =
        .error (.toolingSelected "fixtures") := by
  decide

end Omnius.Generator
