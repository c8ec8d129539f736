/-
# The recorded selection is the profile plus a delta

A project records its profile, the modules ADDED to it, the modules REMOVED from it and, beside
these, the modules selected.  Resolution computes the selection; the delta is updated from the
difference of two selections, one identifier after the other.  `selection_is_profile_plus_delta`:
the two accounts agree after every run of plans.

Of preflight only the checks of the catalog and the selection are here: the others, and the file
operations, can refuse a plan and do not change what it records.

Translated from `crates/generator/src/catalog.rs` and `manager.rs`.
-/
import Omnius.Generator.Resolution
import Omnius.Lib.Machine

namespace Omnius.Generator

open Omnius.Lib List SortedSet ModuleCatalog

/-! ## 1. Profiles -/

structure ProfileDefinition where
  id : String
  extends_ : Option String
  modules : List String

inductive ProfileError where
  | invalidName
  | unknownProfile (id : String)
  | inheritanceCycle (inheritance : List String)
  | extendsUnknown (profile parent : String)
  | repeatsModule (profile module : String)
  | catalog (error : CatalogError)

def validName (value : String) : Bool :=
  value.toList.head?.any Char.isLower && value.toList.getLast?.any Char.isAlphanum &&
    value.toList.all fun c => c.isLower || c.isDigit || c = '-'

def toSet (ids : List String) : SortedSet String := ids.foldr SortedSet.insert .empty

def install (profile : String) : List String → List String → Except ProfileError (List String)
  | installed, [] => .ok installed
  | installed, module :: rest => do
    deny (module ∈ installed) (.repeatsModule profile module)
    install profile (installed ++ [module]) rest

/-- Parents come first.  A chain without a cycle is no longer than the catalog, so the fuel
lasts. -/
def flatten (profiles : List ProfileDefinition) :
    Nat → List String → ProfileDefinition → Except ProfileError (List String)
  | 0, inheritance, _ => .error (.inheritanceCycle inheritance)
  | fuel + 1, inheritance, profile => do
    let inheritance' := inheritance ++ [profile.id]
    deny (profile.id ∈ inheritance) (.inheritanceCycle inheritance')
    let inherited ← match profile.extends_ with
      | none => .ok []
      | some parent => match profiles.reverse.find? (·.id = parent) with
        | none => .error (.extendsUnknown profile.id parent)
        | some definition => flatten profiles fuel inheritance' definition
    install profile.id inherited profile.modules

section

variable (profiles : List ProfileDefinition) (catalog : ModuleCatalog)

def resolve (profile : String) : Except ProfileError (List String) := do
  deny (!validName profile) .invalidName
  match profiles.find? (·.id = profile) with
  | none => .error (.unknownProfile profile)
  | some definition => do
    let resolved ← flatten profiles (profiles.length + 1) [] definition
    let order ← (catalog.compositionOrder (toSet resolved)).mapError .catalog
    .ok (order.map (·.id))

/-! ## 2. Plans -/

/-- The profile, its delta, which every plan writes sorted and without repetition, and the selected
modules in composition order. -/
structure ProjectState where
  profile : String
  (additions removals : SortedSet String)
  modules : List String

inductive PlanAction where
  | add (requested : String)
  | remove (requested : String)
  | profileSet (requested : String)

inductive ManagerError where
  | preflight (error : CatalogError)
  | invalidProject (error : ProfileError)
  | catalog (error : CatalogError)

def resolveAddRequest (before : SortedSet String) (requested : String) :
    Except ManagerError (SortedSet String) :=
  if (catalog.module requested).isSome || !profiles.any (·.id = requested) then
    (catalog.resolveAdd before requested).mapError .catalog
  else do
    let modules ← (resolve profiles catalog requested).mapError .invalidProject
    (catalog.resolveAddAll before modules).mapError .catalog

/-- A profile takes away its own modules, not the inherited ones. -/
def resolveRemoveRequest (state : ProjectState) (before : SortedSet String) (requested : String) :
    Except ManagerError (SortedSet String) :=
  match (catalog.module requested).isSome, profiles.find? (·.id = requested) with
  | false, some profile => do
    let after := profile.modules.foldl (fun after module =>
      if state.profile = requested ∨ module ∈ state.additions then after.erase module
      else after) before
    (catalog.validateSelection after).mapError .catalog
    .ok after
  | _, _ => (catalog.resolveRemove before requested).mapError .catalog

def resolveSelection (state : ProjectState) (before : SortedSet String) :
    PlanAction → Except ManagerError (SortedSet String)
  | .add requested => resolveAddRequest profiles catalog before requested
  | .remove requested => resolveRemoveRequest profiles catalog state before requested
  | .profileSet profile =>
    ((resolve profiles catalog profile).map toSet).mapError .invalidProject

/-- What the first set has and the second one has not, in order. -/
def difference (left right : SortedSet String) : List String := left.elems.filter (· ∉ right)

/-- Identifiers leave the first set, or enter the second one if they were not there. -/
def shift : List String → SortedSet String × SortedSet String → SortedSet String × SortedSet String
  | [], sets => sets
  | id :: ids, (here, there) =>
    shift ids (if id ∈ here then (here.erase id, there) else (here, there.insert id))

def updateProfileSelection (state : ProjectState) (added removed : List String) :
    PlanAction → ProjectState
  | .add _ =>
    let (removals, additions) := shift added (state.removals, state.additions)
    { state with additions, removals }
  | .remove _ =>
    let (additions, removals) := shift removed (state.additions, state.removals)
    { state with additions, removals }
  | .profileSet profile => { state with profile, additions := .empty, removals := .empty }

def PlanAction.setsProfile (action : PlanAction) : Bool := action matches .profileSet _

/-- The state after a plan that succeeds. -/
def plan (checks : OtherChecks) (state : ProjectState) (action : PlanAction) :
    Except ManagerError ProjectState := do
  let before := toSet state.modules
  (catalog.validate checks).mapError .preflight
  (catalog.validateSelection before).mapError .preflight
  let after ← resolveSelection profiles catalog state before action
  let added := difference after before
  let removed := difference before after
  if !action.setsProfile && added.isEmpty && removed.isEmpty then .ok state
  else do
    let order ← (catalog.compositionOrder after).mapError .catalog
    .ok { updateProfileSelection state added removed action with modules := order.map (·.id) }

def planner (checks : OtherChecks) (profile : String) (modules : List String) :
    Machine ProjectState PlanAction where
  start := ⟨profile, .empty, .empty, modules⟩
  step state action := (plan profiles catalog checks state action).toOption

end

/-! ## 3. Selections -/

variable {profiles : List ProfileDefinition} {catalog : ModuleCatalog} {ids : List String}
  {before after : SortedSet String}

@[simp] theorem mem_toSet {id : String} : id ∈ toSet ids ↔ id ∈ ids := by
  induction ids with
  | nil => simp [toSet]
  | cons first rest ih => simpa [toSet] using or_congr_right ih

theorem ok_of_renamed {ε ε' α : Type} {x : Except ε α} {rename : ε → ε'} {a : α}
    (h : x.mapError rename = .ok a) : x = .ok a := by
  cases x with
  | error e => cases h
  | ok b => exact congrArg _ (Except.ok.inj h)

theorem ModuleCatalog.Accepted.mem_compositionOrder (h : catalog.Accepted)
    {order : List ModuleDefinition} (hord : catalog.compositionOrder after = .ok order)
    (id : String) : id ∈ order.map (·.id) ↔ id ∈ after := by
  obtain ⟨hval, hord⟩ := check_eq_ok.mp hord
  obtain ⟨order', hord', hords⟩ := h.orderFrom (validateSelection_eq_ok.mp hval).1 after.size
    (fun x hx => absurd hx (not_mem_empty x)) (Nat.zero_add _)
  cases hord.symm.trans hord'
  simp [hords.mem]

theorem resolveAddRequest_subset {requested : String} (h : catalog.Accepted)
    (hbef : catalog.validateSelection before = .ok ())
    (hok : resolveAddRequest profiles catalog before requested = .ok after) :
    ∀ id ∈ before, id ∈ after := by
  obtain ⟨hsel, hcpt⟩ := validateSelection_eq_ok.mp hbef
  intro id hid
  unfold resolveAddRequest at hok
  split at hok
  · exact (((h.resolveAdd_eq_ok hsel).mp (ok_of_renamed hok)).2.2 id).mpr (.inl hid)
  · obtain ⟨modules, -, hok⟩ := bind_eq_ok.mp hok
    have hall := (h.resolveAddAll_eq_ok modules hsel hcpt).mp (ok_of_renamed hok)
    exact (hall.2.2 id).mpr (.inl hid)

theorem resolveRemove_subset {requested : String}
    (h : catalog.resolveRemove before requested = .ok after) : ∀ id ∈ after, id ∈ before := by
  obtain ⟨-, h⟩ := check_eq_ok.mp h
  split at h
  · cases h
    exact fun _ => id
  obtain ⟨blocking, -, h⟩ := bind_eq_ok.mp h
  obtain ⟨-, h⟩ := guard_eq_ok.mp h
  obtain ⟨-, ⟨⟩⟩ := check_eq_ok.mp h
  exact fun id hid => (mem_erase.mp hid).2

theorem resolveRemoveRequest_subset {state : ProjectState} {requested : String}
    (h : resolveRemoveRequest profiles catalog state before requested = .ok after) :
    ∀ id ∈ after, id ∈ before := by
  unfold resolveRemoveRequest at h
  split at h
  · next profile _ _ =>
    obtain ⟨-, ⟨⟩⟩ := check_eq_ok.mp h
    refine profile.modules.foldlRecOn (motive := fun set => ∀ id ∈ set, id ∈ before) _
      (fun _ => id) fun set hsub module _ => ?_
    split
    · exact fun id hid => hsub id (mem_erase.mp hid).2
    · exact hsub
  · exact resolveRemove_subset (ok_of_renamed h)

/-! ## 4. The delta -/

/-- The selection is the profile's own modules without the removals, and the additions. -/
structure Delta (own : List String) (state : ProjectState) : Prop where
  selected : ∀ id, id ∈ state.modules ↔
    (id ∈ own ∧ id ∉ state.removals) ∨ id ∈ state.additions
  additions : ∀ id ∈ state.additions, id ∉ own
  removals : ∀ id ∈ state.removals, id ∈ own

theorem mem_shift {id : String} (ids : List String) : ∀ {here there : SortedSet String},
    ids.Nodup → (id ∈ (shift ids (here, there)).1 ↔ id ∈ here ∧ id ∉ ids) ∧
      (id ∈ (shift ids (here, there)).2 ↔ id ∈ there ∨ (id ∈ ids ∧ id ∉ here)) := by
  induction ids with
  | nil => simp [shift]
  | cons first rest ih =>
    intro here there hnd
    obtain ⟨hnew, hnd⟩ := nodup_cons.mp hnd
    unfold shift
    split
    · rw [(ih hnd).1, (ih hnd).2, mem_erase, mem_cons]
      grind
    · rw [(ih hnd).1, (ih hnd).2, mem_insert, mem_cons]
      grind

theorem mem_difference {id : String} : id ∈ difference after before ↔ id ∈ after ∧ id ∉ before := by
  simp [difference, mem_def]

theorem nodup_difference : (difference after before).Nodup := (nodup after).filter _

def Recorded (profiles : List ProfileDefinition) (catalog : ModuleCatalog) (state : ProjectState) :
    Prop :=
  ∃ own, resolve profiles catalog state.profile = .ok own ∧ Delta own state

/-- **One plan.**  An added module was not selected, so it was removed from the profile or is no
module of it; a removed one is the other way round. -/
theorem Recorded.plan {checks : OtherChecks} {state state' : ProjectState} {action : PlanAction}
    (h : Recorded profiles catalog state)
    (hplan : Generator.plan profiles catalog checks state action = .ok state') :
    Recorded profiles catalog state' := by
  obtain ⟨own, hown, hdelta⟩ := h
  obtain ⟨hcat, hplan⟩ := check_eq_ok.mp hplan
  have hacc := accepted_of_validate (ok_of_renamed hcat)
  obtain ⟨hval, hplan⟩ := check_eq_ok.mp hplan
  obtain ⟨after, haft, hplan⟩ := bind_eq_ok.mp hplan
  dsimp only at hplan
  split at hplan
  · cases hplan
    exact ⟨own, hown, hdelta⟩
  obtain ⟨order, hord, ⟨⟩⟩ := bind_eq_ok.mp hplan
  have hmem := hacc.mem_compositionOrder (ok_of_renamed hord)
  cases action with
  | add requested =>
    have hsub := resolveAddRequest_subset hacc (ok_of_renamed hval) haft
    refine ⟨own, hown, fun id => ?_, fun id => ?_, fun id => ?_⟩
    all_goals
      simp only [updateProfileSelection, mem_shift _ nodup_difference, mem_difference, hmem]
      grind [hdelta.selected id, hdelta.additions id, hdelta.removals id, mem_toSet]
  | remove requested =>
    have hsub := resolveRemoveRequest_subset haft
    refine ⟨own, hown, fun id => ?_, fun id => ?_, fun id => ?_⟩
    all_goals
      simp only [updateProfileSelection, mem_shift _ nodup_difference, mem_difference, hmem]
      grind [hdelta.selected id, hdelta.additions id, hdelta.removals id, mem_toSet]
  | profileSet profile =>
    obtain ⟨modules, hres, rfl⟩ := map_eq_ok.mp (ok_of_renamed haft)
    refine ⟨modules, hres, ?_, ?_, ?_⟩
    all_goals simp [hmem, updateProfileSelection]

/-- **The recorded selection is the profile plus a delta**, after every run of plans from a freshly
rendered project. -/
theorem selection_is_profile_plus_delta {checks : OtherChecks} {profile : String}
    {modules : List String} {state : ProjectState}
    (hfresh : resolve profiles catalog profile = .ok modules)
    (hrun : (planner profiles catalog checks profile modules).Reach
      ⟨profile, .empty, .empty, modules⟩ state) : Recorded profiles catalog state := by
  refine hrun.invariant ⟨modules, hfresh, by simp, by simp, by simp⟩ ?_
  intro state action state' h _ hstep
  unfold planner Except.toOption at hstep
  dsimp only at hstep
  split at hstep
  · cases hstep
    exact h.plan ‹_›
  · cases hstep

def Demo.bundled : List ProfileDefinition :=
  [⟨"base", none, ["kernel"]⟩, ⟨"web", some "base", ["http"]⟩]

open Demo in
/-- The profile without the module it adds to its base. -/
theorem selection_is_profile_plus_delta_web :
    Recorded bundled Demo.catalog ⟨"web", .empty, toSet ["http"], ["kernel"]⟩ :=
  selection_is_profile_plus_delta (show resolve bundled Demo.catalog "base" = .ok ["kernel"] by rfl)
    (Machine.reach_of_run (M := planner bundled Demo.catalog noOtherChecks "base" ["kernel"])
      [.add "http", .profileSet "web", .remove "web"] (by rfl))

end Omnius.Generator
