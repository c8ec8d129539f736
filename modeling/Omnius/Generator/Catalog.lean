/-
# The module catalog and selections from it

A catalog lists modules; a module names the modules it requires and those it conflicts with, may
fill a provider slot, and declares configuration fields.  `validate` accepts a catalog,
`validateSelection` a set of selected modules, and the resolution functions turn one accepted
selection into another.

A selection is a set iterated in the order of its identifiers, so which error is reported first is
part of the model.  What a module declares beyond its relations (ownership, composition, templates,
runtime dependencies) is checked by `OtherChecks`, a parameter: resolution does not read what they
check, and all they can do is refuse the catalog.

Translated from `crates/generator/src/modules.rs`.
-/
import Mathlib.Data.String.Basic
import Omnius.Lib.Dependency
import Omnius.Generator.Region

namespace Omnius.Generator

open Omnius.Lib

/-! ## 1. Modules -/

inductive ConfigurationValueType where
  | string | integer | boolean | stringArray | integerArray
deriving DecidableEq

inductive ConfigurationValue where
  | string (value : String)
  | integer (value : Int)
  | boolean (value : Bool)
  | stringArray (values : List String)
  | integerArray (values : List Int)
deriving DecidableEq

/-- Two modules may declare one field; then all of it must agree (`addConfigured`). -/
structure ConfigurationField where
  path : String
  valueType : ConfigurationValueType
  required : Bool
  referenceDefault : Option ConfigurationValue
  environment : Option String
deriving DecidableEq

structure ModuleDefinition where
  (id version kind : String)
  (requires conflictsWith : List String)
  providerSlot : Option String
  secretFields : List String
  fields : List ConfigurationField

structure ModuleCatalog where
  schemaVersion : Nat
  bundleVersion : String
  modules : List ModuleDefinition

inductive CatalogError where
  | unsupportedSchemaVersion (version : Nat)
  | emptyBundleVersion
  | invalidId (id : String)
  | unsupportedKind (id kind : String)
  | testSupportNotTooling | generatorReserved
  | duplicateModule (id : String)
  | emptyVersion (id : String)
  | duplicateListed (id value list : String)
  | requiresItself (id : String)
  | conflictsWithItself (id : String)
  | emptyProviderSlot (id : String)
  /-- A refusal by one of the checks of what a module declares. -/
  | declaration (message : String)
  | requiresUnknown (id required : String)
  | runtimeRequiresTooling (id required : String)
  | conflictsWithUnknown (id conflict : String)
  | dependencyCycle (id : String)
  | unknownModule (id : String)
  | unknownRequested (requested : String)
  | toolingSelected (id : String)
  | selectsUnknown (id : String)
  | missingRequired (id required : String)
  | moduleConflict (left right : String)
  | sharedProviderSlot (slot left right : String)
  | conflictingConfiguration (owner id path : String)
  | selectedDependents (requested : String) (blockers : List String)
  | notOrderable
  /-- The search was cut off, as it never is in an accepted catalog (`Accepted.resolved`). -/
  | searchCutOff
deriving DecidableEq

def moduleCatalogSchemaVersion : Nat := 1

def ModuleDefinition.isTooling (module : ModuleDefinition) : Bool := module.kind = "tooling"

/-! ## 2. Searches -/

namespace ModuleCatalog

/-- The module with an identifier; the first, should there be several. -/
def module (catalog : ModuleCatalog) (id : String) : Option ModuleDefinition :=
  catalog.modules.find? fun module => module.id = id

def requires (catalog : ModuleCatalog) (id : String) : Option (List String) :=
  (catalog.module id).map (·.requires)

end ModuleCatalog

def CatalogError.ofFault : Dependency.Fault String → CatalogError
  | .cycle id => .dependencyCycle id
  | .unknown id => .unknownModule id
  | .outOfFuel => .searchCutOff

namespace ModuleCatalog

variable (catalog : ModuleCatalog)

/-- Enough for a path through every module. -/
def searchFuel : Nat := (catalog.modules.map (·.id)).length + 1

/-- `collect_dependencies` with an empty visiting set, as every caller makes it. -/
def collectDependencies (id : String) (collected : SortedSet String) :
    Except CatalogError (SortedSet String) :=
  match Dependency.collect catalog.requires catalog.searchFuel id ⟨.empty, collected⟩ with
  | .ok visit => .ok visit.collected
  | .error fault => .error (.ofFault fault)

/-- `depends_on` with an empty visiting set. -/
def dependsOn (id target : String) : Except CatalogError Bool :=
  match Dependency.reaches catalog.requires target catalog.searchFuel id .empty with
  | .ok (found, _) => .ok found
  | .error fault => .error (.ofFault fault)

end ModuleCatalog

/-! ## 3. Accepted catalogs -/

/-- Runs a check on every item of a list, in order. -/
def forEach {ε α : Type} (check : α → Except ε Unit) : List α → Except ε Unit
  | [] => .ok ()
  | item :: rest => do
    check item
    forEach check rest

def supportedKinds : List String :=
  ["kernel", "infrastructure", "transport", "capability", "product", "tooling"]

/-- `validate_unique_list`: the values seen so far, and the rest. -/
def validateUniqueList (id list : String) : List String → List String → Except CatalogError Unit
  | _, [] => .ok ()
  | seen, value :: rest =>
    if value ∈ seen then .error (.duplicateListed id value list)
    else validateUniqueList id list (value :: seen) rest

def validateId (value : String) : Except CatalogError Unit :=
  if value.isEmpty || value.utf8ByteSize > 128
      || !value.toList.all (fun c => c.isAlphanum || c = '-' || c = '_' || c = '.') then
    .error (.invalidId value)
  else .ok ()

/-- The checks of what is declared beside the relations, at their places in `validate`. -/
structure OtherChecks where
  runtimeDependencyRegistry : ModuleCatalog → Except CatalogError Unit
  /-- Ownership, composition, configuration and runtime dependencies of one module. -/
  declarations : ModuleDefinition → Except CatalogError Unit
  applicationTemplates : List ModuleDefinition → Except CatalogError Unit

/-- The checks of one module, once its identifier is known to be new. -/
def validateModule (checks : OtherChecks) (module : ModuleDefinition) :
    Except CatalogError Unit :=
  if module.version.isEmpty then .error (.emptyVersion module.id)
  else do
    validateUniqueList module.id "requires" [] module.requires
    validateUniqueList module.id "conflicts_with" [] module.conflictsWith
    if module.id ∈ module.requires then .error (.requiresItself module.id)
    else if module.id ∈ module.conflictsWith then .error (.conflictsWithItself module.id)
    else if module.providerSlot = some "" then .error (.emptyProviderSlot module.id)
    else checks.declarations module

def validateKind (module : ModuleDefinition) : Except CatalogError Unit :=
  if module.kind ∉ supportedKinds then .error (.unsupportedKind module.id module.kind)
  else if module.id = "test-support" && !module.isTooling then .error .testSupportNotTooling
  else if module.id = "generator" then .error .generatorReserved
  else .ok ()

def validateModuleDefinitions (checks : OtherChecks) :
    SortedSet String → List ModuleDefinition → Except CatalogError (SortedSet String)
  | ids, [] => .ok ids
  | ids, module :: rest => do
    validateId module.id
    validateKind module
    if module.id ∈ ids then .error (.duplicateModule module.id)
    else do
      validateModule checks module
      validateModuleDefinitions checks (ids.insert module.id) rest

namespace ModuleCatalog

def validateRequired (catalog : ModuleCatalog) (module : ModuleDefinition) (required : String) :
    Except CatalogError Unit :=
  match catalog.module required with
  | none => .error (.requiresUnknown module.id required)
  | some requiredModule =>
    if !module.isTooling && requiredModule.isTooling then
      .error (.runtimeRequiresTooling module.id required)
    else .ok ()

def validateModuleRelationships (catalog : ModuleCatalog) (ids : SortedSet String) :
    Except CatalogError Unit :=
  forEach (fun module => do
    forEach (catalog.validateRequired module) module.requires
    forEach (fun conflict =>
      if conflict ∈ ids then .ok () else .error (.conflictsWithUnknown module.id conflict))
      module.conflictsWith) catalog.modules

/-- `Ok` for a catalog whose modules are distinct, related only to known modules, and required
without a cycle. -/
def validate (checks : OtherChecks) (catalog : ModuleCatalog) : Except CatalogError Unit :=
  if catalog.schemaVersion ≠ moduleCatalogSchemaVersion then
    .error (.unsupportedSchemaVersion catalog.schemaVersion)
  else if catalog.bundleVersion.isEmpty then .error .emptyBundleVersion
  else do
    checks.runtimeDependencyRegistry catalog
    let ids ← validateModuleDefinitions checks .empty catalog.modules
    checks.applicationTemplates catalog.modules
    catalog.validateModuleRelationships ids
    forEach (fun module => do
      let _ ← catalog.collectDependencies module.id .empty
      .ok ()) catalog.modules

/-! ## 4. Accepted selections -/

end ModuleCatalog

def stripArraySuffix (component : String) : String :=
  if component.endsWith "[]" then (component.dropEnd 2).copy else component

/-- Whether one of a module's secret patterns covers a path. -/
def configurationPathIsSecret (path : String) (secretFields : List String) : Bool :=
  secretFields.any fun secret =>
    ((path.splitOn ".").zip (secret.splitOn ".")).all (fun (actual, expected) =>
      stripArraySuffix expected = "*" || stripArraySuffix actual = stripArraySuffix expected)
    && (path.splitOn ".").length = (secret.splitOn ".").length

/-- A configuration field as a selected module defines it. -/
structure Configured where
  owner : String
  field : ConfigurationField
  secret : Bool

def ModuleDefinition.configured (module : ModuleDefinition) : List Configured :=
  module.fields.map fun field =>
    ⟨module.id, field, configurationPathIsSecret field.path module.secretFields⟩

/-- Adds a module's fields to those configured so far, newest first; a field that is there already
must be the same. -/
def addConfigured : List Configured → List Configured → Except CatalogError (List Configured)
  | configured, [] => .ok configured
  | configured, new :: rest =>
    match configured.find? fun existing => existing.field.path = new.field.path with
    | none => addConfigured (new :: configured) rest
    | some existing =>
      if existing.field ≠ new.field || existing.secret ≠ new.secret then
        .error (.conflictingConfiguration existing.owner new.owner new.field.path)
      else addConfigured (new :: configured) rest

namespace ModuleCatalog

def validateConfigurationConflicts (catalog : ModuleCatalog) :
    List Configured → List String → Except CatalogError Unit
  | _, [] => .ok ()
  | configured, id :: rest =>
    match catalog.module id with
    | none => .error (.unknownModule id)
    | some module => do
      let configured ← addConfigured configured module.configured
      catalog.validateConfigurationConflicts configured rest

def validateSelected (catalog : ModuleCatalog) (selected : SortedSet String) (id : String) :
    Except CatalogError Unit :=
  match catalog.module id with
  | none => .error (.selectsUnknown id)
  | some module =>
    if module.isTooling then .error (.toolingSelected id)
    else forEach (fun required =>
      if required ∈ selected then .ok () else .error (.missingRequired id required))
      module.requires

/-- One module of a selection against a later one. -/
def validatePair (catalog : ModuleCatalog) (left : ModuleDefinition) (rightId : String) :
    Except CatalogError Unit :=
  match catalog.module rightId with
  | none => .error (.unknownModule rightId)
  | some right =>
    if right.id ∈ left.conflictsWith || left.id ∈ right.conflictsWith then
      .error (.moduleConflict left.id right.id)
    else if left.providerSlot.isSome && left.providerSlot = right.providerSlot then
      .error (.sharedProviderSlot (left.providerSlot.getD "") left.id right.id)
    else .ok ()

def validatePairs (catalog : ModuleCatalog) : List String → Except CatalogError Unit
  | [] => .ok ()
  | leftId :: rest =>
    match catalog.module leftId with
    | none => .error (.unknownModule leftId)
    | some left => do
      forEach (catalog.validatePair left) rest
      catalog.validatePairs rest

section

variable (catalog : ModuleCatalog)

def validateSelection (selected : SortedSet String) :
    Except CatalogError Unit := do
  forEach (catalog.validateSelected selected) selected.elems
  catalog.validatePairs selected.elems
  catalog.validateConfigurationConflicts [] selected.elems

/-! ## 5. Resolution -/

/-- A module that may be asked for: known, and not tooling. -/
def requestable (requested : String) : Except CatalogError Unit :=
  match catalog.module requested with
  | none => .error (.unknownRequested requested)
  | some module => if module.isTooling then .error (.toolingSelected requested) else .ok ()

def resolveAdd (selected : SortedSet String) (requested : String) :
    Except CatalogError (SortedSet String) := do
  catalog.requestable requested
  let resolved ← catalog.collectDependencies requested selected
  catalog.validateSelection (resolved.insert requested)
  .ok (resolved.insert requested)

end

/-- The selected modules that depend on the requested one, in order. -/
def blockers (catalog : ModuleCatalog) (requested : String) :
    List String → Except CatalogError (List String)
  | [] => .ok []
  | id :: rest =>
    if id = requested then catalog.blockers requested rest
    else do
      let blocked ← catalog.dependsOn id requested
      let others ← catalog.blockers requested rest
      .ok (if blocked then id :: others else others)

def resolveRemove (catalog : ModuleCatalog) (selected : SortedSet String) (requested : String) :
    Except CatalogError (SortedSet String) := do
  catalog.requestable requested
  if requested ∉ selected then .ok selected
  else do
    let blocking ← catalog.blockers requested selected.elems
    if !blocking.isEmpty then .error (.selectedDependents requested blocking)
    else do
      catalog.validateSelection (selected.erase requested)
      .ok (selected.erase requested)

/-- A selected module that was not emitted and whose requirements all were. -/
def isReady (selected emitted : SortedSet String) (module : ModuleDefinition) : Bool :=
  module.id ∈ selected && module.id ∉ emitted && module.requires.all (· ∈ emitted)

/-- The ordering loop, with `missing` modules still to emit. -/
def orderFrom (catalog : ModuleCatalog) (selected : SortedSet String) :
    Nat → SortedSet String → Except CatalogError (List ModuleDefinition)
  | 0, _ => .ok []
  | missing + 1, emitted =>
    match catalog.modules.find? (isReady selected emitted) with
    | none => .error .notOrderable
    | some module => do
      let rest ← catalog.orderFrom selected missing (emitted.insert module.id)
      .ok (module :: rest)

def compositionOrder (catalog : ModuleCatalog) (selected : SortedSet String) :
    Except CatalogError (List ModuleDefinition) := do
  catalog.validateSelection selected
  catalog.orderFrom selected selected.size .empty

def resolveAddAll (catalog : ModuleCatalog) :
    SortedSet String → List String → Except CatalogError (SortedSet String)
  | selected, [] => .ok selected
  | selected, requested :: rest => do
    let resolved ← catalog.resolveAdd selected requested
    catalog.resolveAddAll resolved rest

end ModuleCatalog

end Omnius.Generator
