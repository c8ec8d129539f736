/-
# Sorted maps

A map kept as a list of entries with strictly increasing keys, as a B-tree map iterates it.  The
operations here keep the keys, so they keep the order, and a map is rebuilt entry by entry without
being searched.

* `mapWithKey` -- change every value; a lookup sees the changed value (`get?_mapWithKey`);
* `foldl_modify` -- changing one value after another, for distinct keys, is one `mapWithKey`;
* `traverse_of_ok` -- rebuilding a map from checked values succeeds when every check does.
-/
import Mathlib.Order.Lattice
import Mathlib.Data.List.Pairwise

namespace Omnius.Lib

open List

/-- A finite map over a linear order, smallest key first. -/
structure SortedMap (K V : Type*) [LinearOrder K] where
  entries : List (K × V)
  sorted : entries.Pairwise (·.1 < ·.1)

namespace SortedMap

variable {K V W : Type*} [LinearOrder K]

variable {m m' : SortedMap K V}

@[ext] theorem ext (h : m.entries = m'.entries) : m = m' := by
  cases m
  cases m'
  cases h
  rfl

instance [DecidableEq V] : DecidableEq (SortedMap K V) := fun m m' =>
  decidable_of_iff (m.entries = m'.entries) ⟨ext, fun h => h ▸ rfl⟩

def size (m : SortedMap K V) : Nat := m.entries.length

def isEmpty (m : SortedMap K V) : Bool := m.entries.isEmpty

/-- The value of the first entry with this key. -/
def lookup (k : K) : List (K × V) → Option V
  | [] => none
  | (k', v) :: rest => if k' = k then some v else lookup k rest

def get? (m : SortedMap K V) (k : K) : Option V := lookup k m.entries

/-! ## 1. Lookup -/

variable {k : K} {v : V}

theorem mem_of_lookup : ∀ {l : List (K × V)}, lookup k l = some v → (k, v) ∈ l
  | [], h => by cases h
  | (k', v') :: rest, h => by
    unfold lookup at h
    split at h
    · next hk =>
      cases h
      rw [hk]
      exact mem_cons_self
    · exact mem_cons_of_mem _ (mem_of_lookup h)

theorem lookup_of_mem : ∀ {l : List (K × V)}, l.Pairwise (·.1 < ·.1) →
    (k, v) ∈ l → lookup k l = some v
  | [], _, h => by cases h
  | (k', v') :: rest, hsrt, h => by
    obtain ⟨hfst, hrest⟩ := pairwise_cons.mp hsrt
    rcases mem_cons.mp h with h | h
    · cases h
      exact if_pos rfl
    · have hne : k' ≠ k := ne_of_lt (hfst (k, v) h)
      rw [lookup, if_neg hne]
      exact lookup_of_mem hrest h

theorem get?_eq_some : m.get? k = some v ↔ (k, v) ∈ m.entries :=
  ⟨mem_of_lookup, lookup_of_mem m.sorted⟩

/-! ## 2. Changing values -/

def mapWithKey (f : K → V → W) (m : SortedMap K V) : SortedMap K W where
  entries := m.entries.map fun e => (e.1, f e.1 e.2)
  sorted := pairwise_map.mpr m.sorted

/-- Changes the value of one key, if it is there. -/
def modify (m : SortedMap K V) (k : K) (f : V → V) : SortedMap K V :=
  m.mapWithKey fun k' v => if k' = k then f v else v

variable {f : K → V → W}

theorem lookup_map : ∀ l : List (K × V),
    lookup k (l.map fun e => (e.1, f e.1 e.2)) = (lookup k l).map (f k)
  | [] => rfl
  | (k', v) :: rest => by
    simp only [map_cons, lookup]
    split
    · next hk => rw [hk, Option.map_some]
    · exact lookup_map rest

theorem get?_mapWithKey :
    (m.mapWithKey f).get? k = (m.get? k).map (f k) := lookup_map m.entries

variable {w : W} {X : Type*} {g : K → V → W}

theorem mem_mapWithKey :
    (k, w) ∈ (m.mapWithKey f).entries ↔ ∃ v, (k, v) ∈ m.entries ∧ f k v = w := by
  simp [← get?_eq_some, get?_mapWithKey]

@[simp] theorem size_mapWithKey :
    (m.mapWithKey f).size = m.size := length_map _

@[simp] theorem isEmpty_mapWithKey :
    (m.mapWithKey f).isEmpty = m.isEmpty := isEmpty_map

theorem mapWithKey_mapWithKey {g : K → W → X} :
    (m.mapWithKey f).mapWithKey g = m.mapWithKey fun k v => g k (f k v) := by
  ext1
  simp [mapWithKey]

theorem mapWithKey_congr (h : ∀ k v, (k, v) ∈ m.entries → f k v = g k v) :
    m.mapWithKey f = m.mapWithKey g := by
  ext1
  exact map_congr_left fun e he => by rw [h e.1 e.2 he]

theorem mapWithKey_id {f : K → V → V} (h : ∀ k v, (k, v) ∈ m.entries → f k v = v) :
    m.mapWithKey f = m := by
  rw [mapWithKey_congr h]
  ext1
  exact map_id _

/-- **Changes one after another are one change**, when each key is changed once. -/
theorem foldl_modify (f : X → V → V) :
    ∀ (changes : List (K × X)) (m : SortedMap K V), changes.Pairwise (·.1 < ·.1) →
    changes.foldl (fun m change => m.modify change.1 (f change.2)) m =
      m.mapWithKey fun k v => ((lookup k changes).map fun x => f x v).getD v
  | [], m, _ => (mapWithKey_id fun _ _ _ => rfl).symm
  | (k, x) :: rest, m, hsrt => by
    obtain ⟨hfst, hrest⟩ := pairwise_cons.mp hsrt
    rw [foldl_cons, foldl_modify f rest _ hrest, modify, mapWithKey_mapWithKey]
    refine mapWithKey_congr fun k' v _ => ?_
    by_cases hk : k' = k
    · subst hk
      have hnone : lookup k' rest = none := by
        cases hlk : lookup k' rest with
        | none => rfl
        | some y => exact absurd (hfst _ (mem_of_lookup hlk)) (lt_irrefl k')
      simp [lookup, hnone]
    · simp [lookup, hk, Ne.symm hk]

/-! ## 3. Rebuilding -/

section CheckAll

variable {K V W ε : Type*} {f : K → V → Except ε W}

/-- The entries with what a check returned for each of them, or the first error. -/
def checkAll (f : K → V → Except ε W) : List (K × V) → Except ε (List (K × W))
  | [] => .ok []
  | (k, v) :: rest =>
    match f k v with
    | .error e => .error e
    | .ok w =>
      match checkAll f rest with
      | .error e => .error e
      | .ok checked => .ok ((k, w) :: checked)

variable {k : K}

theorem checkAll_cons {v : V} {rest : List (K × V)} {l : List (K × W)} :
    checkAll f ((k, v) :: rest) = .ok l ↔
      ∃ w checked, f k v = .ok w ∧ checkAll f rest = .ok checked ∧ l = (k, w) :: checked := by
  rw [checkAll]
  cases f k v with
  | error e => simp
  | ok w =>
    cases checkAll f rest with
    | error e => simp
    | ok checked => simp [eq_comm]

theorem keys_checkAll : ∀ {l : List (K × V)} {l' : List (K × W)}, checkAll f l = .ok l' →
    l'.map Prod.fst = l.map Prod.fst
  | [], l', h => by
    cases h
    rfl
  | (k, v) :: rest, l', h => by
    obtain ⟨w, checked, -, hrest, rfl⟩ := checkAll_cons.mp h
    rw [map_cons, map_cons, keys_checkAll hrest]

theorem checkAll_of_ok {g : K → V → W} : ∀ {l : List (K × V)},
    (∀ k v, (k, v) ∈ l → f k v = .ok (g k v)) → checkAll f l = .ok (l.map fun e => (e.1, g e.1 e.2))
  | [], _ => rfl
  | (k, v) :: rest, h => by
    rw [checkAll_cons]
    exact ⟨g k v, rest.map fun e => (e.1, g e.1 e.2), h k v mem_cons_self,
      checkAll_of_ok fun k' v' hmem => h k' v' (mem_cons_of_mem _ hmem), rfl⟩

theorem checkAll_same {f : K → V → Except ε V} (hf : ∀ k v w, f k v = .ok w → w = v) :
    ∀ {l l' : List (K × V)}, checkAll f l = .ok l' → l' = l
  | [], l', h => by
    cases h
    rfl
  | (k, v) :: rest, l', h => by
    obtain ⟨w, checked, hw, hrest, rfl⟩ := checkAll_cons.mp h
    rw [hf k v w hw, checkAll_same hf hrest]

theorem mem_of_checkAll {w : W} : ∀ {l : List (K × V)} {l' : List (K × W)},
    checkAll f l = .ok l' → (k, w) ∈ l' → ∃ v, (k, v) ∈ l ∧ f k v = .ok w
  | [], l', h, hmem => by
    cases h
    cases hmem
  | (k', v) :: rest, l', h, hmem => by
    obtain ⟨w', checked, hw', hrest, rfl⟩ := checkAll_cons.mp h
    rcases mem_cons.mp hmem with hmem | hmem
    · cases hmem
      exact ⟨v, mem_cons_self, hw'⟩
    · obtain ⟨v', hv', hw⟩ := mem_of_checkAll hrest hmem
      exact ⟨v', mem_cons_of_mem _ hv', hw⟩

end CheckAll

variable {ε : Type*} {f : K → V → Except ε W}

theorem sorted_checkAll {l : List (K × V)} {l' : List (K × W)} (hsrt : l.Pairwise (·.1 < ·.1))
    (h : checkAll f l = .ok l') : l'.Pairwise (·.1 < ·.1) := by
  have hkeys : (l'.map Prod.fst).Pairwise (· < ·) := by
    rw [keys_checkAll h]
    exact pairwise_map.mpr hsrt
  exact pairwise_map.mp hkeys

/-- Checks every value, and gives the map of what the checks returned. -/
def traverse (f : K → V → Except ε W) (m : SortedMap K V) : Except ε (SortedMap K W) :=
  match h : checkAll f m.entries with
  | .error e => .error e
  | .ok entries => .ok ⟨entries, sorted_checkAll m.sorted h⟩

theorem traverse_eq_ok_iff {m' : SortedMap K W} :
    traverse f m = .ok m' ↔ checkAll f m.entries = .ok m'.entries := by
  unfold traverse
  split
  · next e he => simp [he]
  · next entries hents =>
    constructor
    · intro h
      cases h
      exact hents
    · intro h
      have hsame : entries = m'.entries := Except.ok.inj (hents.symm.trans h)
      exact congrArg Except.ok (SortedMap.ext hsame)

/-- **Every check succeeds, so the map is rebuilt.** -/
theorem traverse_of_ok (h : ∀ k v, (k, v) ∈ m.entries → f k v = .ok (g k v)) :
    traverse f m = .ok (m.mapWithKey g) :=
  traverse_eq_ok_iff.mpr (checkAll_of_ok h)

theorem traverse_same {f : K → V → Except ε V} (hf : ∀ k v w, f k v = .ok w → w = v)
    (h : traverse f m = .ok m') : m' = m :=
  SortedMap.ext (checkAll_same hf (traverse_eq_ok_iff.mp h))

theorem mem_of_traverse {m' : SortedMap K W} (h : traverse f m = .ok m')
    (hmem : (k, w) ∈ m'.entries) : ∃ v, (k, v) ∈ m.entries ∧ f k v = .ok w :=
  mem_of_checkAll (traverse_eq_ok_iff.mp h) hmem

end SortedMap

end Omnius.Lib
