/-
# Tables: finite maps, and sums over their entries

A table is Mathlib's association list with its keys kept apart, so `lookup`, `insert` and `erase`
and their lemmas are Mathlib's.  What is added here is the ACCOUNTING: a total over all entries,
and what one insertion or removal does to it.  A program that keeps a running total next to a map
is right exactly when its updates follow `total_insert` and `total_erase`.  The values summed are of
any commutative monoid: counts in most uses, signed differences in a ledger.
-/
import Mathlib.Data.Finmap
import Mathlib.Algebra.Ring.Nat

namespace Omnius.Lib

/-- Finite maps from `K` to `V`. -/
abbrev Table (K V : Type*) := AList fun _ : K => V

namespace Table

variable {K V M : Type*} [AddCommMonoid M]

/-- The sum of `f` over the entries. -/
def total (f : K → V → M) (t : Table K V) : M := (t.entries.map fun e => f e.1 e.2).sum

def size (t : Table K V) : Nat := t.total fun _ _ => 1

variable {f g : K → V → M} {t : Table K V} {k : K} {v : V}

@[simp] theorem total_empty : total f (∅ : Table K V) = 0 := rfl

theorem total_add : total (fun k v => f k v + g k v) t = total f t + total g t := by
  exact List.sum_map_add

variable [DecidableEq K]

/-- What the entry at `k`, if there is one, adds to a total. -/
def share (f : K → V → M) (t : Table K V) (k : K) : M := (t.lookup k).elim 0 (f k)

variable {k' : K} {v' : V}

theorem lookup_insert_iff : (t.insert k v).lookup k' = some v' ↔
    (k' = k ∧ v' = v) ∨ (k' ≠ k ∧ t.lookup k' = some v') := by
  by_cases h : k' = k
  · subst h
    simp [eq_comm]
  · simp [h]

theorem lookup_erase_iff : (t.erase k).lookup k' = some v' ↔ k' ≠ k ∧ t.lookup k' = some v' := by
  by_cases h : k' = k
  · subst h
    simp
  · simp [h]

theorem forall_lookup_insert {P : K → V → Prop} (hnew : P k v)
    (hold : ∀ k' v', t.lookup k' = some v' → P k' v') :
    ∀ k' v', (t.insert k v).lookup k' = some v' → P k' v' := by
  intro k' v' h
  rcases lookup_insert_iff.mp h with ⟨rfl, rfl⟩ | ⟨-, h⟩
  · exact hnew
  · exact hold k' v' h

/-- A value that `f` shrinks, and that goes when `e` says that nothing is left of it. -/
theorem lookup_shrink {f : V → V} {e : V → Bool} {t' : Table K V}
    (hnone : t.lookup k = none → t' = t) (hsome : ∀ old, t.lookup k = some old →
      t' = if e (f old) then t.erase k else t.insert k (f old)) :
    t'.lookup k' = some v' ↔ (k' ≠ k ∧ t.lookup k' = some v') ∨
      (k' = k ∧ ∃ old, t.lookup k = some old ∧ v' = f old ∧ ¬ e v' = true) := by
  cases hold : t.lookup k with
  | none =>
    rw [hnone hold]
    by_cases hk : k' = k
    · subst hk
      simp [hold]
    · simp [hk]
  | some old =>
    rw [hsome old hold]
    split
    · next hemp =>
      rw [lookup_erase_iff, iff_self_or]
      rintro ⟨-, _, ⟨⟩, rfl, hleft⟩
      exact absurd hemp hleft
    · next hleft =>
      rw [lookup_insert_iff, or_comm]
      refine or_congr_right (and_congr_right fun _ => ⟨?_, ?_⟩)
      · rintro rfl
        exact ⟨old, rfl, rfl, hleft⟩
      · rintro ⟨_, ⟨⟩, rfl, -⟩
        rfl

/-- The value at `k`, if there is one, replaced by what `f` makes of it. -/
def modify (t : Table K V) (k : K) (f : V → V) : Table K V :=
  match t.lookup k with
  | none => t
  | some v => t.insert k (f v)

/-- An entry at `k`, unless there is one. -/
def orInsert (t : Table K V) (k : K) (v : V) : Table K V :=
  if (t.lookup k).isSome then t else t.insert k v

theorem lookup_modify {h : V → V} : (t.modify k h).lookup k' =
    if k' = k then (t.lookup k').map h else t.lookup k' := by
  unfold modify
  by_cases hk : k' = k
  · subst hk
    rw [if_pos rfl]
    cases hv : t.lookup k' with
    | none => exact hv
    | some v => exact AList.lookup_insert t
  · rw [if_neg hk]
    cases t.lookup k with
    | none => rfl
    | some v => exact AList.lookup_insert_ne hk

/-- A loop of modifications, seen at one key: only the passes for that key count. -/
theorem lookup_foldl_modify {ι : Type*} (key : ι → K) (h : ι → V → V) (k : K) :
    ∀ (l : List ι) (t : Table K V),
      (l.foldl (fun t i => t.modify (key i) (h i)) t).lookup k =
        (t.lookup k).map fun v =>
          (l.filter fun i => decide (key i = k)).foldl (fun v i => h i v) v
  | [], t => by simp
  | i :: l, t => by
    rw [List.foldl_cons, lookup_foldl_modify key h k l, lookup_modify, List.filter_cons]
    by_cases hk : key i = k
    · rw [if_pos hk.symm, if_pos (by simpa using hk)]
      cases t.lookup k <;> rfl
    · rw [if_neg (Ne.symm hk), if_neg (by simpa using hk)]

theorem share_some (h : t.lookup k = some v) : t.share f k = f k v := by simp [share, h]

theorem share_none (h : t.lookup k = none) : t.share f k = 0 := by simp [share, h]

/-- **Removing an entry takes its share out of the total.** -/
theorem total_erase (f : K → V → M) (t : Table K V) (k : K) :
    total f (t.erase k) + t.share f k = total f t := by
  obtain ⟨l, hl⟩ := t
  simp only [total, share, AList.erase, AList.lookup]
  clear hl
  induction l with
  | nil => simp
  | cons e l ih =>
    by_cases hk : k = e.1
    · subst hk
      rw [List.dlookup_cons_eq]
      simp [add_comm]
    · rw [List.kerase_cons_ne hk, List.dlookup_cons_ne _ _ hk]
      simp only [List.map_cons, List.sum_cons]
      rw [add_assoc, ih]

/-- **Inserting an entry replaces the share of its key.** -/
theorem total_insert (f : K → V → M) (t : Table K V) (k : K) (v : V) :
    total f (t.insert k v) + t.share f k = total f t + f k v := by
  have h : total f (t.insert k v) = f k v + total f (t.erase k) := by
    simp [total, AList.erase]
  rw [h, add_assoc, total_erase, add_comm]

theorem total_insert_new (h : t.lookup k = none) :
    total f (t.insert k v) = total f t + f k v := by
  have := total_insert f t k v
  rwa [share_none h, add_zero] at this

theorem total_congr (h : ∀ k v, t.lookup k = some v → f k v = g k v) : total f t = total g t := by
  refine congrArg List.sum (List.map_congr_left ?_)
  intro e he
  exact h e.1 e.2 (AList.mem_lookup_iff.mpr he)

theorem total_eq_zero (h : ∀ k v, t.lookup k = some v → f k v = 0) : total f t = 0 := by
  refine List.sum_eq_zero ?_
  intro n hn
  obtain ⟨e, he, rfl⟩ := List.mem_map.mp hn
  exact h e.1 e.2 (AList.mem_lookup_iff.mpr he)

section Nat

variable {f g : K → V → Nat}

theorem le_total (h : t.lookup k = some v) : f k v ≤ total f t := by
  have := total_erase f t k
  rw [share_some h] at this
  omega

/-- **Pointwise comparison.**  A total is at most another when each of its entries is at most the
share of its key in the other. -/
theorem total_le_total {t' : Table K V} (h : ∀ k v, t'.lookup k = some v → f k v ≤ t.share g k) :
    total f t' ≤ total g t := by
  obtain ⟨l, hl⟩ := t'
  induction l generalizing t with
  | nil => exact Nat.zero_le _
  | cons e l ih =>
    have hkeys := List.nodupKeys_cons.mp hl
    have herase := total_erase g t e.1
    have hhead := h e.1 e.2 (List.dlookup_cons_eq l e.1 e.2)
    have htail : total f ⟨l, hkeys.2⟩ ≤ total g (t.erase e.1) := by
      refine ih hkeys.2 ?_
      intro k v hkv
      have hne : k ≠ e.1 := by
        rintro rfl
        exact hkeys.1 (List.dlookup_isSome.mp (by
          rw [show List.dlookup e.1 l = some v from hkv]
          rfl))
      rw [share, AList.lookup_erase_ne hne]
      exact h k v ((List.dlookup_cons_ne l e hne).trans hkv)
    have hspl : total f ⟨e :: l, hl⟩ = f e.1 e.2 + total f ⟨l, hkeys.2⟩ := by
      simp [total]
    omega

end Nat

def isEmpty (t : Table K V) : Bool := t.entries.isEmpty

theorem isEmpty_iff : t.isEmpty = true ↔ ∀ k, t.lookup k = none := by
  rw [isEmpty, List.isEmpty_iff]
  constructor
  · intro h k
    simp [AList.lookup, h]
  · intro h
    refine List.eq_nil_iff_forall_not_mem.mpr ?_
    intro e he
    have := AList.mem_lookup_iff.mpr he
    rw [h e.1] at this
    cases this

theorem size_insert_new (h : t.lookup k = none) : size (t.insert k v) = size t + 1 :=
  total_insert_new h

theorem size_insert_old (h : t.lookup k = some v') : size (t.insert k v) = size t := by
  have := total_insert (fun _ _ => 1) t k v
  rw [share_some h] at this
  unfold size
  omega

theorem size_erase_le : size (t.erase k) ≤ size t := by
  have := total_erase (fun _ _ => 1) t k
  unfold size
  omega

end Table

end Omnius.Lib
