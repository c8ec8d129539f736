/-
# Sorted sets

A set kept as a strictly increasing list, as a B-tree set iterates it.  The order is part of the
value, so an iteration over the set is a recursion over ITS list and needs no choice of order;
`ext` says the list holds nothing but the members.
-/
import Mathlib.Data.List.Pairwise
import Mathlib.Data.List.Sort

namespace Omnius.Lib

/-- A finite set over a linear order, smallest first. -/
structure SortedSet (α : Type*) [LinearOrder α] where
  elems : List α
  sorted : elems.Pairwise (· < ·)

namespace SortedSet

variable {α : Type*} [LinearOrder α]

instance : Membership α (SortedSet α) := ⟨fun s a => a ∈ s.elems⟩

instance (a : α) (s : SortedSet α) : Decidable (a ∈ s) := inferInstanceAs (Decidable (a ∈ s.elems))

variable {a x : α} {s t : SortedSet α}

theorem mem_def : a ∈ s ↔ a ∈ s.elems := Iff.rfl

def empty : SortedSet α := ⟨[], .nil⟩

def size (s : SortedSet α) : Nat := s.elems.length

def isEmpty (s : SortedSet α) : Bool := s.elems.isEmpty

@[simp] theorem not_mem_empty (a : α) : a ∉ (empty : SortedSet α) := List.not_mem_nil

@[simp] theorem isEmpty_iff : s.isEmpty = true ↔ ∀ a, a ∉ s := by
  simp only [isEmpty, List.isEmpty_iff, mem_def]
  exact List.eq_nil_iff_forall_not_mem

/-- The list with `a` in its place. -/
def insertList (a : α) : List α → List α
  | [] => [a]
  | b :: l => if a < b then a :: b :: l else if a = b then b :: l else b :: insertList a l

theorem mem_insertList : ∀ {l : List α}, x ∈ insertList a l ↔ x = a ∨ x ∈ l
  | [] => by simp [insertList]
  | b :: l => by
    unfold insertList
    split
    · simp
    split
    · rename_i h
      subst h
      simp
    · simp only [List.mem_cons, mem_insertList (l := l)]
      exact or_left_comm

theorem sorted_insertList : ∀ {l : List α}, l.Pairwise (· < ·) → (insertList a l).Pairwise (· < ·) 
  | [], _ => List.pairwise_singleton _ _
  | b :: l, h => by
    obtain ⟨hb, hl⟩ := List.pairwise_cons.mp h
    unfold insertList
    split
    · rename_i hab
      refine List.pairwise_cons.mpr ⟨List.forall_mem_cons.mpr ⟨hab, ?_⟩, h⟩
      exact fun x hx => lt_trans hab (hb x hx)
    · rename_i hab
      split
      · exact h
      rename_i hne
      refine List.pairwise_cons.mpr ⟨?_, sorted_insertList hl⟩
      intro x hx
      rcases mem_insertList.mp hx with rfl | hx
      · exact lt_of_le_of_ne (not_lt.mp hab) (Ne.symm hne)
      · exact hb x hx

theorem length_insertList : ∀ {l : List α}, a ∉ l → (insertList a l).length = l.length + 1 
  | [], _ => rfl
  | b :: l, h => by
    unfold insertList
    split
    · rfl
    have hne : a ≠ b := fun hab => h (hab ▸ List.mem_cons_self)
    rw [if_neg hne]
    simp [length_insertList fun hl => h (List.mem_cons_of_mem _ hl)]

def insert (a : α) (s : SortedSet α) : SortedSet α :=
  ⟨insertList a s.elems, sorted_insertList s.sorted⟩

def erase (a : α) (s : SortedSet α) : SortedSet α :=
  ⟨s.elems.erase a, s.sorted.sublist List.erase_sublist⟩

theorem nodup (s : SortedSet α) : s.elems.Nodup := s.sorted.imp ne_of_lt

@[simp] theorem mem_insert : x ∈ s.insert a ↔ x = a ∨ x ∈ s :=
  mem_insertList

theorem forall_mem_insert {P : α → Prop} : (∀ x ∈ s.insert a, P x) ↔ P a ∧ ∀ x ∈ s, P x := by
  simp

@[simp] theorem mem_erase : x ∈ s.erase a ↔ x ≠ a ∧ x ∈ s := by
  simp only [mem_def, erase, s.nodup.mem_erase_iff]

theorem size_insert (h : a ∉ s) : (s.insert a).size = s.size + 1 :=
  length_insertList h

theorem size_erase_le : (s.erase a).size ≤ s.size :=
  List.erase_sublist.length_le

theorem ext_mem (h : ∀ x, x ∈ s ↔ x ∈ t) : s = t := by
  obtain ⟨l, hl⟩ := s
  obtain ⟨k, hk⟩ := t
  have hperm : l.Perm k := (List.perm_ext_iff_of_nodup (hl.imp ne_of_lt) (hk.imp ne_of_lt)).mpr h
  have heq : l = k := hperm.eq_of_pairwise (fun a b _ _ hab hba => absurd hba hab.asymm) hl hk
  subst heq
  rfl

theorem erase_insert (h : a ∉ s) : (s.insert a).erase a = s := by
  refine ext_mem fun x => ?_
  simp only [mem_erase, mem_insert]
  constructor
  · rintro ⟨hne, rfl | hx⟩
    · exact absurd rfl hne
    · exact hx
  · intro hx
    exact ⟨fun hxa => h (hxa ▸ hx), .inr hx⟩

theorem size_le_length {l : List α} (h : ∀ x ∈ s, x ∈ l) : s.size ≤ l.length :=
  (List.subperm_of_subset s.nodup h).length_le

theorem exists_not_mem_of_size_lt (h : s.size < t.size) : ∃ x ∈ t, x ∉ s := by
  by_contra hnone
  have hall : ∀ x ∈ t, x ∈ s.elems := fun x hx => by_contra fun hxs => hnone ⟨x, hx, hxs⟩
  exact absurd (size_le_length hall) (Nat.not_le.mpr h)

end SortedSet

end Omnius.Lib
