/-
# Rows under check constraints

A table is the list of its rows, oldest first.  An `UPDATE` changes every row its condition selects
and is refused AS A WHOLE when one changed row breaks a check; an `INSERT` is refused by a check or
by a key it would repeat.  Nothing else can go wrong with a statement here.

What several updates in a row can do to a table is said by `Mapped R`: the new table is the old one
with every row replaced by an `R`-related one.  It is kept under composition when `R` is, so the
effect of a whole transaction follows from the effect of one change.
-/
import Mathlib.Data.List.Nodup
import Mathlib.Data.List.Chain

namespace Omnius.Lib.Rows

open List

variable {ρ κ : Type*}

/-- Why the database refuses a statement. -/
inductive Violation where
  | check | key

/-! ## 1. Statements -/

/-- One row after an `UPDATE`. -/
def patch (condition : ρ → Bool) (change : ρ → ρ) (row : ρ) : ρ :=
  if condition row then change row else row

def update (check condition : ρ → Bool) (change : ρ → ρ) (rows : List ρ) :
    Except Violation (List ρ) :=
  if rows.all fun row => !condition row || check (change row) then
    .ok (rows.map (patch condition change))
  else .error .check

/-- The checks of a row come before its keys. -/
def insert (check : ρ → Bool) (clash : ρ → ρ → Bool) (row : ρ) (rows : List ρ) :
    Except Violation (List ρ) :=
  if !check row then .error .check
  else if rows.any (clash row) then .error .key
  else .ok (rows ++ [row])

section Statements

variable {check condition : ρ → Bool} {change : ρ → ρ} {clash : ρ → ρ → Bool}
  {row : ρ} {rows rows' : List ρ}

theorem update_eq_ok : update check condition change rows = .ok rows' ↔
    (∀ row ∈ rows, condition row = true → check (change row) = true) ∧
      rows.map (patch condition change) = rows' := by
  have hall : (rows.all fun row => !condition row || check (change row)) = true ↔
      ∀ row ∈ rows, condition row = true → check (change row) = true := by
    rw [all_eq_true]
    refine forall₂_congr fun row _ => ?_
    cases condition row <;> simp
  unfold update
  split
  · next h =>
    simp only [Except.ok.injEq]
    exact ⟨fun heq => ⟨hall.mp h, heq⟩, fun h' => h'.2⟩
  · next h =>
    simp only [reduceCtorEq, false_iff, not_and]
    exact fun h' => absurd (hall.mpr h') h

theorem insert_eq_ok : insert check clash row rows = .ok rows' ↔
    check row = true ∧ (∀ old ∈ rows, clash row old = false) ∧ rows ++ [row] = rows' := by
  unfold insert
  by_cases hck : check row = true
  · by_cases hclash : rows.any (clash row) = true
    · have : ¬ ∀ old ∈ rows, clash row old = false := by
        obtain ⟨old, hold, h⟩ := any_eq_true.mp hclash
        exact fun hall => by simp [hall old hold] at h
      simp [hck, hclash, this]
    · have hfree : ∀ old ∈ rows, clash row old = false := fun old hold =>
        Bool.eq_false_iff.mpr fun h => hclash (any_eq_true.mpr ⟨old, hold, h⟩)
      simp only [hck, hclash, Bool.not_true, Bool.false_eq_true, if_false, true_and,
        Except.ok.injEq]
      exact ⟨fun h => ⟨hfree, h⟩, fun h => h.2⟩
  · simp [hck]

theorem getElem?_concat_eq_some {row' : ρ} {i : Nat} :
    (rows ++ [row])[i]? = some row' ↔ rows[i]? = some row' ∨ i = rows.length ∧ row = row' := by
  grind

theorem key_patch (key : ρ → κ) (hkey : ∀ row, key (change row) = key row) (row : ρ) :
    key (patch condition change row) = key row := by
  unfold patch
  split
  · exact hkey row
  · rfl

theorem forall_patched {P : ρ → Prop} (hnew : ∀ row ∈ rows, condition row = true → P (change row))
    (hold : ∀ row ∈ rows, condition row = false → P row) :
    ∀ row ∈ rows.map (patch condition change), P row := by
  refine forall_mem_map.mpr fun row hrow => ?_
  unfold patch
  split
  · next hcond => exact hnew row hrow hcond
  · next hcond => exact hold row hrow (Bool.eq_false_iff.mpr hcond)

theorem checked_update (hchk : ∀ row ∈ rows, check row = true)
    (h : update check condition change rows = .ok rows') : ∀ row ∈ rows', check row = true := by
  obtain ⟨hnew, rfl⟩ := update_eq_ok.mp h
  exact forall_patched hnew fun row hrow _ => hchk row hrow

end Statements

/-! ## 2. What updates can do to a table -/

/-- Every row is replaced by one that `R` relates it to. -/
def Mapped (R : ρ → ρ → Prop) (rows rows' : List ρ) : Prop :=
  ∃ f : ρ → ρ, (∀ row, R row (f row)) ∧ rows' = rows.map f

namespace Mapped

variable {R : ρ → ρ → Prop} {rows rows' rows'' : List ρ}

theorem refl (hR : ∀ row, R row row) (rows : List ρ) : Mapped R rows rows :=
  ⟨id, hR, (map_id rows).symm⟩

theorem trans (hR : ∀ {a b c}, R a b → R b c → R a c) (h : Mapped R rows rows')
    (h' : Mapped R rows' rows'') : Mapped R rows rows'' := by
  obtain ⟨f, hf, rfl⟩ := h
  obtain ⟨g, hg, rfl⟩ := h'
  exact ⟨g ∘ f, fun row => hR (hf row) (hg (f row)), by rw [map_map]⟩

theorem of_update {check condition : ρ → Bool} {change : ρ → ρ} (hR : ∀ row, R row row)
    (hch : ∀ row, condition row = true → R row (change row))
    (h : update check condition change rows = .ok rows') : Mapped R rows rows' := by
  refine ⟨patch condition change, fun row => ?_, (update_eq_ok.mp h).2.symm⟩
  unfold patch
  split
  · next hc => exact hch row hc
  · exact hR row

theorem from_mem (h : Mapped R rows rows') {row' : ρ} (hrow : row' ∈ rows') :
    ∃ row ∈ rows, R row row' := by
  obtain ⟨f, hf, rfl⟩ := h
  obtain ⟨row, hmem, rfl⟩ := mem_map.mp hrow
  exact ⟨row, hmem, hf row⟩

theorem to_mem (h : Mapped R rows rows') {row : ρ} (hrow : row ∈ rows) :
    ∃ row' ∈ rows', R row row' := by
  obtain ⟨f, hf, rfl⟩ := h
  exact ⟨f row, mem_map_of_mem hrow, hf row⟩

theorem map_eq (key : ρ → κ) (hkey : ∀ a b, R a b → key b = key a) (h : Mapped R rows rows') :
    rows'.map key = rows.map key := by
  obtain ⟨f, hf, rfl⟩ := h
  rw [map_map]
  exact map_congr_left fun row _ => hkey row (f row) (hf row)

/-- Selecting rows by what `R` keeps commutes with the change. -/
theorem filter (p : ρ → Bool) (hp : ∀ a b, R a b → p b = p a) (h : Mapped R rows rows') :
    Mapped R (rows.filter p) (rows'.filter p) := by
  obtain ⟨f, hf, rfl⟩ := h
  refine ⟨f, hf, ?_⟩
  rw [filter_map]
  exact congrArg _ (filter_congr fun row _ => hp row (f row) (hf row))

end Mapped

/-! ## 3. Rows with a key -/

section Keys

variable {key : ρ → κ} {rows : List ρ} {row : ρ}

section

variable (hkeys : (rows.map key).Nodup)

include hkeys

theorem eq_of_key {a b : ρ} (ha : a ∈ rows) (hb : b ∈ rows)
    (h : key a = key b) : a = b := inj_on_of_nodup_map hkeys ha hb h

theorem nodup_append (hnew : ∀ old ∈ rows, key old ≠ key row) :
    ((rows ++ [row]).map key).Nodup := by
  rw [List.map_append, List.nodup_append]
  refine ⟨hkeys, List.nodup_singleton _, fun k hk k' hk' => ?_⟩
  obtain ⟨old, hold, rfl⟩ := List.mem_map.mp hk
  rw [List.mem_singleton.mp hk']
  exact hnew old hold

theorem nodup_filter (p : ρ → Bool) :
    ((rows.filter p).map key).Nodup :=
  hkeys.sublist (List.Sublist.map key filter_sublist)

end

variable [DecidableEq κ]

theorem find_key (hkeys : (rows.map key).Nodup) (hrow : row ∈ rows) :
    rows.find? (fun r => key r = key row) = some row := by
  obtain ⟨found, hfd⟩ : ∃ found, rows.find? (fun r => key r = key row) = some found :=
    Option.isSome_iff_exists.mp (List.find?_isSome.mpr ⟨row, hrow, by simp⟩)
  have hkey : key found = key row := by simpa using List.find?_some hfd
  rw [hfd, eq_of_key hkeys (mem_of_find?_eq_some hfd) hrow hkey]

end Keys

end Omnius.Lib.Rows
