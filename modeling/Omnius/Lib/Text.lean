/-
# Text as a list: occurrences, lines and characters

Two operations that programs which edit text in place rest on, over any alphabet, and what the
Unicode tables say of single characters.

* `find` -- the first occurrence of a needle.  What comes before it and after it is the text
  (`find_split`), a text has an occurrence exactly when the needle is an infix (`find_isSome`), and
  what cannot begin the needle can be skipped (`find_skip`).
* `splitInclusive` -- the pieces of a text that end with a separator, the separators kept, so that
  the pieces put together are the text.  Splitting a text AFTER a separator splits its pieces
  (`splitInclusive_append`): replacing whole lines of a text replaces pieces of the split.
* `bytes`, `trim` -- the length of a text in UTF-8, and a text without the white space around it.
-/
import Mathlib.Algebra.BigOperators.Group.List.Basic
import Mathlib.Algebra.Ring.Nat
import Mathlib.Data.List.Infix
import Mathlib.Data.List.DropRight

namespace Omnius.Lib.Text

open List

variable {α : Type*} [DecidableEq α]

/-! ## 1. Occurrences -/

/-- Where the needle first occurs. -/
def find (needle : List α) : List α → Option Nat
  | [] => if needle.isPrefixOf [] then some 0 else none
  | c :: rest =>
    if needle.isPrefixOf (c :: rest) then some 0 else (find needle rest).map (· + 1)

section Find

variable {needle text : List α}

theorem find_split {k : Nat} (h : find needle text = some k) :
    ∃ before after, text = before ++ needle ++ after ∧ before.length = k := by
  have hfst {text : List α} (hp : needle.isPrefixOf text = true) :
      ∃ before after, text = before ++ needle ++ after ∧ before.length = 0 := by
    obtain ⟨after, haft⟩ := isPrefixOf_iff_prefix.mp hp
    exact ⟨[], after, by simpa using haft.symm, rfl⟩
  induction text generalizing k with unfold find at h
  | nil =>
    split at h <;> cases h
    exact hfst ‹_›
  | cons c rest ih =>
    split at h
    · cases h
      exact hfst ‹_›
    · obtain ⟨j, hj, rfl⟩ := Option.map_eq_some_iff.mp h
      obtain ⟨before, after, hrest, hlen⟩ := ih hj
      exact ⟨c :: before, after, by simp [hrest], by simp [hlen]⟩

theorem find_isSome : (find needle text).isSome = true ↔ needle <:+: text := by
  constructor
  · intro h
    obtain ⟨k, hk⟩ := Option.isSome_iff_exists.mp h
    obtain ⟨before, after, htext, -⟩ := find_split hk
    exact ⟨before, after, htext.symm⟩
  · intro h
    induction text with
    | nil =>
      have hnil : needle = [] := infix_nil.mp h
      simp [find, hnil]
    | cons c rest ih =>
      unfold find
      split
      · rfl
      rename_i hp
      rcases infix_cons_iff.mp h with hprefix | hpart
      · exact absurd (List.isPrefixOf_iff_prefix.mpr hprefix) hp
      · simpa using ih hpart

theorem find_eq_none : find needle text = none ↔ ¬ needle <:+: text := by
  rw [← find_isSome]
  simp

theorem find_skip {first : α} {needle before after : List α} (h : first ∉ before) :
    find (first :: needle) (before ++ (first :: needle) ++ after) = some before.length := by
  induction before with
  | nil => simp [find]
  | cons c rest ih =>
    have hc : first ≠ c := fun heq => h (heq ▸ mem_cons_self)
    have hrest : first ∉ rest := fun hmem => h (mem_cons_of_mem _ hmem)
    have ih := ih hrest
    simp only [append_assoc, cons_append] at ih ⊢
    rw [find, if_neg (by simp [hc]), ih]
    rfl

end Find

/-! ## 2. Lines -/

/-- The pieces of a text that end with `sep`, and what is left. -/
def splitInclusive (sep : α) : List α → List (List α)
  | [] => []
  | c :: rest =>
    if c = sep then [c] :: splitInclusive sep rest
    else match splitInclusive sep rest with
      | [] => [[c]]
      | piece :: pieces => (c :: piece) :: pieces

/-- A piece that is complete: one separator, at its end. -/
def Line (sep : α) (piece : List α) : Prop := ∃ body, piece = body ++ [sep] ∧ sep ∉ body

section Lines

variable {sep : α} {text : List α}

theorem flatten_splitInclusive (sep : α) (text : List α) :
    (splitInclusive sep text).flatten = text := by
  induction text with
  | nil => rfl
  | cons c rest ih =>
    unfold splitInclusive
    split
    · simp [ih]
    split
    · next hnil =>
      simp_all
    · next piece pieces hcons =>
      rw [hcons] at ih
      simp only [flatten_cons] at ih ⊢
      rw [cons_append, ih]

variable {piece rest : List α} {pieces : List (List α)}

theorem splitInclusive_line (h : Line sep piece) :
    splitInclusive sep (piece ++ rest) = piece :: splitInclusive sep rest := by
  obtain ⟨body, rfl, hbody⟩ := h
  induction body with
  | nil => simp [splitInclusive]
  | cons c body ih =>
    have hc : c ≠ sep := fun heq => hbody (heq ▸ mem_cons_self)
    have hrest : sep ∉ body := fun hmem => hbody (mem_cons_of_mem _ hmem)
    rw [cons_append, cons_append, splitInclusive, if_neg hc, ih hrest]

theorem line_of_splitInclusive (h : splitInclusive sep text = piece :: pieces) (hne : pieces ≠ []) :
    Line sep piece := by
  induction text generalizing piece pieces with
  | nil => cases h
  | cons c rest ih =>
    unfold splitInclusive at h
    split at h
    · next hc =>
      cases h
      exact ⟨[], by simp [hc], by simp⟩
    · next hc =>
      split at h
      · cases h
        exact absurd rfl hne
      · next first others hfst =>
        cases h
        obtain ⟨body, rfl, hbody⟩ := ih hfst hne
        refine ⟨c :: body, rfl, ?_⟩
        simp only [mem_cons, not_or]
        exact ⟨fun heq => hc heq.symm, hbody⟩

theorem splitInclusive_lines (h : ∀ piece ∈ pieces, Line sep piece) :
    splitInclusive sep (pieces.flatten ++ rest) = pieces ++ splitInclusive sep rest := by
  induction pieces with
  | nil => rfl
  | cons piece pieces ih =>
    rw [flatten_cons, append_assoc, splitInclusive_line (h piece mem_cons_self),
      ih fun p hp => h p (mem_cons_of_mem _ hp), cons_append]

/-- **What stands in front of other pieces is complete lines**, and the rest splits as it did. -/
theorem splitInclusive_append {before after : List (List α)}
    (h : splitInclusive sep text = before ++ after) (hne : after ≠ []) :
    (∀ piece ∈ before, Line sep piece) ∧ splitInclusive sep after.flatten = after := by
  induction before generalizing text with
  | nil =>
    refine ⟨by simp, ?_⟩
    rw [nil_append] at h
    rw [← h, flatten_splitInclusive]
  | cons piece before ih =>
    have hline : Line sep piece := line_of_splitInclusive h (by simp [hne])
    have htext : text = piece ++ (before ++ after).flatten := by
      rw [← flatten_splitInclusive sep text, h, cons_append, flatten_cons]
    have hrest : splitInclusive sep (before ++ after).flatten = before ++ after := by
      rw [htext, splitInclusive_line hline] at h
      exact (List.cons.inj h).2
    obtain ⟨hlines, haft⟩ := ih hrest
    exact ⟨forall_mem_cons.mpr ⟨hline, hlines⟩, haft⟩

theorem lines_of_getLast {text : List α} (h : text = [] ∨ text.getLast? = some sep) :
    ∀ piece ∈ splitInclusive sep text, Line sep piece := by
  induction text with
  | nil => simp [splitInclusive]
  | cons c rest ih =>
    have hlast : (c :: rest).getLast? = some sep := h.resolve_left (by simp)
    unfold splitInclusive
    split
    · next hc =>
      refine forall_mem_cons.mpr ⟨⟨[], by simp [hc], by simp⟩, ih ?_⟩
      · cases rest with
        | nil => exact .inl rfl
        | cons d rest => exact .inr (by simpa using hlast)
    · next hc =>
      have hrest : rest ≠ [] := by
        rintro rfl
        simp at hlast
        exact hc hlast
      have hrest' : rest.getLast? = some sep := by
        cases rest with
        | nil => exact absurd rfl hrest
        | cons d rest => simpa using hlast
      have hlines := ih (.inr hrest')
      split
      · next hnil =>
        have hflat := flatten_splitInclusive sep rest
        rw [hnil] at hflat
        exact absurd hflat.symm hrest
      · next first others hfst =>
        rw [hfst, forall_mem_cons] at hlines
        obtain ⟨⟨body, rfl, hnot⟩, hlines⟩ := hlines
        refine forall_mem_cons.mpr ⟨⟨c :: body, rfl, ?_⟩, hlines⟩
        simp only [mem_cons, not_or]
        exact ⟨fun heq => hc heq.symm, hnot⟩

theorem infix_of_mem_splitInclusive (h : piece ∈ splitInclusive sep text) : piece <:+: text := by
  have hpart := infix_of_mem_flatten h
  rwa [flatten_splitInclusive] at hpart

end Lines

/-! ## 3. Characters -/

/-- The number of bytes of a text in UTF-8. -/
def bytes (text : List Char) : Nat := (text.map Char.utf8Size).sum

@[simp] theorem bytes_nil : bytes [] = 0 := rfl

@[simp] theorem bytes_cons (c : Char) (text : List Char) :
    bytes (c :: text) = c.utf8Size + bytes text := by
  simp [bytes]

@[simp] theorem bytes_append (a b : List Char) : bytes (a ++ b) = bytes a + bytes b := by
  simp [bytes]

/-- The general category `Cc`. -/
def isControl (c : Char) : Bool := c.toNat < 0x20 || (0x7f ≤ c.toNat && c.toNat ≤ 0x9f)

/-- The property `White_Space`. -/
def isWhitespace (c : Char) : Bool :=
  (0x09 ≤ c.toNat && c.toNat ≤ 0x0d) || (0x2000 ≤ c.toNat && c.toNat ≤ 0x200a) ||
    c.toNat ∈ [0x20, 0x85, 0xa0, 0x1680, 0x2028, 0x2029, 0x202f, 0x205f, 0x3000]

/-- The text without the white space at its ends. -/
def trim (text : List Char) : List Char := (text.dropWhile isWhitespace).rdropWhile isWhitespace

/-- Only white space is trimmed away. -/
theorem mem_trim {c : Char} {text : List Char} (h : c ∈ text) :
    isWhitespace c = true ∨ c ∈ trim text := by
  rw [← takeWhile_append_dropWhile (p := isWhitespace) (l := text)] at h
  rcases mem_append.mp h with hlead | hrest
  · exact .inl (mem_takeWhile_imp hlead)
  rw [← rdropWhile_append_rtakeWhile (p := isWhitespace) (l := text.dropWhile isWhitespace)]
    at hrest
  rcases mem_append.mp hrest with hmid | htrail
  · exact .inr hmid
  · exact .inl (mem_rtakeWhile_imp htrail)

end Omnius.Lib.Text
