/-
# The display filename of an upload

`NormalizedFilename::normalize` keeps the last component of a path, drops control and bidirectional
formatting characters, collapses whitespace, cuts the name at 180 bytes between two characters and
strips what trails.  A stored name is read back through `parse`, which accepts only what `normalize`
leaves as it is.

* `Normal` -- what a filename promises to whoever shows it;
* `collapse_smooth` -- the loop builds nothing else;
* `normalize_of_normal` -- a name in normal form is left as it is;
* `filename_stays_readable` -- so every name that was stored is read back.

Translated from `crates/upload-workflow/src/types.rs`.
-/
import Mathlib.Data.List.Chain
import Omnius.Lib.Text
import Omnius.Uploads.Store

namespace Omnius.Uploads

open List
open Omnius.Lib.Text (bytes bytes_append bytes_cons isControl isWhitespace trim)

/-! ## 1. Normalization -/

def maxFilenameBytes : Nat := 180

/-- The embeddings, overrides and isolates that reorder what is shown. -/
def isBidi (c : Char) : Bool :=
  (0x202a ≤ c.toNat && c.toNat ≤ 0x202e) || (0x2066 ≤ c.toNat && c.toNat ≤ 0x2069)

def isSeparator (c : Char) : Bool := c = '/' || c = '\\'

/-- What a name may not end in. -/
def isTrailing (c : Char) : Bool := c = ' ' || c = '.'

/-- The loop over the characters of the trimmed component. -/
def collapse (normalized : List Char) (pendingSpace : Bool) : List Char → List Char
  | [] => normalized
  | c :: rest =>
    if isControl c || isBidi c then collapse normalized pendingSpace rest
    else if isWhitespace c then collapse normalized (!normalized.isEmpty) rest
    else
      let normalized := if pendingSpace && bytes normalized < maxFilenameBytes then
        normalized ++ [' '] else normalized
      if maxFilenameBytes < bytes normalized + c.utf8Size then normalized
      else collapse (normalized ++ [c]) false rest

/-- The field is private: only `normalize` and `parse` make one. -/
structure NormalizedFilename where
  value : List Char
deriving DecidableEq

namespace NormalizedFilename

def normalize (value : List Char) : Except UploadError NormalizedFilename :=
  let basename := value.rtakeWhile (!isSeparator ·)
  let normalized := (collapse [] false (trim basename)).rdropWhile isTrailing
  if normalized = [] ∨ normalized = ['.'] ∨ normalized = ['.', '.'] then .error .invalid
  else .ok ⟨normalized⟩

def parse (value : List Char) : Except UploadError NormalizedFilename := do
  let normalized ← normalize value
  if normalized.value = value then .ok normalized else .error .invalid

end NormalizedFilename

/-- `decode_upload`: the name between the columns that are read before it and behind it. -/
def decodeUpload {α β υ : Type} (before : Except UploadError α) (filename : List Char)
    (behind : Except UploadError β) (upload : α → NormalizedFilename → β → υ) :
    Except UploadError υ := do
  let a ← before
  let filename ← NormalizedFilename.parse filename
  let b ← behind
  return upload a filename b

/-! ## 2. Names in normal form -/

/-- A character that a name may hold. -/
structure Plain (c : Char) : Prop where
  separator : isSeparator c = false
  control : isControl c = false
  bidi : isBidi c = false
  space : isWhitespace c = true → c = ' '

/-- What holds while a name is built: plain characters, single spaces, none in front. -/
structure Smooth (name : List Char) : Prop where
  plain : ∀ c ∈ name, Plain c
  single : name.IsChain fun a b => a = ' ' → b ≠ ' '
  front : name.head? ≠ some ' '
  bounded : bytes name ≤ maxFilenameBytes

structure Normal (name : List Char) : Prop extends Smooth name where
  nonempty : 1 ≤ bytes name
  ending : ∀ c, name.getLast? = some c → isTrailing c = false

variable {name rest text : List Char} {c : Char} {pending : Bool}

theorem plain_space : Plain ' ' := by constructor <;> decide

theorem Smooth.prefix_ (h : Smooth (name ++ rest)) : Smooth name where
  plain c hc := h.plain c (mem_append_left _ hc)
  single := h.single.left_of_append
  front hspace := h.front (by simp [head?_append, hspace])
  bounded := Nat.le_trans (by simp) h.bounded

theorem Smooth.push (h : Smooth name) (hc : Plain c) (hspace : c = ' ' → name ≠ [])
    (hlast : name.getLast? = some ' ' → c ≠ ' ')
    (hfits : bytes name + c.utf8Size ≤ maxFilenameBytes) : Smooth (name ++ [c]) where
  plain := by
    simp only [mem_append, mem_singleton]
    rintro d (hd | rfl)
    · exact h.plain d hd
    · exact hc
  single := by
    refine isChain_append.mpr ⟨h.single, .singleton _, ?_⟩
    rintro a ha b ⟨⟩ rfl
    exact hlast ha
  front := by
    cases name with
    | nil => simpa using fun heq => hspace heq rfl
    | cons d name => exact h.front
  bounded := by simpa using hfits

/-- **The loop builds nothing else.**  In front of each step the name does not end in a space, so a
pending one is the only one there. -/
theorem collapse_smooth (h : Smooth name) (hlast : name.getLast? ≠ some ' ')
    (hpending : pending = true → name ≠ []) (htext : ∀ c ∈ text, isSeparator c = false) :
    Smooth (collapse name pending text) := by
  induction text generalizing name pending with
  | nil => exact h
  | cons c rest ih =>
    obtain ⟨hsep, hrest⟩ := forall_mem_cons.mp htext
    simp only [collapse]
    split_ifs with hdropped hwhite hspace hcut hcut
    · exact ih h hlast hpending hrest
    · exact ih h hlast (by simp) hrest
    all_goals
      simp only [Bool.or_eq_true, not_or, Bool.not_eq_true] at hdropped
      simp only [Bool.and_eq_true, decide_eq_true_eq] at hspace hcut
      have hc : Plain c := ⟨hsep, hdropped.1, hdropped.2, fun hw => absurd hw hwhite⟩
      have hne : c ≠ ' ' := by rintro rfl; exact hwhite (by decide)
    · exact h.push plain_space (fun _ => hpending hspace.1) (fun hl => absurd hl hlast) hspace.2
    · have hspaced : Smooth (name ++ [' ']) :=
        h.push plain_space (fun _ => hpending hspace.1) (fun hl => absurd hl hlast) hspace.2
      exact ih (hspaced.push hc (absurd · hne) (fun _ => hne) (by omega)) (by simpa using hne) nofun
        hrest
    · exact h
    · exact ih (h.push hc (absurd · hne) (fun _ => hne) (by omega)) (by simpa using hne) nofun hrest

/-- What stands pending in front of the next character. -/
def spacing (pending : Bool) : List Char := if pending then [' '] else []

/-- **The loop copies what is smooth.** -/
theorem collapse_copies (h : Smooth (name ++ (spacing pending ++ text)))
    (hlast : (name ++ (spacing pending ++ text)).getLast? ≠ some ' ') :
    collapse name pending text = name ++ (spacing pending ++ text) := by
  induction text generalizing name pending with
  | nil => cases pending <;> simp_all [spacing, collapse]
  | cons c rest ih =>
    have hc := h.plain c (by simp)
    by_cases hspace : c = ' '
    · subst hspace
      cases pending with
      | true => simpa [spacing] using h.single.right_of_append
      | false =>
        have hne : name ≠ [] := by rintro rfl; exact h.front rfl
        rw [collapse, hc.control, hc.bidi, if_neg (by simp), if_pos (by decide),
          show (!name.isEmpty) = true by simpa using hne]
        exact ih h hlast
    · have hwhite : isWhitespace c = false := Bool.eq_false_iff.mpr fun hw => hspace (hc.space hw)
      have hfits := h.bounded
      simp only [bytes_append, bytes_cons] at hfits
      have hnext : (if (pending && bytes name < maxFilenameBytes) = true then name ++ [' ']
          else name) = name ++ spacing pending := by
        cases pending with
        | true =>
          have hone : bytes (spacing true) = 1 := by decide
          exact if_pos (by simp only [Bool.true_and, decide_eq_true_eq]; omega)
        | false => exact (append_nil name).symm
      simp only [collapse, hc.control, hc.bidi, hwhite, hnext]
      rw [if_neg (by simp), if_neg (by simp), if_neg (by simp; omega)]
      rw [ih (by simpa [spacing] using h) (by simpa [spacing] using hlast)]
      simp [spacing]

namespace NormalizedFilename

variable {value : List Char} {filename : NormalizedFilename}

theorem normal_of_normalize (h : normalize value = .ok filename) : Normal filename.value := by
  simp only [normalize] at h
  split at h
  · cases h
  rename_i hne
  cases h
  have hne := mt Or.inl hne
  have hsmooth : Smooth (collapse [] false (trim (value.rtakeWhile (!isSeparator ·)))) := by
    refine collapse_smooth ⟨nofun, .nil, nofun, by decide⟩ nofun nofun fun c hc => ?_
    have hmem := (dropWhile_sublist _).mem (( rdropWhile_prefix _ _).mem hc)
    simpa using mem_rtakeWhile_imp hmem
  obtain ⟨cut, hcut⟩ := rdropWhile_prefix isTrailing
    (collapse [] false (trim (value.rtakeWhile (!isSeparator ·))))
  rw [← hcut] at hsmooth
  refine ⟨hsmooth.prefix_, ?_, fun c hc => ?_⟩
  · obtain ⟨c, rest, hcons⟩ := exists_cons_of_ne_nil hne
    have := c.utf8Size_pos
    rw [hcons, bytes_cons]
    omega
  · rw [getLast?_eq_some_getLast hne, Option.some_inj] at hc
    rw [← hc]
    exact Bool.eq_false_iff.mpr (rdropWhile_last_not _ _ hne)

/-- **A name in normal form is left as it is.** -/
theorem normalize_of_normal (h : Normal name) : normalize name = .ok ⟨name⟩ := by
  have hne : name ≠ [] := by rintro rfl; exact absurd h.nonempty (by decide)
  have hlast := getLast?_eq_some_getLast hne
  have hbase : name.rtakeWhile (!isSeparator ·) = name :=
    rtakeWhile_eq_self_iff.mpr fun c hc => by simp [(h.plain c hc).separator]
  have hend : name.rdropWhile isTrailing = name :=
    rdropWhile_eq_self_iff.mpr fun _ => Bool.eq_false_iff.mp (h.ending _ hlast)
  have hspace : name.getLast? ≠ some ' ' := fun heq => absurd (h.ending _ heq) (by decide)
  have htrim : trim name = name := by
    have hback : name.rdropWhile isWhitespace = name := rdropWhile_eq_self_iff.mpr fun _ hw =>
      hspace (by rw [hlast, (h.plain _ (getLast_mem hne)).space hw])
    have hfront : name.dropWhile isWhitespace = name := dropWhile_eq_self_iff.mpr fun hpos hw =>
      h.front (by rw [head?_eq_getElem?, getElem?_eq_getElem hpos,
        (h.plain _ (getElem_mem hpos)).space hw])
    rw [trim, hfront, hback]
  have hloop : collapse [] false name = name := collapse_copies h.toSmooth hspace
  simp only [normalize, hbase, htrim, hloop, hend]
  refine if_neg ?_
  rintro (rfl | rfl | rfl)
  · exact hne rfl
  all_goals exact absurd (h.ending '.' rfl) (by decide)

/-- **Filenames stay readable.**  What normalization returns is in normal form, and normalizing or
parsing it gives it back, so that the filename never stops a stored upload from being decoded. -/
theorem filename_stays_readable (h : normalize value = .ok filename) :
    Normal filename.value ∧ normalize filename.value = .ok filename ∧
    parse filename.value = .ok filename ∧
    ∀ {α β υ : Type} (before : Except UploadError α) (behind : Except UploadError β)
      (upload : α → NormalizedFilename → β → υ),
      decodeUpload before filename.value behind upload =
        before >>= fun a => behind >>= fun b => .ok (upload a filename b) := by
  have hnormal := normal_of_normalize h
  have hagain := normalize_of_normal hnormal
  have hparse : parse filename.value = .ok filename := by
    rw [parse, hagain]
    exact if_pos rfl
  refine ⟨hnormal, hagain, hparse, fun before behind upload => ?_⟩
  rw [decodeUpload, hparse]
  rfl

theorem filename_stays_readable_report :
    normalize "tmp/ Q1\u2028\t plan. ".toList = .ok ⟨"Q1 plan".toList⟩ ∧
    parse "Q1 plan".toList = .ok ⟨"Q1 plan".toList⟩ := by
  have h : normalize "tmp/ Q1\u2028\t plan. ".toList = .ok ⟨"Q1 plan".toList⟩ := rfl
  exact ⟨h, (filename_stays_readable h).2.2.1⟩

end NormalizedFilename

end Omnius.Uploads
