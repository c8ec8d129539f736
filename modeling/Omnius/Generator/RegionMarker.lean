/-
# A rebuilt opening marker reads back

Reconciling a region rebuilds its opening marker from the pieces of the old one: the comment prefix,
the identifier, the version and the comment suffix are kept, the hash is new, and the fields stand
in a fixed order with single blanks between them.  The grammar the marker is read with is lenient
(three comment styles, fields in any order, blanks, a comment closer, doc comments exempt), and the
prefix and suffix were cut out of a line by it, so that the new line reads back with the SAME pieces
is a fact about the grammar: `parseMarker_rebuilt`.

What it rests on: a valid prefix is whitespace around a comment opener, so it holds no `o` and the
first occurrence of the token is right behind it; and a suffix is blanks around at most one comment
closer, so trimming the new line, whose payload ends with a hexadecimal digit, stops at the payload.
-/
import Omnius.Generator.Region

namespace Omnius.Generator

open Omnius.Lib List
open Omnius.Lib.Text (isWhitespace mem_trim trim)
open Bool (and_eq_true eq_false_iff false_eq_true or_eq_true)

variable {c : Char} {text linePrefix lineSuffix id hash : Text}

/-! ## 1. Prefixes -/

theorem not_mem_o_of_validPrefix (h : validPrefix linePrefix = true) : 'o' ∉ linePrefix := by
  intro hmem
  rcases mem_trim hmem with hspace | htrim
  · revert hspace
    decide
  · simp only [validPrefix, or_eq_true, decide_eq_true_eq] at h
    rcases h with (h | h) | h <;> rw [h] at htrim <;> revert htrim <;> decide

theorem not_blank_prefix (h : validPrefix linePrefix = true) :
    linePrefix.dropWhile isBlank ≠ [] := by
  intro hnil
  have hblank : ∀ c ∈ linePrefix, isBlank c = true := dropWhile_eq_nil_iff.mp hnil
  have hspace : ∀ c ∈ linePrefix, isWhitespace c = true := by
    intro c hc
    have hb := hblank c hc
    simp only [isBlank, or_eq_true, decide_eq_true_eq] at hb
    rcases hb with rfl | rfl <;> decide
  have htrim : trim linePrefix = [] := by
    rw [trim, dropWhile_eq_nil_iff.mpr hspace, rdropWhile_nil]
  rw [validPrefix, htrim] at h
  revert h
  decide

variable {before after : Text}

/-- A pattern that does not contain `c` cannot reach behind it. -/
theorem prefix_before {pattern : Text} (h : c ∉ pattern) :
    pattern <+: before ++ c :: after ↔ pattern <+: before := by
  constructor
  · rintro ⟨tail, htail⟩
    rcases append_eq_append_iff.mp htail with ⟨rest, hbef, -⟩ | ⟨rest, hpattern, hrest⟩
    · exact ⟨rest, hbef.symm⟩
    cases rest with
    | nil => exact ⟨[], by rw [hpattern]; simp⟩
    | cons d rest =>
      obtain ⟨rfl, -⟩ := List.cons.inj hrest
      exact absurd (hpattern ▸ by simp) h
  · exact fun hp => hp.trans (prefix_append _ _)

/-! ## 2. Suffixes -/

/-- Blanks, around at most one comment closer. -/
inductive ClosesComment : Text → Prop
  | blank {ws : Text} : (∀ c ∈ ws, isBlank c = true) → ClosesComment ws
  | closer {ws ws' : Text} : (∀ c ∈ ws, isBlank c = true) → (∀ c ∈ ws', isBlank c = true) →
      ClosesComment (ws ++ "-->".toList ++ ws')

theorem rdropWhile_split (p : Char → Bool) (text : Text) :
    ∃ ws, text = text.rdropWhile p ++ ws ∧ ∀ c ∈ ws, p c = true :=
  ⟨text.rtakeWhile p, rdropWhile_append_rtakeWhile.symm, fun _ hc => mem_rtakeWhile_imp hc⟩

variable {p : Char → Bool} {payload : Text}

theorem rdropWhile_append_of_all {ws : Text} (h : ∀ c ∈ ws, p c = true) :
    (text ++ ws).rdropWhile p = text.rdropWhile p := by
  induction ws using List.reverseRecOn with
  | nil => rw [append_nil]
  | append_singleton ws c ih =>
    rw [← append_assoc, rdropWhile_concat_pos _ _ _ (h c (by simp))]
    exact ih fun d hd => h d (by simp [hd])

theorem rdropWhile_of_getLast (h : text.getLast? = some c) (hc : p c = false) :
    text.rdropWhile p = text := by
  obtain ⟨init, rfl⟩ := List.getLast?_eq_some_iff.mp h
  exact rdropWhile_concat_neg _ _ _ (by simp [hc])

theorem take_closer (body : Text) :
    (body ++ "-->".toList).take ((body ++ "-->".toList).length - 3) = body := by
  simp

theorem splitCommentSuffix_spec (value : Text) :
    value = (splitCommentSuffix value).1 ++ (splitCommentSuffix value).2 ∧
      ClosesComment (splitCommentSuffix value).2 := by
  rcases h : splitCommentSuffix value with ⟨payload, lineSuffix⟩
  obtain ⟨ws', hvl, hws'⟩ := rdropWhile_split isBlank value
  unfold splitCommentSuffix at h
  simp only at h
  split at h
  · next hcloser =>
    obtain ⟨body, hbody⟩ := isSuffixOf_iff_suffix.mp hcloser
    obtain ⟨ws, hinner, hws⟩ := rdropWhile_split isBlank body
    rw [← hbody, take_closer] at h
    obtain ⟨rfl, rfl⟩ := Prod.mk.inj h
    have hall : value = body.rdropWhile isBlank ++ (ws ++ "-->".toList ++ ws') := by
      conv_lhs => rw [hvl, ← hbody, hinner]
      simp
    have hdrop : value.drop (body.rdropWhile isBlank).length = ws ++ "-->".toList ++ ws' := by
      conv_lhs => rw [hall]
      simp
    rw [hdrop]
    exact ⟨hall, .closer hws hws'⟩
  · obtain ⟨rfl, rfl⟩ := Prod.mk.inj h
    have hdrop : value.drop (value.rdropWhile isBlank).length = ws' := by
      conv_lhs => rw [hvl]
      rw [rdropWhile_append_of_all hws', rdropWhile_idempotent, drop_left]
    rw [hdrop]
    exact ⟨hvl, .blank hws'⟩

/-- A payload that ends with neither a blank nor a closer is found again. -/
theorem splitCommentSuffix_append (hlast : payload.getLast? = some c) (hblank : isBlank c = false)
    (hcloser : c ≠ '>') (h : ClosesComment lineSuffix) :
    splitCommentSuffix (payload ++ lineSuffix) = (payload, lineSuffix) := by
  cases h with
  | blank hws =>
    have htrim : (payload ++ lineSuffix).rdropWhile isBlank = payload := by
      rw [rdropWhile_append_of_all hws, rdropWhile_of_getLast hlast hblank]
    have hnot : "-->".toList.isSuffixOf payload = false := by
      rw [eq_false_iff]
      intro hsuffix
      obtain ⟨body, hbody⟩ := isSuffixOf_iff_suffix.mp hsuffix
      rw [← hbody] at hlast
      simp at hlast
      exact hcloser hlast.symm
    simp only [splitCommentSuffix, htrim, hnot, false_eq_true, if_false, drop_left]
  | @closer ws ws' hws hws' =>
    have htrim : (payload ++ (ws ++ "-->".toList ++ ws')).rdropWhile isBlank =
        payload ++ ws ++ "-->".toList := by
      rw [← append_assoc, rdropWhile_append_of_all hws', ← append_assoc]
      exact rdropWhile_of_getLast (c := '>') (by simp) (by decide)
    have hsuffix : "-->".toList.isSuffixOf (payload ++ ws ++ "-->".toList) = true :=
      isSuffixOf_iff_suffix.mpr (suffix_append _ _)
    have hinner : (payload ++ ws).rdropWhile isBlank = payload := by
      rw [rdropWhile_append_of_all hws, rdropWhile_of_getLast hlast hblank]
    simp only [splitCommentSuffix, htrim, hsuffix, if_true, take_closer, hinner, drop_left]

/-! ## 3. Fields -/

/-- The payload that reconciliation writes. -/
def rebuiltPayload (id hash : Text) : Text :=
  beginToken ++ " id=".toList ++ id ++ " version=".toList ++ "1".toList ++ " hash=".toList ++ hash

theorem not_space_of_idChar (h : isIdChar c = true) : isAsciiWhitespace c = false := by
  rw [eq_false_iff]
  intro hspace
  simp only [isAsciiWhitespace, or_eq_true, decide_eq_true_eq] at hspace
  rcases hspace with (((rfl | rfl) | rfl) | hff) | rfl
  · revert h; decide
  · revert h; decide
  · revert h; decide
  · obtain rfl : c = Char.ofNat 0x0c := by rw [← hff, Char.ofNat_toNat]
    revert h; decide
  · revert h; decide

theorem idChar_of_hexChar (h : isHexChar c = true) : isIdChar c = true := by
  simp only [isHexChar, or_eq_true, and_eq_true, decide_eq_true_eq] at h
  simp only [isIdChar, Char.isAlphanum, or_eq_true]
  rcases h with hdigit | ⟨hlow, hhigh⟩
  · exact .inl (.inl (.inl (.inr hdigit)))
  · have hlower : c.isLower = true :=
      (and_eq_true _ _).mpr ⟨decide_eq_true hlow, decide_eq_true (Char.le_trans hhigh (by decide))⟩
    exact .inl (.inl (.inl (.inl ((or_eq_true _ _).mpr (.inr hlower)))))

theorem forall_mem_of_all {P : Char → Prop} [DecidablePred P]
    (h : text.all (fun c => decide (P c)) = true) : ∀ c ∈ text, P c :=
  fun c hc => of_decide_eq_true (all_eq_true.mp h c hc)

theorem splitAsciiWhitespace_rebuilt (hid : id.all isIdChar = true)
    (hhash : hash.all isHexChar = true) : splitAsciiWhitespace (rebuiltPayload id hash) =
      [beginToken, "id=".toList ++ id, "version=1".toList, "hash=".toList ++ hash] := by
  have hfield : ∀ {key value : Text}, (∀ c ∈ key, isAsciiWhitespace c = false) →
      (∀ c ∈ value, isIdChar c = true) → ∀ c ∈ key ++ value, isAsciiWhitespace c = false :=
    fun hkey hvl =>
      forall_mem_append.mpr ⟨hkey, fun c hc => not_space_of_idChar (hvl c hc)⟩
  have h1 : ∀ c ∈ beginToken, isAsciiWhitespace c = false :=
    forall_mem_of_all (by decide)
  have h2 : ∀ c ∈ "id=".toList ++ id, isAsciiWhitespace c = false :=
    hfield (forall_mem_of_all (by decide)) (all_eq_true.mp hid)
  have h3 : ∀ c ∈ "version=1".toList, isAsciiWhitespace c = false :=
    forall_mem_of_all (by decide)
  have h4 : ∀ c ∈ "hash=".toList ++ hash, isAsciiWhitespace c = false :=
    hfield (forall_mem_of_all (by decide)) fun c hc =>
      idChar_of_hexChar (all_eq_true.mp hhash c hc)
  have hshape : rebuiltPayload id hash = beginToken ++ ' ' :: (("id=".toList ++ id) ++ ' ' ::
      ("version=1".toList ++ ' ' :: ("hash=".toList ++ hash))) := by
    simp only [rebuiltPayload, append_assoc]
    rfl
  rw [splitAsciiWhitespace, hshape,
    splitOnP_append_cons_of_forall_mem h1 _ (by decide),
    splitOnP_append_cons_of_forall_mem h2 _ (by decide),
    splitOnP_append_cons_of_forall_mem h3 _ (by decide),
    splitOnP_eq_singleton h4]
  refine filter_eq_self.mpr fun field hfield => ?_
  simp only [mem_cons, not_mem_nil, or_false] at hfield
  rcases hfield with rfl | rfl | rfl | rfl
  · decide
  · rfl
  · decide
  · rfl

theorem markerOf_rebuilt (hid : validId id = true) (hhash : validHash hash = true)
    (linePrefix lineSuffix : Text) : markerOf linePrefix (rebuiltPayload id hash) lineSuffix =
      .ok (some (.begins id 1 hash linePrefix lineSuffix)) := by
  have hid' := hid
  have hhash' := hhash
  simp only [validId, and_eq_true, Bool.not_eq_true', decide_eq_true_eq] at hid'
  simp only [validHash, and_eq_true, decide_eq_true_eq] at hhash'
  obtain ⟨⟨hne, -⟩, hall⟩ := hid'
  obtain ⟨hlength, hhex⟩ := hhash'
  have hhashne : hash.isEmpty = false := by
    cases hash with
    | nil => cases hlength
    | cons c rest => rfl
  have hver : parseU32 ['1'] = some 1 := by decide
  simp only [markerOf, splitAsciiWhitespace_rebuilt hall hhex, readFields, readField, splitOnce]
  simp [hne, hhashne, hid, beginMarker, hver, hhash]

/-! ## 4. The whole line -/

/-- What a line that opens a region looks like. -/
structure Opening (line id : Text) (version : Nat) (hash linePrefix lineSuffix : Text) :
    Prop where
  shape : ∃ payload, line = linePrefix ++ payload ++ lineSuffix
  prefix_valid : validPrefix linePrefix = true
  suffix_closes : ClosesComment lineSuffix
  id_valid : validId id = true
  hash_valid : validHash hash = true
  /-- It is not a doc comment. -/
  not_doc : ¬ "///".toList <+: linePrefix.dropWhile isBlank ∧
    ¬ "//!".toList <+: linePrefix.dropWhile isBlank

variable {linePrefix' lineSuffix' line : Text} {version : Nat}

theorem beginMarker_begins {id' : Text} {fields : Fields}
    (h : beginMarker id linePrefix lineSuffix fields =
      .ok (some (.begins id' version hash linePrefix' lineSuffix'))) :
    id' = id ∧ linePrefix' = linePrefix ∧ lineSuffix' = lineSuffix ∧ validHash hash = true := by
  unfold beginMarker at h
  split at h
  · cases h
  split at h
  · cases h
  split at h
  · cases h
  split at h
  · next hval =>
    cases h
    exact ⟨rfl, rfl, rfl, hval⟩
  · cases h

theorem markerOf_begins (h : markerOf linePrefix payload lineSuffix =
      .ok (some (.begins id version hash linePrefix' lineSuffix'))) :
    linePrefix' = linePrefix ∧ lineSuffix' = lineSuffix ∧ validId id = true ∧
      validHash hash = true := by
  unfold markerOf at h
  split at h
  · cases h
  split at h
  · cases h
  split at h
  · cases h
  split at h
  · cases h
  rename_i hid
  split at h
  · obtain ⟨rfl, hp, hs, hhash⟩ := beginMarker_begins h
    exact ⟨hp, hs, by simpa using hid, hhash⟩
  · split at h
    · split at h <;> cases h
    · cases h

theorem beginToken_eq : beginToken = 'o' :: "mnius:managed-begin".toList := by decide

theorem endToken_eq : endToken = 'o' :: "mnius:managed-end".toList := by decide

/-- The token of a marker line begins with an `o`, whichever it is. -/
theorem token_split {k : Nat}
    (h : (Text.find beginToken text).or (Text.find endToken text) = some k) :
    ∃ before after, text = before ++ 'o' :: after ∧ before.length = k := by
  rcases Option.or_eq_some_iff.mp h with hbegin | ⟨-, hend⟩
  · obtain ⟨before, after, htext, hlen⟩ := Text.find_split hbegin
    refine ⟨before, "mnius:managed-begin".toList ++ after, ?_, hlen⟩
    rw [htext, beginToken_eq, append_assoc, cons_append]
  · obtain ⟨before, after, htext, hlen⟩ := Text.find_split hend
    refine ⟨before, "mnius:managed-end".toList ++ after, ?_, hlen⟩
    rw [htext, endToken_eq, append_assoc, cons_append]

theorem take_lead (h : line.dropWhile isBlank = before ++ after) :
    line.take (line.length - (line.dropWhile isBlank).length + before.length) =
      line.takeWhile isBlank ++ before := by
  obtain ⟨lead, hlead⟩ : ∃ lead, lead = line.takeWhile isBlank := ⟨_, rfl⟩
  have hline : line = lead ++ before ++ after := by
    rw [hlead, append_assoc, ← h, takeWhile_append_dropWhile]
  have hlength : line.length - (before ++ after).length + before.length =
      (lead ++ before).length := by
    rw [hline]
    simp only [length_append]
    omega
  rw [h, hlength, ← hlead, hline, take_left]

theorem dropWhile_prefix (h : line.dropWhile isBlank = before ++ after) (hne : before ≠ []) :
    (line.takeWhile isBlank ++ before).dropWhile isBlank = before := by
  have hblank : ∀ c ∈ line.takeWhile isBlank, isBlank c = true :=
    fun c hc => mem_takeWhile_imp hc
  have hstop : (before ++ after).dropWhile isBlank = before ++ after := by
    rw [← h]
    exact dropWhile_idempotent isBlank line
  rw [dropWhile_append, dropWhile_eq_nil_iff.mpr hblank]
  simp only [isEmpty_nil, if_true]
  cases before with
  | nil => exact absurd rfl hne
  | cons c before =>
    rw [cons_append, dropWhile_cons] at hstop
    split at hstop
    · have hlen := congrArg List.length hstop
      have hle := (dropWhile_suffix (l := before ++ after) isBlank).length_le
      simp only [length_cons] at hlen
      omega
    · next hc => rw [dropWhile_cons, if_neg hc]

theorem opening_of_parseMarker
    (h : parseMarker line = .ok (some (.begins id version hash linePrefix lineSuffix))) :
    Opening line id version hash linePrefix lineSuffix := by
  unfold parseMarker at h
  simp only at h
  split at h
  · cases h
  rename_i hdoc
  split at h
  · cases h
  rename_i k hk
  obtain ⟨before, after, htext, rfl⟩ := token_split hk
  split at h
  · split at h <;> cases h
  · next hval =>
    obtain ⟨hp, hs, hid, hhash⟩ := markerOf_begins h
    obtain ⟨hvl, hcloses⟩ := splitCommentSuffix_spec
      (line.drop (line.length - (line.dropWhile isBlank).length + before.length))
    rw [← hs] at hvl hcloses
    rw [← hp] at hval
    have hprefix : validPrefix linePrefix = true := by simpa using hval
    have hlead : linePrefix = line.takeWhile isBlank ++ before := hp.trans (take_lead htext)
    have hdrop : linePrefix.dropWhile isBlank = before := by
      rw [hlead]
      refine dropWhile_prefix htext ?_
      rintro rfl
      apply not_blank_prefix hprefix
      rw [hlead, append_nil]
      exact dropWhile_eq_nil_iff.mpr fun c hc => mem_takeWhile_imp hc
    refine ⟨⟨(splitCommentSuffix (line.drop
      (line.length - (line.dropWhile isBlank).length + before.length))).1, ?_⟩,
      hprefix, hcloses, hid, hhash, ?_⟩
    · rw [append_assoc, ← hvl, hp, take_append_drop]
    · rw [hdrop]
      rw [htext] at hdoc
      simp only [or_eq_true, isPrefixOf_iff_prefix, not_or] at hdoc
      exact ⟨fun hcon => hdoc.1 ((prefix_before (by decide)).mpr hcon),
        fun hcon => hdoc.2 ((prefix_before (by decide)).mpr hcon)⟩

/-- **A rebuilt marker line opens the same region, with the new hash.** -/
theorem parseMarker_rebuilt {hash' : Text} (h : Opening line id version hash linePrefix lineSuffix)
    (hhash : validHash hash' = true) :
    parseMarker (linePrefix ++ rebuiltPayload id hash' ++ lineSuffix) =
      .ok (some (.begins id 1 hash' linePrefix lineSuffix)) := by
  have hne := not_blank_prefix h.prefix_valid
  have htok : ∃ rest, rebuiltPayload id hash' ++ lineSuffix = beginToken ++ rest :=
    ⟨" id=".toList ++ id ++ " version=".toList ++ "1".toList ++ " hash=".toList ++ hash'
      ++ lineSuffix, by simp [rebuiltPayload]⟩
  obtain ⟨rest, hrest⟩ := htok
  have htrm : (linePrefix ++ rebuiltPayload id hash' ++ lineSuffix).dropWhile isBlank =
      linePrefix.dropWhile isBlank ++ beginToken ++ rest := by
    rw [append_assoc, hrest, dropWhile_append]
    have hemp : (linePrefix.dropWhile isBlank).isEmpty = false := by simpa using hne
    simp [hemp]
  have ho : 'o' ∉ linePrefix.dropWhile isBlank := fun hmem =>
    not_mem_o_of_validPrefix h.prefix_valid ((dropWhile_sublist isBlank).subset hmem)
  have hdoc : ∀ pattern : Text, 'o' ∉ pattern → ¬ pattern <+: linePrefix.dropWhile isBlank →
      pattern.isPrefixOf (linePrefix.dropWhile isBlank ++ beginToken ++ rest) = false := by
    intro pattern hpattern hnot
    rw [eq_false_iff, ne_eq, isPrefixOf_iff_prefix]
    have hshape : linePrefix.dropWhile isBlank ++ beginToken ++ rest =
        linePrefix.dropWhile isBlank ++ 'o' :: ("mnius:managed-begin".toList ++ rest) := by
      rw [beginToken_eq, append_assoc, cons_append]
    rw [hshape, prefix_before hpattern]
    exact hnot
  have hfind : Text.find beginToken (linePrefix.dropWhile isBlank ++ beginToken ++ rest) =
      some (linePrefix.dropWhile isBlank).length := Text.find_skip ho
  have hlen : (linePrefix ++ rebuiltPayload id hash' ++ lineSuffix).length -
      (linePrefix.dropWhile isBlank ++ beginToken ++ rest).length +
      (linePrefix.dropWhile isBlank).length = linePrefix.length := by
    have hle := (dropWhile_suffix (l := linePrefix) isBlank).length_le
    rw [append_assoc, hrest]
    simp only [length_append]
    omega
  have hlast : ∃ c, (rebuiltPayload id hash').getLast? = some c ∧ isHexChar c = true := by
    simp only [validHash, and_eq_true, decide_eq_true_eq] at hhash
    rcases eq_nil_or_concat hash' with rfl | ⟨init, c, rfl⟩
    · cases hhash.1
    · refine ⟨c, ?_, all_eq_true.mp hhash.2 c (by simp)⟩
      rw [rebuiltPayload, concat_eq_append, ← append_assoc, List.getLast?_concat]
  obtain ⟨c, hc, hhex⟩ := hlast
  have hspl : splitCommentSuffix (rebuiltPayload id hash' ++ lineSuffix) =
      (rebuiltPayload id hash', lineSuffix) := by
    refine splitCommentSuffix_append hc ?_ ?_ h.suffix_closes
    · rw [eq_false_iff]
      intro hb
      simp only [isBlank, or_eq_true, decide_eq_true_eq] at hb
      rcases hb with rfl | rfl <;> revert hhex <;> decide
    · rintro rfl
      revert hhex
      decide
  unfold parseMarker
  simp only [htrm, hdoc _ (by decide) h.not_doc.1, hdoc _ (by decide) h.not_doc.2,
    Bool.or_self, false_eq_true, if_false, hfind, Option.some_or, hlen]
  rw [append_assoc, take_left, drop_left]
  simp only [h.prefix_valid, Bool.not_true, false_eq_true, if_false, hspl]
  exact markerOf_rebuilt h.id_valid hhash linePrefix lineSuffix

end Omnius.Generator
