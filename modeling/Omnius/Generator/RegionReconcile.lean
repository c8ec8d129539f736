/-
# Reconciliation is a local edit that can be undone

`reconcileManagedRegion` rebuilds the opening line of one region and replaces its content.  The
rebuilt line has to parse to the same region under a lenient grammar, and no other line may come to
mean something else.  Both hold: the result parses, to the regions of the source with ONE region's
content and hash exchanged (`reconciled_views`), and only the opening line and the content of that
region differ.

UNDOING the edit asks for the old content to be put back, and the old content is subject to the
check on replacement content.  A region may hold the marker text in a line that is no marker (a doc
comment, a line of code); such content is read, but it is refused as a replacement.  So the edit
can be undone when the old content does not contain the marker text, and
`doc_comment_content_cannot_return` is a region where it does.
-/
import Omnius.Generator.RegionScan
import Mathlib.Data.List.Nodup

namespace Omnius.Generator

open Omnius.Lib RegionParser Text RegionView
open List hiding Vector

variable {id hash : Text} {region : ManagedRegion} {regions : List ManagedRegion}

variable {digest : Text → Vector UInt8 32}

/-! ## 1. Hashes and lines -/

theorem hexChar_hexDigit : ∀ n < 16, isHexChar (hexDigit n) = true := by decide

theorem validHash_sha256Hex (text : Text) : validHash (sha256Hex digest text) = true := by
  have hlen : (sha256Hex digest text).length = 64 := by
    simp [sha256Hex]
  have hall : (sha256Hex digest text).all isHexChar = true := by
    rw [all_eq_true]
    intro c hc
    obtain ⟨byte, -, hc⟩ := mem_flatMap.mp hc
    have hbyte : byte.toNat < 256 := byte.toNat_lt
    rcases mem_pair.mp hc with rfl | rfl
    · exact hexChar_hexDigit _ (by omega)
    · exact hexChar_hexDigit _ (by omega)
  simp [validHash, hlen, hall]

theorem parseMarker_plain {line : Text} (h : ¬ markerText <:+: line) :
    parseMarker line = .ok none := by
  have hrest : ∀ token : Text, markerText <+: token →
      find token (line.dropWhile isBlank) = none := by
    intro token htok
    rw [find_eq_none]
    intro hpart
    exact h (htok.isInfix.trans (hpart.trans (dropWhile_suffix isBlank).isInfix))
  have hbegin : markerText <+: beginToken := by decide
  have hend : markerText <+: endToken := by decide
  simp [parseMarker, hrest _ hbegin, hrest _ hend]

variable {content : Text}

theorem parseMarker_content (h : ¬ markerText <:+: content) :
    ∀ line ∈ splitInclusive '\n' content, parseMarker (lineOf line) = .ok none := by
  intro line hline
  refine parseMarker_plain fun hpart => h ?_
  exact hpart.trans ((List.rdropWhile_prefix isLineEnd line).isInfix.trans
    (infix_of_mem_splitInclusive hline))

variable {lineSuffix segment : Text}

theorem not_lineEnd_of_closes (h : ClosesComment lineSuffix) :
    ∀ c ∈ lineSuffix, isLineEnd c = false := by
  have hblank : ∀ c, isBlank c = true → isLineEnd c = false := by
    intro c hc
    simp only [isBlank, Bool.or_eq_true, decide_eq_true_eq] at hc
    rcases hc with rfl | rfl <;> decide
  cases h with
  | blank hws => exact fun c hc => hblank c (hws c hc)
  | closer hws hws' =>
    simp only [forall_mem_append]
    exact ⟨⟨fun c hc => hblank c (hws c hc), forall_mem_of_all (by decide)⟩,
      fun c hc => hblank c (hws' c hc)⟩

theorem not_lineEnd_of_idChar {c : Char} (h : isIdChar c = true) : isLineEnd c = false := by
  have hspace := not_space_of_idChar h
  simp_all [isAsciiWhitespace, isLineEnd]

theorem not_lineEnd_rebuilt (hid : validId id = true) (hhash : validHash hash = true) :
    ∀ c ∈ rebuiltPayload id hash, isLineEnd c = false := by
  simp only [validId, validHash, Bool.and_eq_true, all_eq_true] at hid hhash
  simp only [rebuiltPayload, forall_mem_append]
  refine ⟨⟨⟨⟨⟨⟨?_, ?_⟩, fun c hc => not_lineEnd_of_idChar (hid.2 c hc)⟩, ?_⟩, ?_⟩, ?_⟩,
    fun c hc => not_lineEnd_of_idChar (idChar_of_hexChar (hhash.2 c hc))⟩
  all_goals exact forall_mem_of_all (by decide)

theorem lineOf_split (h : Line '\n' segment) :
    ∃ ending, segment = lineOf segment ++ (ending ++ ['\n']) ∧ '\n' ∉ ending ∧
      (∀ c ∈ ending, isLineEnd c = true) ∧ '\n' ∉ lineOf segment := by
  obtain ⟨body, rfl, hbody⟩ := h
  obtain ⟨ending, hending, hall⟩ := rdropWhile_split isLineEnd body
  have hline : lineOf (body ++ ['\n']) = body.rdropWhile isLineEnd :=
    rdropWhile_concat_pos _ _ _ (by decide)
  rw [hline]
  refine ⟨ending, ?_, ?_, hall, ?_⟩
  · rw [← append_assoc, ← hending]
  · exact fun hmem => hbody (hending ▸ mem_append_right _ hmem)
  · exact fun hmem => hbody (hending ▸ mem_append_left _ hmem)

/-! ## 2. The cut -/

/-- A source cut at the places of a region. -/
structure Cut (source : Text) (r : ManagedRegion) (before line lineEnd content after : Text) :
    Prop where
  source_eq : source = before ++ (line ++ (lineEnd ++ (content ++ after)))
  line_start : r.beginLineStart = before.length
  line_end : r.beginLineEnd = before.length + line.length
  content_start : r.contentStart = before.length + line.length + lineEnd.length
  content_end : r.contentEnd = before.length + line.length + lineEnd.length + content.length

namespace Cut

variable {source before line lineEnd content after : Text} {r : ManagedRegion}

variable (h : Cut source r before line lineEnd content after)

include h

theorem take_start :
    source.take r.beginLineStart = before := by
  rw [h.line_start, h.source_eq, take_left]

theorem drop_line :
    source.drop r.beginLineEnd = lineEnd ++ (content ++ after) := by
  rw [h.line_end, h.source_eq, ← drop_drop, drop_left, drop_left]

theorem slice_lineEnd :
    slice source r.beginLineEnd r.contentStart = lineEnd := by
  rw [slice, h.drop_line, h.content_start, h.line_end, Nat.add_sub_cancel_left, take_left]

theorem drop_content :
    source.drop r.contentEnd = after := by
  rw [h.content_end, h.source_eq, ← drop_drop, ← drop_drop, ← drop_drop,
    drop_left, drop_left, drop_left, drop_left]

theorem reconciled (newContent : Text) :
    reconciled digest source r newContent =
      before ++ (markerLine r (sha256Hex digest newContent) ++
        (lineEnd ++ (newContent ++ after))) := by
  rw [Generator.reconciled, h.take_start, h.slice_lineEnd, h.drop_content]
  simp

end Cut

/-! ## 3. One edit -/

def RegionView.replaced (id hash content : Text) (v : RegionView) : RegionView :=
  if v.id = id then { v with contentHash := hash, content := content } else v

theorem markerLine_eq (h : region.markerVersion = managedMarkerVersion) (hash : Text) :
    markerLine region hash =
      region.linePrefix ++ rebuiltPayload region.id hash ++ region.lineSuffix := by
  have hone : (toString region.markerVersion).toList = "1".toList := by
    rw [h]
    decide
  rw [markerLine, hone, rebuiltPayload]
  simp

variable {hash' linePrefix first last newContent : Text} {version : Nat} {v : RegionView}
  {lines : List Text}

/-- The rebuilt opening line is a complete line, with nothing of it taken for a line end. -/
theorem rebuilt_line {line ending : Text}
    (hopg : Opening line id version hash linePrefix lineSuffix) (hline : '\n' ∉ line)
    (hending : ∀ c ∈ ending, isLineEnd c = true) (hnewline : '\n' ∉ ending)
    (hhash : validHash hash' = true) :
    Line '\n' (linePrefix ++ rebuiltPayload id hash' ++ lineSuffix ++ (ending ++ ['\n'])) ∧
      lineOf (linePrefix ++ rebuiltPayload id hash' ++ lineSuffix ++ (ending ++ ['\n'])) =
        linePrefix ++ rebuiltPayload id hash' ++ lineSuffix := by
  obtain ⟨payload, hshape⟩ := hopg.shape
  have hpay := not_lineEnd_rebuilt hopg.id_valid hhash
  constructor
  · refine ⟨linePrefix ++ rebuiltPayload id hash' ++ lineSuffix ++ ending,
      by simp, ?_⟩
    rw [hshape] at hline
    simp only [mem_append, not_or] at hline ⊢
    refine ⟨⟨⟨hline.1.1, fun hmem => ?_⟩, hline.2⟩, hnewline⟩
    exact absurd (hpay _ hmem) (by decide)
  · have htail : ∀ c ∈ ending ++ ['\n'], isLineEnd c = true :=
      forall_mem_append.mpr ⟨hending, forall_mem_singleton.mpr (by decide)⟩
    rw [lineOf, rdropWhile_append_of_all htail]
    -- The last character comes from the payload or from the suffix.
    have hne : rebuiltPayload id hash' ++ lineSuffix ≠ [] := by
      rw [rebuiltPayload]
      simp
    obtain ⟨c, hc⟩ : ∃ c, (rebuiltPayload id hash' ++ lineSuffix).getLast? = some c :=
      ⟨_, List.getLast?_eq_some_getLast hne⟩
    refine rdropWhile_of_getLast (c := c) ?_ ?_
    · rw [append_assoc, List.getLast?_append_of_ne_nil _ hne, hc]
    · rcases mem_append.mp (mem_of_getLast? hc) with hmem | hmem
      · exact hpay c hmem
      · exact not_lineEnd_of_closes hopg.suffix_closes c hmem

theorem map_replaced {front back : List RegionView} (h : ((front ++ v :: back).map (·.id)).Nodup) :
    (front ++ v :: back).map (·.replaced v.id hash content) =
      front ++ { v with contentHash := hash, content := content } :: back := by
  simp only [map_append, map_cons, nodup_append, nodup_cons, mem_map, mem_cons] at h
  obtain ⟨-, ⟨hback, -⟩, hfront⟩ := h
  have hsame : ∀ vs : List RegionView, (∀ w ∈ vs, w.id ≠ v.id) →
      vs.map (·.replaced v.id hash content) = vs := by
    intro vs hvs
    conv_rhs => rw [← map_id vs]
    exact map_congr_left fun w hw => if_neg (hvs w hw)
  rw [map_append, map_cons, hsame front, hsame back]
  · simp [replaced]
  · exact fun w hw heq => hback ⟨w, hw, heq⟩
  · exact fun w hw heq => hfront w.id ⟨w, hw, rfl⟩ v.id (.inl rfl) heq

theorem RegionView.content_of_replaced {w : RegionView}
    (h : v.replaced id hash content = w) (hid : w.id = id) : w.content = content := by
  subst h
  unfold replaced at hid ⊢
  split
  · rfl
  rename_i hne
  rw [if_neg hne] at hid
  exact absurd hid hne

theorem openedId_of_opens (h : parseMarker (lineOf segment) =
      .ok (some (.begins id version hash linePrefix lineSuffix))) : openedId segment = some id := by
  rw [openedId, h]

variable {source : Text}

theorem nodup_ids (h : parseManagedRegions digest source = .ok regions) :
    ((regions.map (·.view)).map (·.id)).Nodup := by
  obtain ⟨s, hrun, hop, hviews⟩ := parse_agrees.mp ⟨regions, h, rfl⟩
  have hids := Scan.ids_of_run hrun
  have hnd := hids.nodup
  rw [hids.regions, hop] at hnd
  simpa [hviews] using hnd

theorem region_unique (h : parseManagedRegions digest source = .ok regions)
    {r r' : ManagedRegion} (hr : r ∈ regions) (hr' : r' ∈ regions) (hid : r.id = r'.id) :
    r = r' := by
  have hnd := nodup_ids h
  rw [map_map] at hnd
  exact inj_on_of_nodup_map hnd hr hr' hid

variable {before : List Text} {after : List Text}

theorem RegionAt.cut {lineEnd : Text}
    (hat : RegionAt digest (splitInclusive '\n' source) region before first lines last after)
    (hfst : first = lineOf first ++ lineEnd) :
    Cut source region before.flatten (lineOf first) lineEnd region.content
      (last :: after).flatten := by
  have hlen : first.length = (lineOf first).length + lineEnd.length := by
    rw [← length_append, ← hfst]
  refine ⟨?_, hat.line_start, hat.line_end, ?_, ?_⟩
  · have hsrc := flatten_splitInclusive '\n' source
    rw [hat.done_eq] at hsrc
    rw [← hsrc, hat.content]
    conv_lhs => rw [hfst]
    simp
  · rw [hat.content_start, hlen, Nat.add_assoc]
  · rw [hat.content_end, hat.content]
    omega

/-- Text that may be put into a region: complete lines, without the marker text. -/
structure Replacement (content : Text) : Prop where
  complete : content = [] ∨ content.getLast? = some '\n'
  plain : ¬ markerText <:+: content

theorem RegionAt.segments_reconciled {lineEnd : Text}
    (hat : RegionAt digest (splitInclusive '\n' source) region before first lines last after)
    (hfst : first = lineOf first ++ lineEnd) (hnew : Replacement newContent)
    (hline : Line '\n' (markerLine region (sha256Hex digest newContent) ++ lineEnd)) :
    splitInclusive '\n' (reconciled digest source region newContent) =
      before ++ (markerLine region (sha256Hex digest newContent) ++ lineEnd) ::
        (splitInclusive '\n' newContent ++ last :: after) := by
  have hsegs : splitInclusive '\n' source = (before ++ first :: lines) ++ last :: after := by
    rw [hat.done_eq, append_assoc, cons_append]
  obtain ⟨hcom, haft⟩ := splitInclusive_append hsegs (by simp)
  have hpieces : ∀ piece ∈ before ++ (markerLine region (sha256Hex digest newContent) ++
      lineEnd) :: splitInclusive '\n' newContent, Line '\n' piece := by
    refine forall_mem_append.mpr ⟨fun piece hpiece => hcom piece (by simp [hpiece]), ?_⟩
    exact forall_mem_cons.mpr ⟨hline, lines_of_getLast hnew.complete⟩
  have htext : reconciled digest source region newContent =
      (before ++ (markerLine region (sha256Hex digest newContent) ++ lineEnd) ::
        splitInclusive '\n' newContent).flatten ++ (last :: after).flatten := by
    simp [(hat.cut hfst).reconciled, flatten_splitInclusive]
  rw [htext, splitInclusive_lines hpieces, haft]
  simp

theorem RegionAt.complete
    (hat : RegionAt digest (splitInclusive '\n' source) region before first lines last after) :
    Line '\n' first ∧ (region.content = [] ∨ region.content.getLast? = some '\n') := by
  have hsegs : splitInclusive '\n' source = (before ++ first :: lines) ++ last :: after := by
    rw [hat.done_eq, append_assoc, cons_append]
  obtain ⟨hcom, -⟩ := splitInclusive_append hsegs (by simp)
  refine ⟨hcom first (by simp), ?_⟩
  rw [hat.content]
  rcases eq_nil_or_concat lines with rfl | ⟨init, line, rfl⟩
  · exact .inl rfl
  · obtain ⟨body, hbody, -⟩ := hcom line (by simp)
    refine .inr ?_
    simp [hbody]

theorem content_of_parse (hpar : parseManagedRegions digest source = .ok regions)
    (hreg : region ∈ regions) : (region.content = [] ∨ region.content.getLast? = some '\n') ∧
      region.contentHash = sha256Hex digest region.content := by
  obtain ⟨before, first, lines, last, after, hat⟩ := located_of_parse hpar hreg
  exact ⟨hat.complete.2, hat.hash⟩

/-- **The edited file parses, with one region's content and hash exchanged**, and that region
stands where it stood. -/
theorem reconciled_views (hpar : parseManagedRegions digest source = .ok regions)
    (hreg : region ∈ regions) (hnew : Replacement newContent) :
    ∃ before line lineEnd after, Cut source region before line lineEnd region.content after ∧
      ∃ regions', parseManagedRegions digest (reconciled digest source region newContent) =
          .ok regions' ∧
        regions'.map (·.view) = (regions.map (·.view)).map
          (·.replaced region.id (sha256Hex digest newContent) newContent) ∧
        ∀ region' ∈ regions', region'.id = region.id →
          Cut (reconciled digest source region newContent) region' before
            (markerLine region (sha256Hex digest newContent)) lineEnd newContent after := by
  obtain ⟨before, first, lines, last, after, hat⟩ := located_of_parse hpar hreg
  obtain ⟨s, hrun, hop, hviews⟩ := parse_agrees.mp ⟨regions, hpar, rfl⟩
  have hhash : validHash (sha256Hex digest newContent) = true := validHash_sha256Hex newContent
  -- The opening line of the result, and that it opens the region.
  obtain ⟨ending, hfst, hnewline, hending, hfirstLine⟩ := lineOf_split hat.complete.1
  have hopg := opening_of_parseMarker hat.opens
  obtain ⟨hline, hlineOf⟩ := rebuilt_line hopg hfirstLine hending hnewline hhash
  have hopens' := parseMarker_rebuilt hopg hhash
  rw [← hlineOf] at hopens'
  rw [← markerLine_eq hat.version] at hline hlineOf hopens'
  have hsegs' := hat.segments_reconciled hfst hnew hline
  -- The lines before and after are read as they were.
  rw [hat.done_eq] at hrun
  obtain ⟨front, back, hfront, hrun'⟩ := scan_after_replace hat.opens hat.plain hat.closes hrun
    hopens' (parseMarker_content hnew.plain) (by rw [flatten_splitInclusive])
  rw [← hsegs', flatten_splitInclusive] at hrun'
  obtain ⟨regions', hpar', hviews'⟩ := parse_agrees.mpr ⟨_, hrun', hop, rfl⟩
  have hrep : regions'.map (·.view) = (regions.map (·.view)).map
      (·.replaced region.id (sha256Hex digest newContent) newContent) := by
    have hnd := nodup_ids hpar
    rw [← hviews, hfront] at hnd
    rw [hviews', ← hviews, hfront]
    rw [map_replaced hnd, hat.version]
  refine ⟨_, _, _, _, hat.cut hfst, regions', hpar', hrep, fun region' hreg' hid => ?_⟩
  obtain ⟨before', first', lines', last', after', hat'⟩ := located_of_parse hpar' hreg'
  -- Only one line of the result opens this identifier.
  have hplace := Scan.ids_of_run hrun'
  have hnd := hplace.nodup
  rw [hplace.lines, nodup_reverse, hsegs'] at hnd
  obtain ⟨rfl, rfl, -⟩ := unique_place hnd (hsegs'.symm.trans hat'.done_eq)
    (openedId_of_opens hopens') (hid ▸ openedId_of_opens hat'.opens)
  have hcnt : region'.content = newContent := by
    have hmem : region'.view ∈ (regions.map (·.view)).map
        (·.replaced region.id (sha256Hex digest newContent) newContent) := by
      rw [← hrep]
      exact mem_map_of_mem hreg'
    obtain ⟨v, -, hv⟩ := mem_map.mp hmem
    exact content_of_replaced hv hid
  refine ⟨(hat.cut hfst).reconciled newContent, hat'.line_start, ?_, ?_, ?_⟩
  · rw [hat'.line_end, hlineOf]
  · rw [hat'.content_start, length_append, Nat.add_assoc]
  · rw [hat'.content_end, ← hat'.content, hcnt, length_append]
    omega

/-! ## 4. Reconciliation -/

theorem accepted_iff_replacement :
    ((!content.isEmpty && content.getLast? != some '\n')
      || (find markerText content).isSome) = false ↔ Replacement content := by
  rw [Bool.or_eq_false_iff, Option.isSome_eq_false_iff, Option.isNone_iff_eq_none,
    find_eq_none]
  constructor
  · rintro ⟨hend, hpl⟩
    refine ⟨?_, hpl⟩
    rw [or_iff_not_imp_left]
    simpa using hend
  · rintro ⟨hend, hpl⟩
    refine ⟨?_, hpl⟩
    rcases hend with rfl | hend
    · rfl
    · simp [hend]

variable {expected : ManagedRegionRecord}

theorem reconcile_eq_ok {result : Text}
    (h : reconcileManagedRegion digest source expected newContent = .ok result) :
    Replacement newContent ∧ ∃ regions region,
      parseManagedRegions digest source = .ok regions ∧ region ∈ regions ∧
      region.id = expected.id ∧ region.markerVersion = expected.markerVersion ∧
      region.contentHash = expected.contentHash ∧
      (newContent = region.content ∧ result = source ∨
        result = reconciled digest source region newContent) := by
  unfold reconcileManagedRegion at h
  split at h
  · cases h
  rename_i hreplacement
  split at h
  · cases h
  rename_i regions hpar
  split at h
  · cases h
  rename_i region hfind
  split at h
  · cases h
  rename_i hver
  split at h
  · cases h
  rename_i hhash
  refine ⟨accepted_iff_replacement.mp (by simpa using hreplacement), regions, region, hpar,
    mem_of_find?_eq_some hfind, by simpa using List.find?_some hfind,
    by simpa using hver, by simpa using hhash, ?_⟩
  split at h
  · next hsame =>
    cases h
    exact .inl ⟨hsame.2, rfl⟩
  · cases h
    exact .inr rfl

theorem reconcile_of_found (hnew : Replacement newContent)
    (hpar : parseManagedRegions digest source = .ok regions) (hreg : region ∈ regions)
    (hid : region.id = expected.id) (hver : region.markerVersion = expected.markerVersion)
    (hhash : region.contentHash = expected.contentHash) :
    reconcileManagedRegion digest source expected newContent =
      .ok (if newContent = region.content then source
        else reconciled digest source region newContent) := by
  have hfind : regions.find? (·.id = expected.id) = some region := by
    cases hfd : regions.find? (·.id = expected.id) with
    | none =>
      exact absurd hid (by simpa using List.find?_eq_none.mp hfd region hreg)
    | some other =>
      have hoth : other.id = expected.id := by simpa using List.find?_some hfd
      rw [region_unique hpar (mem_of_find?_eq_some hfd) hreg (hoth.trans hid.symm)]
  have hck := accepted_iff_replacement.mpr hnew
  unfold reconcileManagedRegion
  rw [hck, hpar]
  simp only [hfind, hver, hhash, ne_eq, not_true, if_false, Bool.false_eq_true]
  -- Equal content has an equal hash, so the test on the hash decides nothing.
  by_cases hsame : newContent = region.content
  · have hsha : sha256Hex digest newContent = expected.contentHash := by
      rw [hsame, ← hhash]
      exact (content_of_parse hpar hreg).2.symm
    simp [hsame, ← hsha]
  · simp [hsame]

theorem RegionView.replaced_self {r : ManagedRegion} (h : r.id = region.id → r = region) :
    r.view.replaced region.id region.contentHash region.content = r.view := by
  unfold replaced
  split
  · next hid =>
    rw [h hid]
    rfl
  · rfl

theorem RegionView.replaced_replaced {content' : Text} (v : RegionView) :
    (v.replaced id hash content).replaced id hash' content' = v.replaced id hash' content' := by
  unfold replaced
  split
  · simp_all
  · rfl

/-- Putting a region's own content in its place changes no view. -/
theorem map_replaced_self (hpar : parseManagedRegions digest source = .ok regions)
    (hreg : region ∈ regions) :
    (regions.map (·.view)).map (·.replaced region.id region.contentHash region.content) =
      regions.map (·.view) := by
  rw [map_map]
  refine map_congr_left fun r hr => replaced_self fun hid => ?_
  exact region_unique hpar hr hreg hid

theorem exists_replaced {regions' : List ManagedRegion}
    (hreg : region ∈ regions) (hviews : regions'.map (·.view) =
      (regions.map (·.view)).map (·.replaced region.id hash content)) :
    ∃ region' ∈ regions', region'.view = ⟨region.id, region.markerVersion, hash, content⟩ := by
  have hmem : region.view.replaced region.id hash content ∈ regions'.map (·.view) := by
    rw [hviews]
    exact mem_map_of_mem (mem_map_of_mem hreg)
  obtain ⟨region', hreg', hview⟩ := mem_map.mp hmem
  exact ⟨region', hreg', hview.trans (if_pos rfl)⟩

/-- **Reconciliation is a local edit that can be undone.**  The result parses, and its regions are
the source's with the target's content and hash exchanged; before the target's opening line and
from the end of its content on, nothing has changed.  If the old content does not contain the marker
text, reconciling the result with the new hash and the old content is accepted and gives the regions
of the source, and the source but for the opening line. -/
theorem reconcile_is_local_and_reversible {digest : Text → Vector UInt8 32}
    {source newContent result : Text} {expected : ManagedRegionRecord}
    (h : reconcileManagedRegion digest source expected newContent = .ok result) :
    ∃ regions region, parseManagedRegions digest source = .ok regions ∧ region ∈ regions ∧
      region.id = expected.id ∧
      (∃ regions', parseManagedRegions digest result = .ok regions' ∧
        regions'.map (·.view) = (regions.map (·.view)).map
          (·.replaced expected.id (sha256Hex digest newContent) newContent)) ∧
      (∃ line, result = source.take region.beginLineStart ++ line ++
        slice source region.beginLineEnd region.contentStart ++ newContent ++
        source.drop region.contentEnd) ∧
      (¬ markerText <:+: region.content →
        ∃ restored, reconcileManagedRegion digest result
            { expected with contentHash := sha256Hex digest newContent } region.content =
              .ok restored ∧
          (∃ regions'', parseManagedRegions digest restored = .ok regions'' ∧
            regions''.map (·.view) = regions.map (·.view)) ∧
          ∃ line, restored = source.take region.beginLineStart ++ line ++
            source.drop region.beginLineEnd) := by
  obtain ⟨hnew, regions, region, hpar, hreg, hid, hver, hhash, hrsl⟩ :=
    reconcile_eq_ok h
  obtain ⟨hcom, hsha⟩ := content_of_parse hpar hreg
  obtain ⟨before, line, lineEnd, after, hcut, regions', hpar', hviews', hcut'⟩ :=
    reconciled_views hpar hreg hnew
  obtain ⟨id, path, version, hash⟩ := expected
  obtain rfl : region.id = id := hid
  replace hver : region.markerVersion = version := hver
  refine ⟨regions, region, hpar, hreg, rfl, ?_⟩
  rw [hcut.take_start, hcut.slice_lineEnd, hcut.drop_content, hcut.drop_line]
  rcases hrsl with ⟨rfl, rfl⟩ | rfl
  · -- The content was there already: nothing is edited, and nothing is edited back.
    refine ⟨⟨regions, hpar, ?_⟩, ⟨line, ?_⟩, fun hpl => ⟨result, ?_, ⟨regions, hpar, rfl⟩,
      line, ?_⟩⟩
    · rw [← hsha, map_replaced_self hpar hreg]
    · simpa using hcut.source_eq
    · exact (reconcile_of_found hnew hpar hreg rfl hver hsha).trans (by rw [if_pos rfl])
    · simpa using hcut.source_eq
  · refine ⟨⟨regions', hpar', hviews'⟩, ⟨markerLine region (sha256Hex digest newContent), ?_⟩,
      fun hpl => ?_⟩
    · simpa using hcut.reconciled newContent
    · have hold : Replacement region.content := ⟨hcom, hpl⟩
      obtain ⟨region', hreg', hview⟩ := exists_replaced hreg hviews'
      obtain ⟨hid', hver', hhash', hcnt'⟩ :
          region'.id = region.id ∧ region'.markerVersion = region.markerVersion ∧
            region'.contentHash = sha256Hex digest newContent ∧ region'.content = newContent :=
        ⟨congrArg RegionView.id hview, congrArg markerVersion hview,
          congrArg contentHash hview, congrArg content hview⟩
      refine ⟨_, reconcile_of_found hold hpar' hreg' hid' (hver'.trans hver) hhash',
        ?_⟩
      split
      · -- The new content was the old one.
        next hsame =>
        rw [hcnt'] at hsame
        refine ⟨⟨regions', hpar', ?_⟩, markerLine region (sha256Hex digest newContent), ?_⟩
        · rw [hviews', ← hsame, ← hsha, map_replaced_self hpar hreg]
        · rw [hcut.reconciled, hsame]
          simp
      · obtain ⟨-, -, -, -, -, regions'', hpar'', hviews'', -⟩ :=
          reconciled_views hpar' hreg' hold
        refine ⟨⟨regions'', hpar'', ?_⟩, markerLine region' (sha256Hex digest region.content), ?_⟩
        · rw [hviews'', hviews', map_map, hid', ← hsha]
          simp only [Function.comp_def, replaced_replaced]
          exact map_replaced_self hpar hreg
        · rw [(hcut' region' hreg' hid').reconciled]
          simp

/-- An opening line that carries the hash of a content. -/
def openingLine (digest : Text → Vector UInt8 32) (content : Text) : Text :=
  "# ".toList ++ rebuiltPayload "a".toList (sha256Hex digest content)

def closingLine : Text := "# omnius:managed-end id=a\n".toList

/-- One region of one line, replaced and put back. -/
theorem reconcile_is_local_and_reversible_line :
    ∃ (digest : Text → Vector UInt8 32) (source result restored : Text),
      reconcileManagedRegion digest source ⟨"a".toList, "lib.rs".toList, 1,
        sha256Hex digest "old\n".toList⟩ "new\n".toList = .ok result ∧
      reconcileManagedRegion digest result ⟨"a".toList, "lib.rs".toList, 1,
        sha256Hex digest "new\n".toList⟩ "old\n".toList = .ok restored ∧
      (∃ line, restored = line ++ source.drop (openingLine digest "old\n".toList).length) := by
  let digest : Text → Vector UInt8 32 := fun _ => Vector.replicate 32 0
  let source : Text := openingLine digest "old\n".toList ++ "\nold\n".toList ++ closingLine
  obtain ⟨result, hrsl⟩ : ∃ result, reconcileManagedRegion digest source ⟨"a".toList,
      "lib.rs".toList, 1, sha256Hex digest "old\n".toList⟩ "new\n".toList = .ok result :=
    ⟨openingLine digest "new\n".toList ++ "\nnew\n".toList ++ closingLine, by decide +kernel⟩
  obtain ⟨regions, region, hpar, hreg, hid, -, -, hback⟩ :=
    reconcile_is_local_and_reversible hrsl
  have hregs : parseManagedRegions digest source = .ok [⟨"a".toList, 1,
      sha256Hex digest "old\n".toList, "old\n".toList, 0, 107, 108, 112, "# ".toList, []⟩] := by
    decide +kernel
  rw [hregs] at hpar
  cases hpar
  rw [mem_singleton.mp hreg] at hback
  obtain ⟨restored, hrestored, -, line, hline⟩ := hback (by decide)
  refine ⟨digest, source, result, restored, hrsl, hrestored, line, ?_⟩
  have hlen : (openingLine digest "old\n".toList).length = 107 := by decide
  exact hline

/-- Content that is read as a doc comment, and contains the marker text. -/
def docComment : Text := "/// see omnius:managed-begin\n".toList

def docCommentFile (digest : Text → Vector UInt8 32) : Text :=
  openingLine digest docComment ++ ['\n'] ++ docComment ++ closingLine

def zeroDigest : Text → Vector UInt8 32 := fun _ => Vector.replicate 32 0

/-- **A doc comment that mentions a marker cannot be put back**: the region is read, and its content
is replaced; the old content is refused as a replacement. -/
theorem doc_comment_content_cannot_return :
    ∃ regions region result,
      parseManagedRegions zeroDigest (docCommentFile zeroDigest) = .ok regions ∧
      region ∈ regions ∧ region.id = "a".toList ∧
      reconcileManagedRegion zeroDigest (docCommentFile zeroDigest)
        ⟨"a".toList, "lib.rs".toList, 1, sha256Hex zeroDigest docComment⟩ [] = .ok result ∧
      reconcileManagedRegion zeroDigest result
        ⟨"a".toList, "lib.rs".toList, 1, sha256Hex zeroDigest []⟩ region.content =
          .error .invalidReplacement := by
  have hregs : parseManagedRegions zeroDigest (docCommentFile zeroDigest) =
      .ok [⟨"a".toList, 1, sha256Hex zeroDigest docComment, docComment, 0, 107, 108, 137,
        "# ".toList, []⟩] := by
    decide +kernel
  have hrep : reconcileManagedRegion zeroDigest (docCommentFile zeroDigest)
      ⟨"a".toList, "lib.rs".toList, 1, sha256Hex zeroDigest docComment⟩ [] =
      .ok (openingLine zeroDigest [] ++ ['\n'] ++ closingLine) := by
    decide +kernel
  have hrfd : ((!docComment.isEmpty && docComment.getLast? != some '\n')
      || (find markerText docComment).isSome) = true := by decide
  refine ⟨_, _, _, hregs, mem_singleton_self _, rfl, hrep, ?_⟩
  rw [reconcileManagedRegion, hrfd, if_pos rfl]

end Omnius.Generator
