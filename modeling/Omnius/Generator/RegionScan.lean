/-
# Reading regions without offsets

The parser walks a file with byte offsets: a region is a set of cuts into the source, and its
content is sliced out when its closing marker is reached.  For reasoning about an EDITED file the
offsets are in the way, since every one behind the edit moves.  `Scan` reads the same lines and
keeps the content itself instead of where it began, so its result depends on the lines alone:

* `parse_agrees` -- the parser and the scan succeed together and see the same regions;
* `located_of_parse` -- a region that the parser found stands where its offsets say: lines before
  it, its opening line, its content lines, its closing line, lines after it;
* `scan_after_replace` -- replacing the opening line and the content lines of one region by others
  that open and fill a region of the same identifier replaces that region and nothing else.
-/
import Omnius.Generator.RegionMarker
import Mathlib.Data.Vector.Defs

namespace Omnius.Generator

open Omnius.Lib RegionParser
open List hiding Vector

variable (digest : Text → Vector UInt8 32)

/-! ## 1. Scanning lines -/

/-- What a region says, without where it stands. -/
structure RegionView where
  id : Text
  markerVersion : Nat
  (contentHash content : Text)

def ManagedRegion.view (region : ManagedRegion) : RegionView :=
  ⟨region.id, region.markerVersion, region.contentHash, region.content⟩

/-- The regions read so far, and the one that is open with the content read so far. -/
structure Scan where
  regions : List RegionView
  opened : Option RegionView
  ids : List Text

variable {s s' : Scan} {segment source : Text} {segments done : List Text} {p : RegionParser}

namespace Scan

local instance : LawfulBEq Text := inferInstance

def start : Scan := ⟨[], none, []⟩

/-- A line of content, if a region is open. -/
def skip (s : Scan) (segment : Text) : Scan :=
  { s with opened := s.opened.map fun o => { o with content := o.content ++ segment } }

def apply (s : Scan) : Marker → Except RegionError Scan
  | .begins id version hash _ _ =>
    match s.opened with
    | some existing => .error (.nested id existing.id)
    | none =>
      if id ∈ s.ids then .error (.duplicateId id)
      else .ok { s with ids := id :: s.ids, opened := some ⟨id, version, hash, []⟩ }
  | .ends id =>
    match s.opened with
    | none => .error (.noOpeningMarker id)
    | some o =>
      if o.id ≠ id then .error (.mismatchedId o.id id)
      else if o.markerVersion ≠ managedMarkerVersion then
        .error (.unsupportedVersion id o.markerVersion)
      else if o.contentHash ≠ sha256Hex digest o.content then
        .error (.edited id o.contentHash (sha256Hex digest o.content))
      else .ok { s with opened := none, regions := s.regions ++ [o] }

def step (s : Scan) (segment : Text) : Except RegionError Scan :=
  match parseMarker (lineOf segment) with
  | .error e => .error e
  | .ok none => .ok (s.skip segment)
  | .ok (some marker) => s.apply digest marker

def run : Scan → List Text → Except RegionError Scan
  | s, [] => .ok s
  | s, segment :: rest =>
    match s.step digest segment with
    | .error e => .error e
    | .ok s => run s rest

variable {digest}

theorem run_append {before after : List Text} : s.run digest (before ++ after) = .ok s' ↔
      ∃ mid, s.run digest before = .ok mid ∧ mid.run digest after = .ok s' := by
  induction before generalizing s with
  | nil => simp [run]
  | cons segment before ih =>
    simp only [cons_append, run]
    cases s.step digest segment with
    | error e => simp
    | ok next => exact ih

theorem run_cons {rest : List Text} : s.run digest (segment :: rest) = .ok s' ↔
      ∃ mid, s.step digest segment = .ok mid ∧ mid.run digest rest = .ok s' := by
  rw [run]
  cases s.step digest segment with
  | error e | ok next => simp

theorem run_skip (h : ∀ segment ∈ segments, parseMarker (lineOf segment) = .ok none) :
    s.run digest segments = .ok (s.skip segments.flatten) := by
  induction segments generalizing s with
  | nil =>
    cases s with
    | mk regions opened ids => cases opened <;> simp [run, skip]
  | cons segment rest ih =>
    rw [run_cons]
    refine ⟨s.skip segment, ?_, ?_⟩
    · rw [step, h segment mem_cons_self]
    · rw [ih fun piece hpiece => h piece (mem_cons_of_mem _ hpiece)]
      cases s with
      | mk regions opened ids => cases opened <;> simp [skip]

/-- What an accepted line was, and what became of the scan. -/
inductive Step (digest : Text → Vector UInt8 32) (s : Scan) (segment : Text) : Scan → Prop
  | content (marker : parseMarker (lineOf segment) = .ok none) :
    Step digest s segment (s.skip segment)
  | begins {id hash linePrefix lineSuffix : Text} {version : Nat}
    (marker : parseMarker (lineOf segment) =
      .ok (some (.begins id version hash linePrefix lineSuffix)))
    (closed : s.opened = none) (new : id ∉ s.ids) :
    Step digest s segment { s with ids := id :: s.ids, opened := some ⟨id, version, hash, []⟩ }
  | ends {o : RegionView} (marker : parseMarker (lineOf segment) = .ok (some (.ends o.id)))
    (opened : s.opened = some o) (version : o.markerVersion = managedMarkerVersion)
    (hash : o.contentHash = sha256Hex digest o.content) :
    Step digest s segment { s with opened := none, regions := s.regions ++ [o] }

theorem step_eq_ok : s.step digest segment = .ok s' ↔ Step digest s segment s' := by
  constructor
  · intro h
    unfold step at h
    split at h
    · cases h
    · next hmarker =>
      cases h
      exact .content hmarker
    next marker hmarker =>
    cases marker with
    | begins id version hash linePrefix lineSuffix =>
      simp only [apply] at h
      split at h
      · cases h
      rename_i hcl
      split at h
      · cases h
      rename_i hnew
      cases h
      exact .begins hmarker hcl hnew
    | ends id =>
      simp only [apply] at h
      split at h
      · cases h
      rename_i o hop
      split_ifs at h with hid hver hhash
      cases h
      cases not_not.mp hid
      exact .ends hmarker hop (not_not.mp hver) (not_not.mp hhash)
  · intro h
    cases h with
    | content marker => rw [step, marker]
    | begins marker closed new => simp [step, marker, apply, closed, new]
    | ends marker opened version hash =>
      simp [step, marker, apply, opened, version, ← hash]

/-- What has been read before does not matter for what is read next. -/
theorem step_regions (h : s.step digest segment = .ok s') :
    ∃ more, s'.regions = s.regions ++ more ∧ ∀ regions,
      ({ s with regions } : Scan).step digest segment =
        .ok { s' with regions := regions ++ more } := by
  simp only [step_eq_ok] at h ⊢
  cases h with
  | content marker => exact ⟨[], by simp [skip], fun regions => by simpa using .content marker⟩
  | begins marker closed new =>
    exact ⟨[], by simp, fun regions => by simpa using .begins marker closed new⟩
  | ends marker opened version hash =>
    exact ⟨[_], rfl, fun regions => .ends marker opened version hash⟩

theorem run_regions (h : s.run digest segments = .ok s') :
    ∃ more, s'.regions = s.regions ++ more ∧ ∀ regions,
      ({ s with regions } : Scan).run digest segments =
        .ok { s' with regions := regions ++ more } := by
  induction segments generalizing s with
  | nil =>
    cases h
    exact ⟨[], by simp, fun regions => by simp [run]⟩
  | cons segment rest ih =>
    obtain ⟨mid, hstep, hrun⟩ := run_cons.mp h
    obtain ⟨first, hfst, hstep'⟩ := step_regions hstep
    obtain ⟨others, hoths, hrun'⟩ := ih hrun
    refine ⟨first ++ others, by rw [hoths, hfst, append_assoc], fun regions => ?_⟩
    rw [run_cons]
    refine ⟨_, hstep' regions, ?_⟩
    rw [hrun', append_assoc]

end Scan

/-! ## 2. Identifiers -/

def openedId (segment : Text) : Option Text :=
  match parseMarker (lineOf segment) with
  | .ok (some (.begins id _ _ _ _)) => some id
  | _ => none

namespace Scan

variable {digest}

/-- The identifiers seen are those of the opening lines, and those of the regions; none twice. -/
structure Ids (done : List Text) (s : Scan) : Prop where
  lines : s.ids = (done.filterMap openedId).reverse
  regions : s.ids = ((s.regions ++ s.opened.toList).map (·.id)).reverse
  nodup : s.ids.Nodup

theorem Ids.step (h : Ids done s) (hstep : s.step digest segment = .ok s') :
    Ids (done ++ [segment]) s' := by
  obtain ⟨hlines, hregs, hnd⟩ := h
  cases step_eq_ok.mp hstep with
  | content marker =>
    have hid : openedId segment = none := by simp [openedId, marker]
    refine ⟨by simp [skip, hlines, hid], ?_, hnd⟩
    cases hop : s.opened <;> simp_all [skip]
  | @begins id _ _ _ _ marker closed new =>
    have hid : openedId segment = some id := by rw [openedId, marker]
    refine ⟨by simp [hlines, hid], ?_, nodup_cons.mpr ⟨new, hnd⟩⟩
    simp [hregs, closed]
  | ends marker opened =>
    have hid : openedId segment = none := by simp [openedId, marker]
    refine ⟨by simp [hlines, hid], ?_, hnd⟩
    simp [hregs, opened]

theorem Ids.run (h : Ids done s) (hrun : s.run digest segments = .ok s') :
    Ids (done ++ segments) s' := by
  induction segments generalizing done s with
  | nil =>
    cases hrun
    rwa [append_nil]
  | cons segment rest ih =>
    obtain ⟨mid, hstep, hrun⟩ := run_cons.mp hrun
    rw [show done ++ segment :: rest = (done ++ [segment]) ++ rest by simp]
    exact ih (h.step hstep) hrun

theorem ids_of_run (h : Scan.start.run digest segments = .ok s) : Ids segments s := by
  have hstt : Ids [] start := ⟨rfl, rfl, nodup_nil⟩
  exact hstt.run h

end Scan

theorem unique_place {α β : Type*} {f : α → Option β} {before before' after after' : List α}
    {x x' : α} {key : β} (hnd : ((before ++ x :: after).filterMap f).Nodup)
    (h : before ++ x :: after = before' ++ x' :: after') (hx : f x = some key)
    (hx' : f x' = some key) : before = before' ∧ x = x' ∧ after = after' := by
  rcases append_eq_append_iff.mp h with ⟨mid, hbef, hmid⟩ | ⟨mid, hbef, hmid⟩
  · cases mid with
    | nil => simp_all
    | cons y mid =>
      obtain ⟨rfl, rfl⟩ := List.cons.inj hmid
      simp [hx, hx', nodup_append] at hnd
  · cases mid with
    | nil => simp_all
    | cons y mid =>
      obtain ⟨rfl, rfl⟩ := List.cons.inj hmid
      rw [hbef] at hnd
      simp [hx, hx', nodup_append] at hnd

/-! ## 3. The parser agrees with the scan -/

/-- Both fail with the same error, or both succeed with related results. -/
inductive Agree {ε α β : Type*} (R : α → β → Prop) : Except ε α → Except ε β → Prop
  | error (e : ε) : Agree R (.error e) (.error e)
  | ok {a : α} {b : β} : R a b → Agree R (.ok a) (.ok b)

theorem Agree.eq_or {ε α β : Type*} {R : α → β → Prop} {x : Except ε α} {y : Except ε β}
    (h : Agree R x y) :
    (∃ e, x = .error e ∧ y = .error e) ∨ ∃ a b, x = .ok a ∧ y = .ok b ∧ R a b := by
  cases h with
  | error e => exact .inl ⟨e, rfl, rfl⟩
  | ok h => exact .inr ⟨_, _, rfl, rfl, h⟩

/-- The parser at `offset` has read what the scan has read. -/
structure Views (source : Text) (offset : Nat) (p : RegionParser) (s : Scan) : Prop where
  regions : s.regions = p.regions.map (·.view)
  ids : s.ids = p.ids
  opened : s.opened = p.opened.map fun m =>
    ⟨m.id, m.version, m.hash, slice source m.contentStart offset⟩
  before : ∀ m ∈ p.opened, m.contentStart ≤ offset

variable {rest : Text} {offset : Nat}

theorem slice_append {start : Nat} (hle : start ≤ offset)
    (h : source.drop offset = segment ++ rest) :
    slice source start (offset + segment.length) = slice source start offset ++ segment := by
  have hsum : offset + segment.length - start = (offset - start) + segment.length := by omega
  have hdrop : (source.drop start).drop (offset - start) = segment ++ rest := by
    rw [drop_drop, Nat.add_sub_cancel' hle, h]
  rw [slice, slice, hsum, take_add, hdrop, take_left]

theorem slice_line (h : source.drop offset = segment ++ rest) :
    slice source offset (offset + (lineOf segment).length) = lineOf segment := by
  obtain ⟨tail, htail, -⟩ := rdropWhile_split isLineEnd segment
  rw [slice, h, Nat.add_sub_cancel_left]
  calc (segment ++ rest).take (lineOf segment).length
      = (lineOf segment ++ (tail ++ rest)).take (lineOf segment).length := by
        rw [← append_assoc, lineOf, ← htail]
    _ = lineOf segment := take_left

variable {digest}

theorem step_agrees (hsrc : source.drop offset = segment ++ rest) (h : Views source offset p s) :
    Agree (Views source (offset + segment.length)) (p.step digest source offset segment)
      (s.step digest segment) := by
  have hop := h.opened
  simp only [RegionParser.step, Scan.step, slice_line hsrc]
  cases parseMarker (lineOf segment) with
  | error e => exact .error e
  | ok marker =>
    cases marker with
    | none =>
      refine .ok ⟨h.regions, h.ids, ?_, ?_⟩
      · rw [Scan.skip, hop, Option.map_map]
        refine Option.map_congr fun m hm => ?_
        simp [slice_append (h.before m hm) hsrc]
      · intro m hm
        exact (h.before m hm).trans (Nat.le_add_right _ _)
    | some marker =>
      cases marker with
      | begins id version hash linePrefix lineSuffix =>
        simp only [RegionParser.apply, Scan.apply, hop, h.ids]
        cases p.opened with
        | some existing => exact .error _
        | none =>
          simp only [Option.map_none]
          split
          · exact .error _
          · refine .ok ⟨h.regions, by simp, ?_, ?_⟩
            · simp [slice]
            · rintro m ⟨⟩
              exact Nat.le_refl _
      | ends id =>
        simp only [RegionParser.apply, RegionParser.close, Scan.apply, hop]
        cases hp : p.opened with
        | none => exact .error _
        | some m =>
          simp only [Option.map_some]
          split
          · exact .error _
          split
          · exact .error _
          · split
            · exact .error _
            · refine .ok ⟨?_, h.ids, rfl, by simp⟩
              simp [h.regions, ManagedRegion.view]

theorem run_agrees (hsrc : source.drop offset = segments.flatten) (h : Views source offset p s) :
    Agree (Views source (offset + segments.flatten.length)) (p.run digest source offset segments)
      (s.run digest segments) := by
  induction segments generalizing offset p s with
  | nil => exact .ok h
  | cons segment rest ih =>
    rw [flatten_cons] at hsrc
    rw [RegionParser.run, Scan.run]
    have hstep : Agree _ (p.step digest source offset segment) _ := step_agrees hsrc h
    rcases hstep.eq_or with ⟨e, hp, hs⟩ | ⟨p', s', hp, hs, hvs⟩
    · simp only [hp, hs]
      exact .error e
    · have hrest : source.drop (offset + segment.length) = rest.flatten := by
        rw [← drop_drop, hsrc, drop_left]
      simpa [hp, hs, Nat.add_assoc] using ih hrest hvs

/-- **The parser sees what the scan sees.** -/
theorem parse_agrees {views : List RegionView} :
    (∃ regions, parseManagedRegions digest source = .ok regions ∧
      regions.map (·.view) = views) ↔
    ∃ s, Scan.start.run digest (Text.splitInclusive '\n' source) = .ok s ∧ s.opened = none ∧
      s.regions = views := by
  have hvs : Views source 0 .new .start := ⟨rfl, rfl, rfl, by simp [RegionParser.new]⟩
  have hsrc : source.drop 0 = (Text.splitInclusive '\n' source).flatten :=
    (Text.flatten_splitInclusive '\n' source).symm
  unfold parseManagedRegions
  have hrun : Agree _ (RegionParser.run digest source _ 0 _) _ := run_agrees hsrc hvs
  rcases hrun.eq_or with ⟨e, hp, hs⟩ | ⟨p, s, hp, hs, h⟩
  · simp [hp, hs]
  · have hop := h.opened
    simp only [hp, hs, RegionParser.finish, Except.ok.injEq, exists_eq_left', h.regions, hop]
    cases p.opened <;> simp

/-! ## 4. Where a region stands -/

/-- Lines before, the opening line, and content lines so far. -/
structure OpenAt (done : List Text) (m : OpenMarker) (before : List Text) (first : Text)
    (lines : List Text) : Prop where
  done_eq : done = before ++ first :: lines
  line_start : m.beginLineStart = before.flatten.length
  line_end : m.beginLineEnd = before.flatten.length + (lineOf first).length
  content_start : m.contentStart = before.flatten.length + first.length
  opens : parseMarker (lineOf first) =
    .ok (some (.begins m.id m.version m.hash m.linePrefix m.lineSuffix))
  plain : ∀ line ∈ lines, parseMarker (lineOf line) = .ok none

/-- A whole region: what was open, with a closing line behind its content. -/
structure RegionAt (digest : Text → Vector UInt8 32) (done : List Text) (r : ManagedRegion)
    (before : List Text) (first : Text) (lines : List Text) (last : Text) (after : List Text) :
    Prop where
  done_eq : done = before ++ first :: (lines ++ last :: after)
  line_start : r.beginLineStart = before.flatten.length
  line_end : r.beginLineEnd = before.flatten.length + (lineOf first).length
  content_start : r.contentStart = before.flatten.length + first.length
  content_end : r.contentEnd = before.flatten.length + first.length + lines.flatten.length
  opens : parseMarker (lineOf first) =
    .ok (some (.begins r.id r.markerVersion r.contentHash r.linePrefix r.lineSuffix))
  plain : ∀ line ∈ lines, parseMarker (lineOf line) = .ok none
  closes : parseMarker (lineOf last) = .ok (some (.ends r.id))
  version : r.markerVersion = managedMarkerVersion
  content : r.content = lines.flatten
  hash : r.contentHash = sha256Hex digest r.content

/-- Everything the parser holds stands somewhere in what it has read. -/
structure Located (digest : Text → Vector UInt8 32) (done : List Text) (p : RegionParser) :
    Prop where
  opened : ∀ m ∈ p.opened, ∃ before first lines, OpenAt done m before first lines
  regions : ∀ r ∈ p.regions, ∃ before first lines last after,
    RegionAt digest done r before first lines last after

variable {r : ManagedRegion} {before lines after : List Text} {first last : Text}
  {p' : RegionParser}

theorem RegionAt.extend (h : RegionAt digest done r before first lines last after)
    (segment : Text) :
    RegionAt digest (done ++ [segment]) r before first lines last (after ++ [segment]) :=
  { h with done_eq := by rw [h.done_eq]; simp }

theorem Located.step (hsrc : source = done.flatten ++ (segment ++ rest))
    (h : Located digest done p)
    (hstep : p.step digest source done.flatten.length segment = .ok p') :
    Located digest (done ++ [segment]) p' := by
  have hdrop : source.drop done.flatten.length = segment ++ rest := by
    rw [hsrc, drop_left]
  have hregs : ∀ r ∈ p.regions, ∃ before first lines last after,
      RegionAt digest (done ++ [segment]) r before first lines last after := by
    intro r hr
    obtain ⟨before, first, lines, last, after, hat⟩ := h.regions r hr
    exact ⟨before, first, lines, last, after ++ [segment], hat.extend segment⟩
  simp only [RegionParser.step, slice_line hdrop] at hstep
  split at hstep
  · cases hstep
  · next hmarker =>
    cases hstep
    refine ⟨fun m hm => ?_, hregs⟩
    obtain ⟨before, first, lines, hat⟩ := h.opened m hm
    refine ⟨before, first, lines ++ [segment], { hat with
      done_eq := by rw [hat.done_eq]; simp
      plain := forall_mem_append.mpr ⟨hat.plain, forall_mem_singleton.mpr hmarker⟩ }⟩
  next marker hmarker =>
  cases marker with
  | begins id version hash linePrefix lineSuffix =>
    simp only [RegionParser.apply] at hstep
    split at hstep
    · cases hstep
    split at hstep
    · cases hstep
    cases hstep
    refine ⟨?_, hregs⟩
    rintro m ⟨⟩
    exact ⟨done, segment, [], rfl, rfl, rfl, rfl, hmarker, by simp⟩
  | ends id =>
    simp only [RegionParser.apply, RegionParser.close] at hstep
    split at hstep
    · cases hstep
    rename_i m hm
    split_ifs at hstep with hid hver hhash
    cases hstep
    refine ⟨by simp, ?_⟩
    refine forall_mem_append.mpr ⟨hregs, forall_mem_singleton.mpr ?_⟩
    obtain ⟨before, first, lines, hat⟩ := h.opened m hm
    have hflat : done.flatten.length =
        before.flatten.length + first.length + lines.flatten.length := by
      rw [hat.done_eq]
      simp [Nat.add_assoc]
    exact ⟨before, first, lines, segment, [], {
      done_eq := by rw [hat.done_eq]; simp
      line_start := hat.line_start
      line_end := hat.line_end
      content_start := hat.content_start
      content_end := hflat
      opens := hat.opens
      plain := hat.plain
      closes := by rw [hmarker, not_not.mp hid]
      version := not_not.mp hver
      hash := not_not.mp hhash
      content := by
        simp only [slice, hat.content_start, hflat, Nat.add_sub_cancel_left]
        rw [hsrc, hat.done_eq]
        simp only [flatten_append, flatten_cons, append_assoc]
        rw [← drop_drop, drop_left, drop_left, take_left] }⟩

theorem Located.run (hsrc : source = done.flatten ++ segments.flatten)
    (h : Located digest done p) (hrun : p.run digest source done.flatten.length segments = .ok p') :
    Located digest (done ++ segments) p' := by
  induction segments generalizing done p with
  | nil =>
    cases hrun
    rwa [append_nil]
  | cons segment rest ih =>
    rw [RegionParser.run] at hrun
    split at hrun
    · cases hrun
    rename_i mid hstep
    have hmid : Located digest (done ++ [segment]) mid :=
      h.step (by rw [hsrc, flatten_cons]) hstep
    have hlen : done.flatten.length + segment.length = (done ++ [segment]).flatten.length := by
      simp
    rw [show done ++ segment :: rest = (done ++ [segment]) ++ rest by simp]
    refine ih (by simp [hsrc]) hmid ?_
    rwa [← hlen]

theorem located_of_parse {regions : List ManagedRegion}
    (h : parseManagedRegions digest source = .ok regions) (hr : r ∈ regions) :
    ∃ before first lines last after,
      RegionAt digest (Text.splitInclusive '\n' source) r before first lines last after := by
  unfold parseManagedRegions at h
  split at h
  · cases h
  rename_i p hp
  have hlocated : Located digest (Text.splitInclusive '\n' source) p := by
    have hstt : Located digest [] .new := ⟨by simp [RegionParser.new], by simp [RegionParser.new]⟩
    exact hstt.run (Text.flatten_splitInclusive '\n' source).symm hp
  unfold RegionParser.finish at h
  split at h
  · cases h
  cases h
  exact hlocated.regions r hr

/-! ## 5. Replacing one region -/

/-- **One region replaced, the others as they were.**  The lines of a region are replaced by an
opening line of the same identifier and content lines that match its hash. -/
theorem scan_after_replace {first' : Text} {lines' : List Text}
    {id hash hash' linePrefix linePrefix' : Text} {lineSuffix lineSuffix' : Text} {version : Nat}
    (hopens : parseMarker (lineOf first) =
      .ok (some (.begins id version hash linePrefix lineSuffix)))
    (hpl : ∀ line ∈ lines, parseMarker (lineOf line) = .ok none)
    (hcloses : parseMarker (lineOf last) = .ok (some (.ends id)))
    (hrun : Scan.start.run digest (before ++ first :: (lines ++ last :: after)) = .ok s)
    (hopens' : parseMarker (lineOf first') =
      .ok (some (.begins id managedMarkerVersion hash' linePrefix' lineSuffix')))
    (hpl' : ∀ line ∈ lines', parseMarker (lineOf line) = .ok none)
    (hhash' : hash' = sha256Hex digest lines'.flatten) :
    ∃ front back, s.regions = front ++ ⟨id, version, hash, lines.flatten⟩ :: back ∧
      Scan.start.run digest (before ++ first' :: (lines' ++ last :: after)) =
        .ok { s with regions :=
          front ++ ⟨id, managedMarkerVersion, hash', lines'.flatten⟩ :: back } := by
  obtain ⟨s₁, h₁, hrun⟩ := Scan.run_append.mp hrun
  obtain ⟨s₂, h₂, hrun⟩ := Scan.run_cons.mp hrun
  obtain ⟨s₃, h₃, hrun⟩ := Scan.run_append.mp hrun
  obtain ⟨s₄, h₄, haft⟩ := Scan.run_cons.mp hrun
  simp only [Scan.step_eq_ok] at h₂ h₄
  -- The opening line was accepted, so nothing was open and the identifier was new.
  cases h₂ with
  | content marker | ends marker => cases hopens.symm.trans marker
  | begins marker closed new =>
  cases hopens.symm.trans marker
  rw [Scan.run_skip hpl] at h₃
  cases h₃
  -- The closing line was accepted, so the region was added.
  cases h₄ with
  | content marker | begins marker => cases hcloses.symm.trans marker
  | ends marker opened =>
  cases opened
  obtain ⟨back, hback, hany⟩ := Scan.run_regions haft
  refine ⟨s₁.regions, back, by simpa [Scan.skip] using hback, ?_⟩
  refine Scan.run_append.mpr ⟨s₁, h₁, ?_⟩
  refine Scan.run_cons.mpr ⟨_, Scan.step_eq_ok.mpr (.begins hopens' closed new), ?_⟩
  refine Scan.run_append.mpr ⟨_, Scan.run_skip hpl', ?_⟩
  refine Scan.run_cons.mpr
    ⟨_, Scan.step_eq_ok.mpr (.ends hcloses rfl rfl (by simpa using hhash')), ?_⟩
  exact (hany _).trans (by simp [Scan.skip])

end Omnius.Generator
