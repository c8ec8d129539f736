/-
# Managed regions

A generated file may contain regions that the generator owns.  A region stands between an opening
marker line, which carries an identifier, the marker version and the hash of the region's content,
and a closing one.  `parseManagedRegions` finds the regions of a file, or refuses the file;
`reconcileManagedRegion` replaces the content of one of them.

Text is a list of characters, and an offset counts characters.  The source counts bytes, but uses
offsets only to cut at places it has reached by whole lines or trimmed text.  The two lengths the
source compares with a number are of texts all of whose bytes it also requires to be ASCII.

SHA-256 is a parameter: what matters of it is that it is a function with 32 bytes of output.

Translated from `crates/generator/src/region.rs`.
-/
import Omnius.Lib.Text

namespace Omnius.Generator

open Omnius.Lib
open Omnius.Lib.Text (trim)

abbrev Text := List Char

/-! ## 1. Text -/

def hexDigit (n : Nat) : Char :=
  "0123456789abcdef".toList.getD n '0'

def sha256Hex (digest : Text → Vector UInt8 32) (text : Text) : Text :=
  (digest text).toList.flatMap fun byte => [hexDigit (byte.toNat / 16), hexDigit (byte.toNat % 16)]

def isBlank (c : Char) : Bool := c = ' ' || c = '\t'

def isLineEnd (c : Char) : Bool := c = '\r' || c = '\n'

def isAsciiWhitespace (c : Char) : Bool :=
  c = ' ' || c = '\t' || c = '\n' || c.toNat = 0x0c || c = '\r'

def splitAsciiWhitespace (text : Text) : List Text :=
  (text.splitOnP isAsciiWhitespace).filter fun field => !field.isEmpty

/-- Before and after the first occurrence of `sep`. -/
def splitOnce (sep : Char) (text : Text) : Option (Text × Text) :=
  if sep ∈ text then some (text.takeWhile (· != sep), (text.dropWhile (· != sep)).drop 1) else none

def slice (text : Text) (start stop : Nat) : Text := (text.drop start).take (stop - start)

/-- `str::parse::<u32>`. -/
def parseU32 (text : Text) : Option Nat :=
  let digits := match text with
    | '+' :: rest => rest
    | text => text
  if digits.isEmpty || !digits.all Char.isDigit then none
  else
    let value := digits.foldl (fun n c => n * 10 + (c.toNat - '0'.toNat)) 0
    if value < 2 ^ 32 then some value else none

/-! ## 2. Markers -/

def beginToken : Text := "omnius:managed-begin".toList

def endToken : Text := "omnius:managed-end".toList

/-- What replacement content may not contain. -/
def markerText : Text := "omnius:managed-".toList

def managedMarkerVersion : Nat := 1

inductive RegionError
  | nested (id existing : Text)
  | duplicateId (id : Text)
  | noOpeningMarker (id : Text)
  | mismatchedId (opened id : Text)
  | unsupportedVersion (id : Text) (version : Nat)
  | edited (id markerHash actualHash : Text)
  | missingEnd (id : Text)
  | invalidReplacement
  | missingRegion (id path : Text)
  | versionChanged (id : Text) (expected actual : Nat)
  | hashDiffers (id state marker : Text)
  | notOnlyPayload | emptyMarker
  | invalidField (field : Text)
  | emptyField (key : Text)
  | unknownOrDuplicateField (key : Text)
  | missingId
  | invalidId (id : Text)
  | missingVersion | versionNotInteger | missingHash | hashNotSha256 | endHasOtherFields
deriving DecidableEq

/-- A marker line: what it says, and what surrounds its payload. -/
inductive Marker
  | begins (id : Text) (version : Nat) (hash linePrefix lineSuffix : Text)
  | ends (id : Text)

def validPrefix (linePrefix : Text) : Bool :=
  trim linePrefix = "#".toList || trim linePrefix = "//".toList || trim linePrefix = "<!--".toList

def isIdChar (c : Char) : Bool := c.isAlphanum || c = '-' || c = '_' || c = '.'

def validId (id : Text) : Bool := !id.isEmpty && decide (id.length ≤ 128) && id.all isIdChar

def isHexChar (c : Char) : Bool := c.isDigit || ('a' ≤ c && c ≤ 'f')

def validHash (hash : Text) : Bool := decide (hash.length = 64) && hash.all isHexChar

/-- The payload of a marker, and the comment closer and blanks behind it. -/
def splitCommentSuffix (value : Text) : Text × Text :=
  let trimmed := value.rdropWhile isBlank
  if "-->".toList.isSuffixOf trimmed then
    let payload := (trimmed.take (trimmed.length - 3)).rdropWhile isBlank
    (payload, value.drop payload.length)
  else (trimmed, value.drop trimmed.length)

structure Fields where
  (id version hash : Option Text)

def readField (fields : Fields) (field : Text) : Except RegionError Fields :=
  match splitOnce '=' field with
  | none => .error (.invalidField field)
  | some (key, value) =>
    if value.isEmpty then .error (.emptyField key)
    else if key = "id".toList ∧ fields.id = none then .ok { fields with id := some value }
    else if key = "version".toList ∧ fields.version = none then
      .ok { fields with version := some value }
    else if key = "hash".toList ∧ fields.hash = none then .ok { fields with hash := some value }
    else .error (.unknownOrDuplicateField key)

def readFields : Fields → List Text → Except RegionError Fields
  | fields, [] => .ok fields
  | fields, field :: rest =>
    match readField fields field with
    | .error e => .error e
    | .ok fields => readFields fields rest

def beginMarker (id linePrefix lineSuffix : Text) (fields : Fields) :
    Except RegionError (Option Marker) :=
  match fields.version with
  | none => .error .missingVersion
  | some version =>
    match parseU32 version with
    | none => .error .versionNotInteger
    | some version =>
      match fields.hash with
      | none => .error .missingHash
      | some hash =>
        if validHash hash then .ok (some (.begins id version hash linePrefix lineSuffix))
        else .error .hashNotSha256

def markerOf (linePrefix payload lineSuffix : Text) : Except RegionError (Option Marker) :=
  match splitAsciiWhitespace payload with
  | [] => .error .emptyMarker
  | token :: rest =>
    match readFields ⟨none, none, none⟩ rest with
    | .error e => .error e
    | .ok fields =>
      match fields.id with
      | none => .error .missingId
      | some id =>
        if !validId id then .error (.invalidId id)
        else if token = beginToken then beginMarker id linePrefix lineSuffix fields
        else if token = endToken then
          if fields.version.isSome || fields.hash.isSome then .error .endHasOtherFields
          else .ok (some (.ends id))
        else .ok none

/-- A comment line that is not a doc comment. -/
def isCommentLine (trimmedStart : Text) : Bool :=
  "#".toList.isPrefixOf trimmedStart || "//".toList.isPrefixOf trimmedStart
    || "<!--".toList.isPrefixOf trimmedStart

def parseMarker (line : Text) : Except RegionError (Option Marker) :=
  let trimmedStart := line.dropWhile isBlank
  if "///".toList.isPrefixOf trimmedStart || "//!".toList.isPrefixOf trimmedStart then .ok none
  else
    match (Text.find beginToken trimmedStart).or (Text.find endToken trimmedStart) with
    | none => .ok none
    | some tokenOffset =>
      let prefixLen := line.length - trimmedStart.length + tokenOffset
      let linePrefix := line.take prefixLen
      if !validPrefix linePrefix then
        if isCommentLine trimmedStart then .error .notOnlyPayload else .ok none
      else
        let (payload, lineSuffix) := splitCommentSuffix (line.drop prefixLen)
        markerOf linePrefix payload lineSuffix

/-! ## 3. The parser -/

structure ManagedRegion where
  id : Text
  markerVersion : Nat
  (contentHash content : Text)
  (beginLineStart beginLineEnd contentStart contentEnd : Nat)
  (linePrefix lineSuffix : Text)
deriving DecidableEq

structure OpenMarker where
  id : Text
  version : Nat
  hash : Text
  (beginLineStart beginLineEnd contentStart : Nat)
  (linePrefix lineSuffix : Text)

structure RegionParser where
  regions : List ManagedRegion
  opened : Option OpenMarker
  ids : List Text

namespace RegionParser

def new : RegionParser := ⟨[], none, []⟩

def close (digest : Text → Vector UInt8 32) (parser : RegionParser) (source id : Text)
    (contentEnd : Nat) : Except RegionError RegionParser :=
  match parser.opened with
  | none => .error (.noOpeningMarker id)
  | some begin_ =>
    if begin_.id ≠ id then .error (.mismatchedId begin_.id id)
    else
      let content := slice source begin_.contentStart contentEnd
      let actualHash := sha256Hex digest content
      if begin_.version ≠ managedMarkerVersion then
        .error (.unsupportedVersion id begin_.version)
      else if begin_.hash ≠ actualHash then .error (.edited id begin_.hash actualHash)
      else .ok { parser with
        opened := none
        regions := parser.regions ++ [{
          id := begin_.id
          markerVersion := begin_.version
          contentHash := begin_.hash
          content
          beginLineStart := begin_.beginLineStart
          beginLineEnd := begin_.beginLineEnd
          contentStart := begin_.contentStart
          contentEnd
          linePrefix := begin_.linePrefix
          lineSuffix := begin_.lineSuffix }] }

def apply (digest : Text → Vector UInt8 32) (parser : RegionParser) (source : Text)
    (marker : Marker) (lineStart lineEnd nextOffset : Nat) : Except RegionError RegionParser :=
  match marker with
  | .begins id version hash linePrefix lineSuffix =>
    match parser.opened with
    | some existing => .error (.nested id existing.id)
    | none =>
      if id ∈ parser.ids then .error (.duplicateId id)
      else .ok { parser with
        ids := id :: parser.ids
        opened := some {
          id
          version
          hash
          beginLineStart := lineStart
          beginLineEnd := lineEnd
          contentStart := nextOffset
          linePrefix
          lineSuffix } }
  | .ends id => parser.close digest source id lineStart

def finish (parser : RegionParser) : Except RegionError (List ManagedRegion) :=
  match parser.opened with
  | some begin_ => .error (.missingEnd begin_.id)
  | none => .ok parser.regions

def lineOf (segment : Text) : Text := segment.rdropWhile isLineEnd

/-- One segment: the line between `offset` and its line end is a marker or is skipped. -/
def step (digest : Text → Vector UInt8 32) (source : Text) (parser : RegionParser)
    (offset : Nat) (segment : Text) : Except RegionError RegionParser :=
  let lineEnd := offset + (lineOf segment).length
  let nextOffset := offset + segment.length
  match parseMarker (slice source offset lineEnd) with
  | .error e => .error e
  | .ok none => .ok parser
  | .ok (some marker) => parser.apply digest source marker offset lineEnd nextOffset

def run (digest : Text → Vector UInt8 32) (source : Text) :
    RegionParser → Nat → List Text → Except RegionError RegionParser
  | parser, _, [] => .ok parser
  | parser, offset, segment :: rest =>
    match parser.step digest source offset segment with
    | .error e => .error e
    | .ok parser => run digest source parser (offset + segment.length) rest

end RegionParser

def parseManagedRegions (digest : Text → Vector UInt8 32) (source : Text) :
    Except RegionError (List ManagedRegion) :=
  match RegionParser.run digest source .new 0 (Text.splitInclusive '\n' source) with
  | .error e => .error e
  | .ok parser => parser.finish

/-! ## 4. Reconciliation -/

structure ManagedRegionRecord where
  (id path : Text)
  markerVersion : Nat
  contentHash : Text

/-- The opening marker that the reconciled text carries. -/
def markerLine (region : ManagedRegion) (hash : Text) : Text :=
  region.linePrefix ++ beginToken ++ " id=".toList ++ region.id ++ " version=".toList
    ++ (toString region.markerVersion).toList ++ " hash=".toList ++ hash ++ region.lineSuffix

variable (digest : Text → Vector UInt8 32)

def reconciled (source : Text) (region : ManagedRegion)
    (newContent : Text) : Text :=
  source.take region.beginLineStart ++ markerLine region (sha256Hex digest newContent)
    ++ slice source region.beginLineEnd region.contentStart ++ newContent
    ++ source.drop region.contentEnd

def reconcileManagedRegion (source : Text)
    (expected : ManagedRegionRecord) (newContent : Text) : Except RegionError Text :=
  if (!newContent.isEmpty && newContent.getLast? != some '\n')
      || (Text.find markerText newContent).isSome then .error .invalidReplacement
  else
    match parseManagedRegions digest source with
    | .error e => .error e
    | .ok regions =>
      match regions.find? (·.id = expected.id) with
      | none => .error (.missingRegion expected.id expected.path)
      | some region =>
        if region.markerVersion ≠ expected.markerVersion then
          .error (.versionChanged expected.id expected.markerVersion region.markerVersion)
        else if region.contentHash ≠ expected.contentHash then
          .error (.hashDiffers expected.id expected.contentHash region.contentHash)
        else if sha256Hex digest newContent = region.contentHash ∧ newContent = region.content then
          .ok source
        else .ok (reconciled digest source region newContent)

end Omnius.Generator
