/-
# Compact JSON text, and how long it is

A program that bounds the size of what it serialises, and does so incrementally, rests on facts
about the LENGTH of JSON text: a string costs its characters' escapes and two quotes, an array its
elements and one comma between any two of them, an object the same for its fields.  The text itself
is written here as a compact serialiser writes it, and the lengths are read off it in closed form:

* `size_string_append` -- escaping goes character by character, so the cost of a concatenation is
  the sum of the costs, with the quotes counted once;
* `size_array`, `size_object` -- elements, separators and brackets.

Numbers, and values serialised elsewhere, are given by their text (`raw`): how they are printed is
their own business.
-/
import Omnius.Lib.Text

namespace Omnius.Lib

inductive Json where
  | null
  | bool (value : Bool)
  /-- Text that is already JSON: a printed number, or a value serialised elsewhere. -/
  | raw (text : String)
  | string (value : String)
  | array (items : List Json)
  | object (fields : List (String × Json))
deriving Repr

namespace Json

open Text (bytes bytes_nil bytes_cons bytes_append)

mutual

/-- Equality of values, decided; the nested lists are compared by the two functions below. -/
def decEq : (a b : Json) → Decidable (a = b)
  | .null, .null => isTrue rfl
  | .bool a, .bool b => decidable_of_iff (a = b) (by simp)
  | .raw a, .raw b => decidable_of_iff (a = b) (by simp)
  | .string a, .string b => decidable_of_iff (a = b) (by simp)
  | .array a, .array b =>
    match decEqItems a b with
    | isTrue h => isTrue (by rw [h])
    | isFalse h => isFalse (by simpa using h)
  | .object a, .object b =>
    match decEqFields a b with
    | isTrue h => isTrue (by rw [h])
    | isFalse h => isFalse (by simpa using h)
  | .null, .bool _ | .null, .raw _ | .null, .string _ | .null, .array _ | .null, .object _
  | .bool _, .null | .bool _, .raw _ | .bool _, .string _ | .bool _, .array _ | .bool _, .object _
  | .raw _, .null | .raw _, .bool _ | .raw _, .string _ | .raw _, .array _ | .raw _, .object _
  | .string _, .null | .string _, .bool _ | .string _, .raw _ | .string _, .array _
  | .string _, .object _ | .array _, .null | .array _, .bool _ | .array _, .raw _
  | .array _, .string _ | .array _, .object _ | .object _, .null | .object _, .bool _
  | .object _, .raw _ | .object _, .string _ | .object _, .array _ => isFalse (by simp)

def decEqItems : (a b : List Json) → Decidable (a = b)
  | [], [] => isTrue rfl
  | [], _ :: _ | _ :: _, [] => isFalse (by simp)
  | a :: as, b :: bs =>
    match decEq a b with
    | isFalse h => isFalse (by simp [h])
    | isTrue h =>
      match decEqItems as bs with
      | isTrue h' => isTrue (by rw [h, h'])
      | isFalse h' => isFalse (by simp [h'])

def decEqFields : (a b : List (String × Json)) → Decidable (a = b)
  | [], [] => isTrue rfl
  | [], _ :: _ | _ :: _, [] => isFalse (by simp)
  | (k, a) :: as, (l, b) :: bs =>
    if hk : k = l then
      match decEq a b with
      | isFalse h => isFalse (by simp [h])
      | isTrue h =>
        match decEqFields as bs with
        | isTrue h' => isTrue (by rw [hk, h, h'])
        | isFalse h' => isFalse (by simp [h'])
    else isFalse (by simp [hk])

end

instance : DecidableEq Json := decEq

/-! ## 1. The text -/

def hexDigit (n : Nat) : Char :=
  if n < 10 then Char.ofNat ('0'.toNat + n) else Char.ofNat ('a'.toNat + n - 10)

/-- How one character is written inside a string. -/
def escape (c : Char) : List Char :=
  if c = '"' then ['\\', '"']
  else if c = '\\' then ['\\', '\\']
  else if c = '\n' then ['\\', 'n']
  else if c = '\r' then ['\\', 'r']
  else if c = '\t' then ['\\', 't']
  else if c.toNat = 0x08 then ['\\', 'b']
  else if c.toNat = 0x0c then ['\\', 'f']
  else if c.toNat < 0x20 then
    ['\\', 'u', '0', '0', hexDigit (c.toNat / 16), hexDigit (c.toNat % 16)]
  else [c]

def quoted (s : String) : List Char := '"' :: s.toList.flatMap escape ++ ['"']

mutual

/-- The compact text of a value. -/
def render : Json → List Char
  | .null => "null".toList
  | .bool b => (if b then "true" else "false").toList
  | .raw text => text.toList
  | .string s => quoted s
  | .array items => '[' :: List.intercalate [','] (renderItems items) ++ [']']
  | .object fields => '{' :: List.intercalate [','] (renderFields fields) ++ ['}']

def renderItems : List Json → List (List Char)
  | [] => []
  | j :: rest => render j :: renderItems rest

def renderFields : List (String × Json) → List (List Char)
  | [] => []
  | (key, j) :: rest => (quoted key ++ ':' :: render j) :: renderFields rest

end

/-- The compact text of a value, in UTF-8. -/
def write (j : Json) : List UInt8 := (render j).flatMap String.utf8EncodeChar

/-! ## 2. Its length -/

def size (j : Json) : Nat := bytes (render j)

@[simp] theorem length_write (j : Json) : (write j).length = size j := by
  simp [write, size, bytes, List.length_flatMap, String.length_utf8EncodeChar]

theorem size_string_append (s t : String) :
    size (.string (s ++ t)) + 2 = size (.string s) + size (.string t) := by
  have hquote : ('"' : Char).utf8Size = 1 := by decide
  simp only [size, render, quoted, String.toList_append, List.flatMap_append, List.cons_append,
    bytes_cons, bytes_append, bytes_nil, hquote]
  omega

theorem two_le_size_string (s : String) : 2 ≤ size (.string s) := by
  have hquote : ('"' : Char).utf8Size = 1 := by decide
  simp only [size, render, quoted, List.cons_append, bytes_cons, bytes_append, bytes_nil, hquote]
  omega

theorem bytes_intercalate : ∀ texts : List (List Char),
    bytes (List.intercalate [','] texts) = (texts.map bytes).sum + (texts.length - 1)
  | [] => rfl
  | [text] => by simp
  | text :: next :: rest => by
    have hcomma : (',' : Char).utf8Size = 1 := by decide
    have ih := bytes_intercalate (next :: rest)
    rw [List.intercalate_cons_cons]
    simp only [bytes_append, bytes_cons, bytes_nil, hcomma, ih, List.map_cons, List.sum_cons,
      List.length_cons]
    omega

theorem renderItems_eq : ∀ items : List Json, renderItems items = items.map render
  | [] => rfl
  | j :: rest => by simp [renderItems, renderItems_eq rest]

theorem renderFields_eq : ∀ fields : List (String × Json),
    renderFields fields = fields.map fun f => quoted f.1 ++ ':' :: render f.2
  | [] => rfl
  | (key, j) :: rest => by simp [renderFields, renderFields_eq rest]

theorem size_array (items : List Json) :
    size (.array items) = 2 + (items.map size).sum + (items.length - 1) := by
  have hopen : ('[' : Char).utf8Size = 1 := by decide
  have hclose : (']' : Char).utf8Size = 1 := by decide
  have hsum : ((items.map render).map bytes).sum = (items.map size).sum := by
    rw [List.map_map]
    rfl
  simp only [size, render, List.cons_append, bytes_cons, bytes_append, bytes_nil, hopen, hclose,
    renderItems_eq, bytes_intercalate, List.length_map] at hsum ⊢
  omega

/-- The cost of one field: its quoted key, the colon and its value. -/
def fieldSize (field : String × Json) : Nat := size (.string field.1) + 1 + size field.2

theorem size_object (fields : List (String × Json)) :
    size (.object fields) = 2 + (fields.map fieldSize).sum + (fields.length - 1) := by
  have hopen : ('{' : Char).utf8Size = 1 := by decide
  have hclose : ('}' : Char).utf8Size = 1 := by decide
  have hcolon : (':' : Char).utf8Size = 1 := by decide
  have hsum : ((fields.map fun f => quoted f.1 ++ ':' :: render f.2).map bytes).sum =
      (fields.map fieldSize).sum := by
    rw [List.map_map]
    congr 1
    refine List.map_congr_left fun f _ => ?_
    simp only [Function.comp, fieldSize, size, render, bytes_append, bytes_cons, hcolon]
    omega
  rw [size, render, renderFields_eq]
  simp only [List.cons_append, bytes_cons, bytes_append, bytes_nil, hopen, hclose,
    bytes_intercalate, List.length_map, hsum]
  omega

end Json

end Omnius.Lib
