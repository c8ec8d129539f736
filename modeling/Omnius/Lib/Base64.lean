/-
# Base64 with the URL alphabet and without padding

Three bytes are four digits of six bits each; a group that is left over has two bytes in three
digits or one byte in two.  The decoder is STRICT: a character outside the alphabet (the padding
sign is one), a lone digit and nonzero bits behind the last byte are refused, so that a text is
accepted exactly if it is the encoding of what it decodes to (`decode_eq_some`).
-/
import Mathlib.Data.List.Basic

namespace Omnius.Lib.Base64

/-! ## 1. The alphabet -/

/-- The character of a digit below 64: `A` to `Z`, `a` to `z`, `0` to `9`, `-`, `_`. -/
def char (digit : Nat) : UInt8 :=
  if digit < 26 then .ofNat (digit + 65)
  else if digit < 52 then .ofNat (digit + 71)
  else if digit < 62 then .ofNat (digit - 4)
  else if digit = 62 then 45
  else 95

/-- The digit of a character. -/
def value (c : UInt8) : Option Nat :=
  let n := c.toNat
  if 65 ≤ n ∧ n ≤ 90 then some (n - 65)
  else if 97 ≤ n ∧ n ≤ 122 then some (n - 71)
  else if 48 ≤ n ∧ n ≤ 57 then some (n + 4)
  else if n = 45 then some 62
  else if n = 95 then some 63
  else none

theorem value_eq_some {c : UInt8} {digit : Nat} :
    value c = some digit ↔ digit < 64 ∧ c = char digit := by
  constructor
  · intro h
    have hall : ∀ n : Fin 256, ∀ d ∈ value (.ofNat n), d < 64 ∧ UInt8.ofNat n = char d := by
      decide +kernel
    have hchar := hall ⟨c.toNat, c.toNat_lt⟩ digit
    rw [UInt8.ofNat_toNat] at hchar
    exact hchar h
  · rintro ⟨hlt, rfl⟩
    have hall : ∀ d : Fin 64, value (char d) = some d.val := by decide +kernel
    exact hall ⟨digit, hlt⟩

/-! ## 2. Encoding and decoding -/

/-- The text of a list of bytes. -/
def encode : List UInt8 → List UInt8
  | a :: b :: c :: rest =>
    char (a.toNat / 4) :: char (a.toNat % 4 * 16 + b.toNat / 16) ::
      char (b.toNat % 16 * 4 + c.toNat / 64) :: char (c.toNat % 64) :: encode rest
  | [a, b] =>
    [char (a.toNat / 4), char (a.toNat % 4 * 16 + b.toNat / 16), char (b.toNat % 16 * 4)]
  | [a] => [char (a.toNat / 4), char (a.toNat % 4 * 16)]
  | [] => []

/-- The bytes of a text.  Bits behind the last byte must be zero. -/
def decode : List UInt8 → Option (List UInt8)
  | c₀ :: c₁ :: c₂ :: c₃ :: rest => do
    let d₀ ← value c₀
    let d₁ ← value c₁
    let d₂ ← value c₂
    let d₃ ← value c₃
    let bytes ← decode rest
    some (.ofNat (d₀ * 4 + d₁ / 16) :: .ofNat (d₁ % 16 * 16 + d₂ / 4) ::
      .ofNat (d₂ % 4 * 64 + d₃) :: bytes)
  | [c₀, c₁, c₂] => do
    let d₀ ← value c₀
    let d₁ ← value c₁
    let d₂ ← value c₂
    if d₂ % 4 = 0 then some [.ofNat (d₀ * 4 + d₁ / 16), .ofNat (d₁ % 16 * 16 + d₂ / 4)]
    else none
  | [c₀, c₁] => do
    let d₀ ← value c₀
    let d₁ ← value c₁
    if d₁ % 16 = 0 then some [.ofNat (d₀ * 4 + d₁ / 16)] else none
  | [_] => none
  | [] => some []

/-- Four digits for three bytes, rounded up. -/
theorem length_encode (bytes : List UInt8) :
    (encode bytes).length = (4 * bytes.length + 2) / 3 := by
  induction bytes using encode.induct with
  | case1 a b c rest ih =>
    simp only [encode, List.length_cons, ih]
    omega
  | case2 a b => simp [encode]
  | case3 a => simp [encode]
  | case4 => simp [encode]

theorem value_char {digit : Nat} (h : digit < 64) : value (char digit) = some digit :=
  value_eq_some.mpr ⟨h, rfl⟩

theorem ofNat_eq {byte : UInt8} {n : Nat} (h : n = byte.toNat) : UInt8.ofNat n = byte := by
  rw [h, UInt8.ofNat_toNat]

/-- What is encoded is decoded: the digits are put together to the bytes they were cut from. -/
theorem decode_encode (bytes : List UInt8) : decode (encode bytes) = some bytes := by
  induction bytes using encode.induct with
  | case1 a b c rest ih =>
    have := a.toNat_lt
    have := b.toNat_lt
    have := c.toNat_lt
    simp (disch := omega) only [encode, decode, ih, value_char, Option.bind_eq_bind,
      Option.bind_some, Option.some.injEq, List.cons.injEq, and_true]
    exact ⟨ofNat_eq (by omega), ofNat_eq (by omega), ofNat_eq (by omega)⟩
  | case2 a b =>
    have := a.toNat_lt
    have := b.toNat_lt
    simp (disch := omega) only [encode, decode, value_char, Option.bind_eq_bind, Option.bind_some]
    rw [if_pos (by omega), Option.some.injEq, List.cons.injEq, List.cons.injEq]
    exact ⟨ofNat_eq (by omega), ofNat_eq (by omega), rfl⟩
  | case3 a =>
    have := a.toNat_lt
    simp (disch := omega) only [encode, decode, value_char, Option.bind_eq_bind, Option.bind_some]
    rw [if_pos (by omega), Option.some.injEq, List.cons.injEq]
    exact ⟨ofNat_eq (by omega), rfl⟩
  | case4 => rfl

/-- What is decoded is the encoding of the result: no two texts have the same bytes. -/
theorem encode_of_decode {text bytes : List UInt8} (h : decode text = some bytes) :
    encode bytes = text := by
  induction text using decode.induct generalizing bytes with
  | case1 c₀ c₁ c₂ c₃ rest ih =>
    simp only [decode, Option.bind_eq_bind, Option.bind_eq_some_iff, value_eq_some] at h
    obtain ⟨d₀, ⟨h₀, rfl⟩, d₁, ⟨h₁, rfl⟩, d₂, ⟨h₂, rfl⟩, d₃, ⟨h₃, rfl⟩, bytes, hrest, h⟩ := h
    cases h
    simp only [encode, ih hrest, UInt8.toNat_ofNat']
    congr <;> omega
  | case2 c₀ c₁ c₂ =>
    simp only [decode, Option.bind_eq_bind, Option.bind_eq_some_iff, value_eq_some,
      Option.ite_none_right_eq_some] at h
    obtain ⟨d₀, ⟨h₀, rfl⟩, d₁, ⟨h₁, rfl⟩, d₂, ⟨h₂, rfl⟩, hzero, h⟩ := h
    cases h
    simp only [encode, UInt8.toNat_ofNat']
    congr <;> omega
  | case3 c₀ c₁ =>
    simp only [decode, Option.bind_eq_bind, Option.bind_eq_some_iff, value_eq_some,
      Option.ite_none_right_eq_some] at h
    obtain ⟨d₀, ⟨h₀, rfl⟩, d₁, ⟨h₁, rfl⟩, hzero, h⟩ := h
    cases h
    simp only [encode, UInt8.toNat_ofNat']
    congr <;> omega
  | case4 c => cases h
  | case5 =>
    cases h
    rfl

/-- **A text decodes to `bytes` exactly if it is their encoding.** -/
theorem decode_eq_some {text bytes : List UInt8} :
    decode text = some bytes ↔ text = encode bytes := by
  constructor
  · exact fun h => (encode_of_decode h).symm
  · rintro rfl
    exact decode_encode bytes

end Omnius.Lib.Base64
