/-
# Opaque pagination cursors

A cursor is the base64 text of an ENVELOPE: the payload, one version byte, and a 32-byte tag over
both.  The payload comes first, so `decode` finds the version and the tag by subtracting from the
end; whatever is wrong with a text, it gets the one error.

The source is `crates/pagination/src/lib.rs`.  What the crate `hmac` computes is a parameter, a
function of the key and the message; verification recomputes the tag.  The engine `URL_SAFE_NO_PAD`
is the strict base64 of the library: the text of given bytes is the only one that decodes to them.
-/
import Omnius.Lib.Base64

namespace Omnius.Pagination

open Omnius.Lib

abbrev Bytes := List UInt8

/-- A 32-byte array: a key, or a tag. -/
abbrev Block := { bytes : Bytes // bytes.length = 32 }

structure CursorCodec where
  /-- HMAC-SHA256.  The key has the length that `new_mac` asks for, so signing does not fail. -/
  hmac : Block → Bytes → Block
  key : Block

/-- The bytes of the text.  `decode` checks the length again, so nothing is assumed of it. -/
structure OpaqueCursor where
  encoded : Bytes

def maxCursorPayloadBytes : Nat := 128
def maxEncodedCursorBytes : Nat := 256
def cursorVersion : UInt8 := 1
def cursorVersionBytes : Nat := 1
def authenticationTagBytes : Nat := 32

inductive CursorEncodeError
  | payloadTooLarge | signingFailed

inductive CursorDecodeError
  | invalidCursor

/-- `usize::checked_sub`. -/
def checkedSub (a b : Nat) : Option Nat := if b ≤ a then some (a - b) else none

theorem checkedSub_eq_some {a b c : Nat} : checkedSub a b = some c ↔ a = c + b := by
  unfold checkedSub
  split <;> simp <;> omega

namespace CursorCodec

variable (codec : CursorCodec)

def encodeVersion (payload : Bytes) (version : UInt8) : Except CursorEncodeError OpaqueCursor :=
  if payload.length > maxCursorPayloadBytes then .error .payloadTooLarge
  else
    let envelope := payload ++ [version]
    .ok ⟨Base64.encode (envelope ++ (codec.hmac codec.key envelope).val)⟩

def encode (payload : Bytes) : Except CursorEncodeError OpaqueCursor :=
  codec.encodeVersion payload cursorVersion

/-- What `decode` does with the bytes of the text; `none` is its one error. -/
def openEnvelope (envelope : Bytes) : Option Bytes := do
  let signedBytes ← checkedSub envelope.length authenticationTagBytes
  let payloadBytes ← checkedSub signedBytes cursorVersionBytes
  if payloadBytes > maxCursorPayloadBytes then none
  else if (codec.hmac codec.key (envelope.take signedBytes)).val ≠ envelope.drop signedBytes then
    none
  else if envelope[payloadBytes]? ≠ some cursorVersion then none
  else some (envelope.take payloadBytes)

def decode (cursor : OpaqueCursor) : Except CursorDecodeError Bytes :=
  if cursor.encoded.length > maxEncodedCursorBytes then .error .invalidCursor
  else match (Base64.decode cursor.encoded).bind codec.openEnvelope with
    | none => .error .invalidCursor
    | some payload => .ok payload

/-- The envelope of a payload. -/
def sealed (payload : Bytes) : Bytes :=
  payload ++ [cursorVersion] ++ (codec.hmac codec.key (payload ++ [cursorVersion])).val

variable {codec} {payload envelope : Bytes}

theorem length_sealed : (codec.sealed payload).length = payload.length + 33 := by
  simp [sealed, (codec.hmac codec.key (payload ++ [cursorVersion])).2]

/-- **Only the envelope of a payload opens, and it opens to that payload.** -/
theorem openEnvelope_eq_some : codec.openEnvelope envelope = some payload ↔
    payload.length ≤ maxCursorPayloadBytes ∧ envelope = codec.sealed payload := by
  simp only [openEnvelope, Option.bind_eq_bind, Option.bind_eq_some_iff, checkedSub_eq_some]
  constructor
  · rintro ⟨_, hlen, n, rfl, h⟩
    simp only [Option.ite_none_left_eq_some, not_not, Nat.not_lt, Option.some.injEq] at h
    obtain ⟨hle, htag, hver, rfl⟩ := h
    -- the signed bytes are the payload and the version byte behind it
    have hsigned : envelope.take (n + cursorVersionBytes) = envelope.take n ++ [cursorVersion] := by
      rw [cursorVersionBytes, List.take_add_one, hver, Option.toList_some]
    refine ⟨Nat.le_trans (List.length_take_le _ _) hle, ?_⟩
    rw [sealed, ← hsigned, htag, List.take_append_drop]
  · rintro ⟨hle, rfl⟩
    refine ⟨payload.length + 1, length_sealed, payload.length, rfl, ?_⟩
    have htake : (codec.sealed payload).take (payload.length + 1) = payload ++ [cursorVersion] :=
      List.take_left' (by simp)
    have hdrop : (codec.sealed payload).drop (payload.length + 1) =
        (codec.hmac codec.key (payload ++ [cursorVersion])).val := List.drop_left' (by simp)
    rw [if_neg (Nat.not_lt.mpr hle), htake, hdrop]
    simp [sealed]

theorem encode_of_le (hle : payload.length ≤ maxCursorPayloadBytes) :
    codec.encode payload = .ok ⟨Base64.encode (codec.sealed payload)⟩ :=
  if_neg (Nat.not_lt.mpr hle)

/-- **The codec is a bijection onto its image.**  Payloads of at most 128 bytes come back from their
cursors, longer ones are refused, and a cursor that decodes is THE text of its payload. -/
theorem encode_decode_inverse (codec : CursorCodec) :
    (∀ payload, payload.length ≤ 128 → ∃ cursor, codec.encode payload = .ok cursor ∧
      cursor.encoded.length ≤ 256 ∧ codec.decode cursor = .ok payload) ∧
    (∀ payload e, codec.encode payload = .error e ↔ 128 < payload.length ∧ e = .payloadTooLarge) ∧
    ∀ cursor payload, codec.decode cursor = .ok payload → codec.encode payload = .ok cursor := by
  refine ⟨?_, ?_, ?_⟩
  · intro payload hle
    have hlen : (Base64.encode (codec.sealed payload)).length ≤ maxEncodedCursorBytes := by
      rw [Base64.length_encode, length_sealed, maxEncodedCursorBytes]
      omega
    refine ⟨_, encode_of_le hle, hlen, ?_⟩
    rw [decode, if_neg (Nat.not_lt.mpr hlen), Base64.decode_encode, Option.bind_some,
      openEnvelope_eq_some.mpr ⟨hle, rfl⟩]
  · intro payload e
    by_cases hle : payload.length ≤ 128
    · simp [encode_of_le hle, Nat.not_lt.mpr hle]
    · simp [encode, encodeVersion, maxCursorPayloadBytes, Nat.lt_of_not_le hle, eq_comm]
  · intro cursor payload h
    unfold decode at h
    split at h
    · cases h
    split at h
    · cases h
    · rename_i hopen
      cases h
      obtain ⟨bytes, hbytes, hopened⟩ := Option.bind_eq_some_iff.mp hopen
      obtain ⟨hle, rfl⟩ := openEnvelope_eq_some.mp hopened
      rw [encode_of_le hle, ← Base64.decode_eq_some.mp hbytes]

/-- Thirty-two times the same byte. -/
def uniform (byte : UInt8) : Block := ⟨List.replicate 32 byte, rfl⟩

/-- A tag that shows the first byte of the key and the length of the message. -/
def sampleCodec : CursorCodec where
  hmac key message := uniform (key.val.headD 0 + .ofNat message.length)
  key := uniform 7

/-- The payload `[1, 2]` has a cursor of 47 characters that decodes to it; with its last character
changed in the bits behind the last byte, the text is refused. -/
theorem encode_decode_inverse_pair :
    (∃ cursor, sampleCodec.encode [1, 2] = .ok cursor ∧ cursor.encoded.length ≤ 256 ∧
      sampleCodec.decode cursor = .ok [1, 2]) ∧
    sampleCodec.decode ⟨(Base64.encode (sampleCodec.sealed [1, 2])).dropLast ++ [Base64.char 1]⟩ =
      .error .invalidCursor :=
  ⟨(encode_decode_inverse sampleCodec).1 [1, 2] (by decide), rfl⟩

end CursorCodec

end Omnius.Pagination
