import PropertyWrapper.Text.Quoted

/-!
# Texts as bytes

The encoding of texts in UTF-8. Bytes are decoded from left to right with the unfinished character at
hand; the first byte that cannot follow ends the decoding.
-/

namespace PropertyWrapper.Text

/-- Bytes, as a file holds them. -/
abbrev Bytes := List UInt8

/-! ## Errors -/

/-- Why bytes are no text. -/
inductive Utf8Fault where
  /-- A byte cannot start a character. -/
  | start
  /-- A byte cannot continue the character that was started. -/
  | continuation
  /-- The bytes end inside a character. -/
  | ending
deriving DecidableEq, Repr

/-- A fault with the positions of the bytes that it is about. -/
structure Utf8Error where
  fault : Utf8Fault
  byte : UInt8
  first : Nat
  last : Nat
deriving DecidableEq, Repr

/-- The words for a fault. -/
def Utf8Fault.words : Utf8Fault → String
  | .start => "invalid start byte"
  | .continuation => "invalid continuation byte"
  | .ending => "unexpected end of data"

/-- The explanation of an error: a single byte is shown, several are only located. -/
def Utf8Error.message (error : Utf8Error) : String :=
  let bytes :=
    if error.first = error.last then
      "byte 0x" ++ String.ofList (hexDigits 2 error.byte.toNat) ++ " in position "
        ++ toString error.first
    else "bytes in position " ++ toString error.first ++ "-" ++ toString error.last
  "'utf-8' codec can't decode " ++ bytes ++ ": " ++ error.fault.words

/-! ## Decoding -/

/-- A character of which some bytes have been read. -/
structure PartialChar where
  /-- The first byte and its position. -/
  byte : UInt8
  position : Nat
  /-- The bits read so far. -/
  value : Nat
  /-- How many bytes follow the next one. -/
  remaining : Nat
  /-- The bounds of the next byte. -/
  least : UInt8
  greatest : UInt8
deriving DecidableEq, Repr

/-- The character that a byte starts, if it starts one of several bytes. Overlong forms, surrogates
and numbers beyond the last character are excluded by the bounds of the second byte. -/
def PartialChar.start? (position : Nat) (byte : UInt8) : Option PartialChar :=
  let started (value remaining : Nat) (least greatest : UInt8) : Option PartialChar :=
    some { byte, position, value, remaining, least, greatest }
  let n := byte.toNat
  if n < 0xc2 then none
  else if n < 0xe0 then started (n - 0xc0) 0 0x80 0xbf
  else if n = 0xe0 then started 0 1 0xa0 0xbf
  else if n = 0xed then started 0xd 1 0x80 0x9f
  else if n < 0xf0 then started (n - 0xe0) 1 0x80 0xbf
  else if n = 0xf0 then started 0 2 0x90 0xbf
  else if n < 0xf4 then started (n - 0xf0) 2 0x80 0xbf
  else if n = 0xf4 then started 4 2 0x80 0x8f
  else none

/-- The characters of bytes from a position on, with a character still unfinished. -/
def decodeFrom (position : Nat) : Option PartialChar → Bytes → Except Utf8Error (List Char)
  | none, [] => .ok []
  | some pending, [] => .error ⟨.ending, pending.byte, pending.position, position - 1⟩
  | none, byte :: rest =>
    if byte < 0x80 then
      (decodeFrom (position + 1) none rest).map (Char.ofNat byte.toNat :: ·)
    else
      match PartialChar.start? position byte with
      | some pending => decodeFrom (position + 1) (some pending) rest
      | none => .error ⟨.start, byte, position, position⟩
  | some pending, byte :: rest =>
    if pending.least ≤ byte && byte ≤ pending.greatest then
      let value := pending.value * 64 + (byte.toNat - 0x80)
      match pending.remaining with
      | 0 => (decodeFrom (position + 1) none rest).map (Char.ofNat value :: ·)
      | remaining + 1 =>
        let pending := { pending with value, remaining, least := 0x80, greatest := 0xbf }
        decodeFrom (position + 1) (some pending) rest
    else .error ⟨.continuation, pending.byte, pending.position, position - 1⟩

/-- The characters that bytes encode. -/
def decodeUtf8 (bytes : Bytes) : Except Utf8Error (List Char) := decodeFrom 0 none bytes

/-- The bytes of a text. -/
def encodeUtf8 (text : String) : Bytes := text.toUTF8.toList

end PropertyWrapper.Text
