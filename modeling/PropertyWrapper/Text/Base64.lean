/-!
# Bytes in base 64

Four digits stand for three bytes. Characters that are no digits are skipped, and two or three digits
at the end are filled up with equals signs.
-/

namespace PropertyWrapper.Text

/-- The value of a digit in base 64. -/
def base64Value? (c : Char) : Option Nat :=
  if 'A' ≤ c && c ≤ 'Z' then some (c.toNat - 'A'.toNat)
  else if 'a' ≤ c && c ≤ 'z' then some (c.toNat - 'a'.toNat + 26)
  else if c.isDigit then some (c.toNat - '0'.toNat + 52)
  else if c = '+' then some 62
  else if c = '/' then some 63
  else none

/-- The bytes of characters behind an unfinished group of digits: how many there are, the bits that
they left over, and how many fillers follow them. -/
def decodeBase64 (count leftover fillers : Nat) : List Char → Option (List Nat)
  | [] => if count = 0 then some [] else none
  | c :: rest =>
    if c = '=' then
      if count < 2 then decodeBase64 count leftover fillers rest
      else if 4 ≤ count + fillers + 1 then some []
      else decodeBase64 count leftover (fillers + 1) rest
    else
      match base64Value? c with
      | none => decodeBase64 count leftover fillers rest
      | some digit =>
        match count with
        | 0 => decodeBase64 1 digit 0 rest
        | 1 => (decodeBase64 2 (digit % 16) 0 rest).map ((leftover * 4 + digit / 16) :: ·)
        | 2 => (decodeBase64 3 (digit % 4) 0 rest).map ((leftover * 16 + digit / 4) :: ·)
        | _ => (decodeBase64 0 0 0 rest).map ((leftover * 64 + digit) :: ·)

/-- The bytes that a text in base 64 stands for. -/
def bytesOfBase64? (chars : List Char) : Option (List Nat) :=
  if chars.all (·.toNat < 0x80) then decodeBase64 0 0 0 chars else none

end PropertyWrapper.Text
