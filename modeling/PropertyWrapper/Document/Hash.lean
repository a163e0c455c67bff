import PropertyWrapper.Document.Scalar

/-!
# Hashes of scalars

Numbers that are equal have equal hashes: the hash of a number is its residue modulo a prime, with its
sign. The value -1 is reserved, and -2 stands in for it. The hashes of all other scalars differ from run to
run, so they are a parameter.
-/

namespace PropertyWrapper.Document

open Number

/-- The prime modulus of hashes of numbers. -/
def hashModulus : Nat := Nat.pow 2 61 - 1

/-- The residue of `significand * 2 ^ exponent`; 61 doublings multiply by one. -/
def binaryResidue (significand : Nat) (exponent : Int) : Nat :=
  significand * Nat.pow 2 (exponent.emod 61).toNat % hashModulus

/-- A residue with a sign, where -1 becomes -2. -/
def signedHash (negative : Bool) (residue : Nat) : Int :=
  if negative then (if residue = 1 then -2 else -(residue : Int)) else residue

/-- The hash of a floating point value, if it is a number. -/
def floatHash? : FloatValue → Option Int
  | .number negative (.finite significand exponent) =>
    some (signedHash negative (binaryResidue significand exponent))
  | .number negative .infinity => some (signedHash negative 314159)
  | .notANumber _ => none

/-- The hash of a scalar that is a number; the hash of every other one is the run's own. -/
def Scalar.numberHash? : Scalar → Option Int
  | .bool value => some (if value then 1 else 0)
  | .int value => some (signedHash (value < 0) (value.natAbs % hashModulus))
  | .float value => floatHash? value
  | _ => none

/-- The hash of a scalar in a run that gives hashes to the scalars that are no numbers. -/
def Scalar.hash (run : Scalar → Int) (value : Scalar) : Int :=
  value.numberHash?.getD (run value)

end PropertyWrapper.Document
