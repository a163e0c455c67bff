/-!
# The limit on decimal digits

Integers are converted to and from decimal text only up to a fixed number of digits. Bases that are
powers of two know no such limit.
-/

namespace PropertyWrapper.Number

/-- The largest number of decimal digits in a conversion between integers and text. -/
def digitLimit : Nat := 4300

/-- Whether a number has more decimal digits than can be written. -/
def exceedsDigitLimit (n : Nat) : Bool := Nat.pow 10 digitLimit ≤ n

/-- Why a number is not converted; `found` tells how many digits a text has. -/
def digitLimitMessage (found : Option Nat) : String :=
  let found := (found.map fun count => s!": value has {count} digits").getD ""
  s!"Exceeds the limit ({digitLimit} digits) for integer string conversion" ++ found
    ++ "; use sys.set_int_max_str_digits() to increase the limit"

end PropertyWrapper.Number
