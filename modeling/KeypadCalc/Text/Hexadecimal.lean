/-!
# KeypadCalc — hexadecimal digits

Escapes write code points and bytes in base sixteen. Letters of either case are read; they are
written in lower case.
-/

namespace KeypadCalc.Text

def hexDigit? (c : Char) : Option Nat :=
  if '0' ≤ c ∧ c ≤ '9' then some (c.toNat - 48)
  else if 'a' ≤ c ∧ c ≤ 'f' then some (c.toNat - 87)
  else if 'A' ≤ c ∧ c ≤ 'F' then some (c.toNat - 55)
  else none

/-- The hexadecimal digits of a number, in lower case, with zeros in front up to a width. -/
def hexPadded (width n : Nat) : List Char :=
  let digits := Nat.toDigits 16 n
  List.replicate (width - digits.length) '0' ++ digits

end KeypadCalc.Text
