/-!
# KeypadCalc — digits

Two classes of digits. A *decimal digit* may stand in a numeral: it comes from one of the scripts
that write numbers in base ten, and its value is its distance from the zero of its script. A
*counted digit* counts against the cap of a keypad operand: the decimal digits and, beside them,
superscripts, subscripts and the digits in circles, brackets and the like, which have a value but
form no numerals. Both follow version 14.0 of the Unicode standard.
-/

namespace KeypadCalc.Text

/-- The code points of the zeros of the scripts with decimal digits; the other nine digits of a
script follow its zero. -/
def scriptZeros : List Nat :=
  [0x30, 0x660, 0x6F0, 0x7C0, 0x966, 0x9E6, 0xA66, 0xAE6, 0xB66, 0xBE6, 0xC66, 0xCE6, 0xD66,
   0xDE6, 0xE50, 0xED0, 0xF20, 0x1040, 0x1090, 0x17E0, 0x1810, 0x1946, 0x19D0, 0x1A80, 0x1A90,
   0x1B50, 0x1BB0, 0x1C40, 0x1C50, 0xA620, 0xA8D0, 0xA900, 0xA9D0, 0xA9F0, 0xAA50, 0xABF0,
   0xFF10, 0x104A0, 0x10D30, 0x11066, 0x110F0, 0x11136, 0x111D0, 0x112F0, 0x11450, 0x114D0,
   0x11650, 0x116C0, 0x11730, 0x118E0, 0x11950, 0x11C50, 0x11D50, 0x11DA0, 0x16A60, 0x16AC0,
   0x16B50, 0x1D7CE, 0x1D7D8, 0x1D7E2, 0x1D7EC, 0x1D7F6, 0x1E140, 0x1E2F0, 0x1E950, 0x1FBF0]

/-- The value of a decimal digit, of any script. -/
def digitValue? (c : Char) : Option Nat :=
  (scriptZeros.find? fun z => z ≤ c.toNat && c.toNat < z + 10).map (c.toNat - ·)

def isDigit (c : Char) : Bool :=
  (digitValue? c).isSome

/-- The value of a decimal digit, and `0` of any other character. -/
def digitValue (c : Char) : Nat :=
  (digitValue? c).getD 0

def numberOfDigits (cs : List Char) : Nat :=
  cs.foldl (fun n c => 10 * n + digitValue c) 0

/-- First and last code points of the digits that are counted but stand in no numeral. -/
def countedRanges : List (Nat × Nat) :=
  [(0xB2, 0xB3), (0xB9, 0xB9), (0x1369, 0x1371), (0x19DA, 0x19DA), (0x2070, 0x2070),
   (0x2074, 0x2079), (0x2080, 0x2089), (0x2460, 0x2468), (0x2474, 0x247C), (0x2488, 0x2490),
   (0x24EA, 0x24EA), (0x24F5, 0x24FD), (0x24FF, 0x24FF), (0x2776, 0x277E), (0x2780, 0x2788),
   (0x278A, 0x2792), (0x10A40, 0x10A43), (0x10E60, 0x10E68), (0x11052, 0x1105A),
   (0x1F100, 0x1F10A)]

/-- A digit that counts against the cap of a keypad operand. -/
def isCountedDigit (c : Char) : Bool :=
  isDigit c || countedRanges.any fun r => r.1 ≤ c.toNat && c.toNat ≤ r.2

theorem digitValue?_lt {c : Char} {n : Nat} (h : digitValue? c = some n) : n < 10 := by
  obtain ⟨z, hfind, rfl⟩ := Option.map_eq_some_iff.1 h
  have hp := List.find?_some hfind
  simp only [Bool.and_eq_true, decide_eq_true_eq] at hp
  omega

theorem digitValue_lt (c : Char) : digitValue c < 10 := by
  unfold digitValue
  cases h : digitValue? c with
  | none => decide
  | some n => simpa using digitValue?_lt h

theorem isCountedDigit_of_isDigit {c : Char} (h : isDigit c = true) : isCountedDigit c = true := by
  simp [isCountedDigit, h]

example : "0123456789".toList.map digitValue? = (List.range 10).map some := by decide +kernel

end KeypadCalc.Text
