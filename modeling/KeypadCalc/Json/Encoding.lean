import KeypadCalc.Json.Reader
import KeypadCalc.Text.Utf8

/-!
# KeypadCalc — JSON in bytes

The bytes of a JSON text tell how its characters are encoded: by a mark in front, or else by the
zeros among the first bytes, for a JSON text starts with a character whose high bytes are zero. A
surrogate that stands alone is read as it is, as it is where an escape writes it.
-/

namespace KeypadCalc.Json

/-- The encodings of a JSON text. Units of two and of four bytes have the high byte or the low byte
first. -/
inductive Encoding where
  | utf8
  | utf16 (highFirst : Bool)
  | utf32 (highFirst : Bool)
  deriving DecidableEq, Repr

namespace Encoding

/-- The encoding of bytes without a mark. -/
def ofZeros : List Nat → Encoding
  | a :: b :: c :: d :: _ =>
    if a = 0 then (if b = 0 then utf32 true else utf16 true)
    else if b = 0 then (if c = 0 ∧ d = 0 then utf32 false else utf16 false)
    else utf8
  | [a, b] => if a = 0 then utf16 true else if b = 0 then utf16 false else utf8
  | _ => utf8

/-- The encoding of bytes, and the bytes without the mark that may tell it. -/
def detect : List Nat → Encoding × List Nat
  | 0x00 :: 0x00 :: 0xFE :: 0xFF :: rest => (utf32 true, rest)
  | 0xFF :: 0xFE :: 0x00 :: 0x00 :: rest => (utf32 false, rest)
  | 0xFE :: 0xFF :: rest => (utf16 true, rest)
  | 0xFF :: 0xFE :: rest => (utf16 false, rest)
  | 0xEF :: 0xBB :: 0xBF :: rest => (utf8, rest)
  | bytes => (ofZeros bytes, bytes)

/-- The number that two digits write of which the low one is below the base. -/
def number (highFirst : Bool) (base a b : Nat) : Nat :=
  if highFirst then a * base + b else b * base + a

def pairs? (highFirst : Bool) : List Nat → Option (List Nat)
  | [] => some []
  | [_] => none
  | a :: b :: rest => (pairs? highFirst rest).map (number highFirst 0x100 a b :: ·)

/-- The code points that units of four bytes write. -/
def quads? (highFirst : Bool) : List Nat → Option (List Nat)
  | [] => some []
  | [_] => none
  | a :: b :: rest =>
    let n := number highFirst 0x10000 a b
    if n < 0x110000 then (quads? highFirst rest).map (n :: ·) else none

/-- The code points that bytes write, if they are whole. -/
def points? (encoding : Encoding) (bytes : List Nat) : Option (List Text.Point) :=
  match encoding with
  | utf8 => Text.Utf8.decode? bytes
  | utf16 highFirst => (pairs? highFirst bytes).map fun units => Reader.join (units.map .unit)
  | utf32 highFirst => do
    let numbers ← quads? highFirst (← pairs? highFirst bytes)
    return numbers.map .ofNat

example : detect [0x22, 0x00, 0x3D, 0xD8, 0x00, 0xDE, 0x22, 0x00] =
    (utf16 false, [0x22, 0x00, 0x3D, 0xD8, 0x00, 0xDE, 0x22, 0x00]) := by decide

example : (utf16 false).points? [0x22, 0x00, 0x3D, 0xD8, 0x00, 0xDE, 0x3D, 0xD8] =
    some [.char '"', .char '😀', .surrogate 0x3D] := by decide +kernel

/-- The code points that bytes write in the encoding that they tell. -/
def decode? (bytes : ByteArray) : Option (List Text.Point) :=
  let (encoding, body) := detect (bytes.toList.map UInt8.toNat)
  encoding.points? body

end Encoding

/-- The value that bytes write. -/
def ofBytes (levels : Nat) (bytes : ByteArray) : Except ReadFault Json :=
  match Encoding.decode? bytes with
  | none => .error (.malformed [])
  | some ps => ofPoints levels ps

end KeypadCalc.Json
