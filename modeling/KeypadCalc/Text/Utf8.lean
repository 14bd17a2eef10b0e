import KeypadCalc.Text.Point

/-!
# KeypadCalc — reading UTF-8

Bytes are cut from left to right into units: a well-formed character of one to four bytes, or a
fault. A fault takes the longest run of bytes that could still have begun a character, and at least
one byte. There are two readings: one that refuses any fault but lets surrogates pass, written like
characters, and a lenient one that shows each fault as the replacement character.
-/

namespace KeypadCalc.Text

namespace Utf8

/-- What the first byte of a character asks of the bytes after it: the bits that it contributes, how
many bytes follow, and the least and greatest value of the next one. -/
structure Lead where
  bits : Nat
  following : Nat
  least : Nat
  greatest : Nat
  deriving DecidableEq, Repr

/-- The demands of a first byte, if a character may start with it. The narrower ranges keep out
longer forms than needed, surrogates, and code points past the last. -/
def lead? (b : Nat) : Option Lead :=
  if b < 0x80 then some ⟨b, 0, 0x80, 0xBF⟩
  else if b < 0xC2 then none
  else if b < 0xE0 then some ⟨b - 0xC0, 1, 0x80, 0xBF⟩
  else if b = 0xE0 then some ⟨0, 2, 0xA0, 0xBF⟩
  else if b = 0xED then some ⟨0xD, 2, 0x80, 0x9F⟩
  else if b < 0xF0 then some ⟨b - 0xE0, 2, 0x80, 0xBF⟩
  else if b = 0xF0 then some ⟨0, 3, 0x90, 0xBF⟩
  else if b < 0xF4 then some ⟨b - 0xF0, 3, 0x80, 0xBF⟩
  else if b = 0xF4 then some ⟨4, 3, 0x80, 0x8F⟩
  else none

/-- The demands of a first byte where surrogates pass. -/
def passingLead? (b : Nat) : Option Lead :=
  if b = 0xED then some ⟨0xD, 2, 0x80, 0xBF⟩ else lead? b

/-- The bytes that follow a first byte: the code point and the rest, or the rest behind a fault. -/
def follow (bits : Nat) : (following least greatest : Nat) → List Nat → Option Nat × List Nat
  | 0, _, _, bytes => (some bits, bytes)
  | _ + 1, _, _, [] => (none, [])
  | n + 1, least, greatest, b :: bytes =>
    if least ≤ b ∧ b ≤ greatest then follow (bits * 64 + (b - 0x80)) n 0x80 0xBF bytes
    else (none, b :: bytes)

theorem length_follow_le (bits n least greatest : Nat) (bytes : List Nat) :
    (follow bits n least greatest bytes).2.length ≤ bytes.length := by
  fun_induction follow bits n least greatest bytes with
  | case1 => simp
  | case2 => simp
  | case3 bits n least greatest b bytes hb ih =>
    simp only [List.length_cons]
    omega
  | case4 => simp

/-- The units of a run of bytes, by the demands of the first bytes: code points, and `none` for each
fault. -/
def units (leadOf? : Nat → Option Lead) : List Nat → List (Option Point)
  | [] => []
  | b :: bytes =>
    match leadOf? b with
    | none => none :: units leadOf? bytes
    | some l =>
      let step := follow l.bits l.following l.least l.greatest bytes
      step.1.map Point.ofNat :: units leadOf? step.2
termination_by bytes => bytes.length
decreasing_by
  · simp
  · have := length_follow_le l.bits l.following l.least l.greatest bytes
    simp only [List.length_cons]
    omega

/-- The code points of a run of bytes, if there is no fault in it; surrogates pass. -/
def decode? (bytes : List Nat) : Option (List Point) :=
  (units passingLead? bytes).mapM id

/-- The characters of a run of bytes, with the replacement character for each fault. -/
def decodeLenient (bytes : List Nat) : List Char :=
  (units lead? bytes).map fun p => p.elim '\uFFFD' Point.shown

example : units lead? [0x31, 0xC3, 0xA9, 0xE2, 0x82, 0x28, 0xFF] =
    [some (.char '1'), some (.char 'é'), none, some (.char '('), none] := by decide +kernel

end Utf8

end KeypadCalc.Text
