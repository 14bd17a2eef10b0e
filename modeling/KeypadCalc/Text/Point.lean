import KeypadCalc.Text.Quoted

/-!
# KeypadCalc — texts that cannot be written

JSON can name any code point of a text by an escape, and so half of a surrogate pair without its
other half. A program may hold such a text, compare it and add to it; but there is no form for it in
bytes, so that it cannot be sent on. `RawText` is a text as it is read: `whole`, which is all that
the program makes itself, or `torn`, with a lone surrogate in it.
-/

namespace KeypadCalc

/-- A code point: a character, or half of a surrogate pair. -/
inductive Text.Point where
  | char (c : Char)
  | surrogate (n : Fin 0x800)
  deriving DecidableEq, Repr

namespace Text.Point

/-- Whether a point is half of a pair. -/
def isSurrogate : Point → Bool
  | .char _ => false
  | .surrogate _ => true

/-- The point with a number; one that is none has the replacement character. -/
def ofNat (n : Nat) : Point :=
  if h : 0xD800 ≤ n ∧ n < 0xE000 then .surrogate ⟨n - 0xD800, by omega⟩ else .char (Char.ofNat n)

/-- The character that is shown for a code point. -/
def shown : Point → Char
  | .char c => c
  | .surrogate _ => '\uFFFD'

/-- How a point is written between quotes. -/
def escaped (quote : Char) : Point → List Char
  | .char c => escapeChar quote c
  | .surrogate n => codePointEscape (0xD800 + n)

end Text.Point

open Text (Point)

/-- A text as it is read. -/
inductive RawText where
  | whole (s : String)
  | torn (points : List Point) (lone : points.any Point.isSurrogate = true)
  deriving DecidableEq, Repr

namespace RawText

instance : Coe String RawText := ⟨whole⟩

instance : Inhabited RawText := ⟨whole ""⟩

/-- A text from its points, which is torn if one of them is half of a pair. -/
def ofPoints (points : List Point) : RawText :=
  if h : points.any Point.isSurrogate = true then torn points h
  else whole (String.ofList (points.map Point.shown))

/-- Whether a text has no halves of pairs. -/
def isWhole : RawText → Bool
  | whole _ => true
  | torn .. => false

/-- The text with the replacement character for every lone surrogate. -/
def shown : RawText → String
  | whole s => s
  | torn points _ => String.ofList (points.map Point.shown)

/-- A text with another one in front of it. -/
def prepend (front : String) : RawText → RawText
  | whole s => whole (front ++ s)
  | torn points lone => torn (front.toList.map .char ++ points) (by simp [lone])

/-- How a message names a text. -/
def quoted : RawText → String
  | whole s => Text.quoted s
  | torn points _ =>
    let quote := Text.quoteFor (points.map Point.shown)
    String.ofList (quote :: points.flatMap (Point.escaped quote) ++ [quote])

@[simp] theorem isWhole_whole (s : String) : (whole s).isWhole = true := rfl

@[simp] theorem shown_whole (s : String) : (whole s).shown = s := rfl

@[simp] theorem prepend_whole (front s : String) : (whole s).prepend front = whole (front ++ s) := rfl

/-- What stands in front does not mend a text. -/
@[simp] theorem isWhole_prepend (front : String) (t : RawText) :
    (t.prepend front).isWhole = t.isWhole := by
  cases t <;> rfl

example : (ofPoints [.char 'a', .surrogate 0]).quoted = "'a\\ud800'" := by decide +kernel

end RawText

end KeypadCalc
