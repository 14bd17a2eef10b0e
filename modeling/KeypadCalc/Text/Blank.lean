/-!
# KeypadCalc — blank characters

Which characters count as space between the parts of an expression, and what is left of a text when
the blanks at its two ends are taken away. The set is the white space of the Unicode standard with
the four information separators `U+001C` to `U+001F` added; numbers in settings and in remote
answers have white space alone around them.
-/

namespace KeypadCalc.Text

def isWhiteSpace (c : Char) : Bool :=
  let n := c.toNat
  (9 ≤ n && n ≤ 13) || n == 0x20 || n == 0x85 || n == 0xA0 || n == 0x1680
    || (0x2000 ≤ n && n ≤ 0x200A) || n == 0x2028 || n == 0x2029 || n == 0x202F || n == 0x205F
    || n == 0x3000

/-- One of the four characters that separate units of information. -/
def isInformationSeparator (c : Char) : Bool :=
  0x1C ≤ c.toNat && c.toNat ≤ 0x1F

/-- A character that separates tokens and never belongs to one. -/
def isBlank (c : Char) : Bool :=
  isWhiteSpace c || isInformationSeparator c

/-- The characters between the first and the last one that is not of a class. -/
def trimBy (p : Char → Bool) (cs : List Char) : List Char :=
  ((cs.dropWhile p).reverse.dropWhile p).reverse

/-- The characters between the first and the last one that is not blank. -/
def trimChars (cs : List Char) : List Char :=
  trimBy isBlank cs

def trim (s : String) : String :=
  String.ofList (trimChars s.toList)

theorem toList_trim (s : String) : (trim s).toList = trimChars s.toList := by
  simp [trim]

theorem isBlank_of_isWhitespace {c : Char} (h : c.isWhitespace = true) : isBlank c = true := by
  simp only [Char.isWhitespace, Bool.or_eq_true, decide_eq_true_eq] at h
  rcases h with ((rfl | rfl) | rfl) | rfl <;> decide

end KeypadCalc.Text
