import KeypadCalc.Text.Hexadecimal
import KeypadCalc.Text.Split
import KeypadCalc.Text.Utf8

/-!
# KeypadCalc — text in addresses

A character that may not stand in an address is written as the bytes of its UTF-8 form, each as a
percent sign and two hexadecimal digits. Reading takes such triples as bytes and every other
character as its own bytes; a percent sign without two digits behind it stands for itself, and bytes
that are not UTF-8 are read as replacement characters.

The query of an address is a list of fields, in which a plus sign stands for a space.
-/

namespace KeypadCalc.Http

namespace Percent

/-- The punctuation that stands in an address as it is. -/
def plainMarks : List Char :=
  "_.-~:/%#?=@[]!$&'()*+,;".toList

def isPlain (c : Char) : Bool :=
  c.isAlphanum || plainMarks.contains c

/-- A byte as a percent sign and two digits, with letters in upper case. -/
def encodeByte (b : UInt8) : List Char :=
  '%' :: (Text.hexPadded 2 b.toNat).map Char.toUpper

def encode (cs : List Char) : List Char :=
  cs.flatMap fun c => if isPlain c then [c] else (String.utf8EncodeChar c).flatMap encodeByte

def bytes : List Char → List Nat
  | '%' :: a :: b :: rest =>
    match Text.hexDigit? a, Text.hexDigit? b with
    | some x, some y => (16 * x + y) :: bytes rest
    | _, _ => 0x25 :: bytes (a :: b :: rest)
  | c :: rest => (String.utf8EncodeChar c).map UInt8.toNat ++ bytes rest
  | [] => []

def decode (cs : List Char) : List Char :=
  Text.Utf8.decodeLenient (bytes cs)

example : encode "/a b/é".toList = "/a%20b/%C3%A9".toList := by decide +kernel

example : decode "%C3%A9%zz%2B%FF".toList = "é%zz+\uFFFD".toList := by decide +kernel

end Percent

namespace Query

def component (cs : List Char) : String :=
  String.ofList (Percent.decode (cs.map fun c => if c = '+' then ' ' else c))

/-- A field of a query: its name and its value, which is empty where no sign of equality stands. -/
def field (part : List Char) : String × String :=
  (component (part.takeWhile (· != '=')), component ((part.dropWhile (· != '=')).drop 1))

/-- The fields of a query, in order; nothing between two separators is no field. -/
def fields (query : String) : List (String × String) :=
  ((Text.split '&' query.toList).filter (!·.isEmpty)).map field

/-- The value of a field; of several with one name the last counts. -/
def value? (query name : String) : Option String :=
  (fields query).reverse.lookup name

example : fields "query=1+%2B&&query" = [("query", "1 +"), ("query", "")] := by decide +kernel

end Query

end KeypadCalc.Http
