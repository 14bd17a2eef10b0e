import KeypadCalc.Binary64.Rounding
import KeypadCalc.Decimal.Text

/-!
# KeypadCalc — the shortest decimal that reads back

A double is named in a message by the decimal with the fewest digits that reads back as the same
double, and among those by the one nearest to it. Candidates are tried with one digit, two digits
and so on; seventeen always suffice. With each number of digits the nearest decimal is tried, then
its two neighbours: below a power of two doubles lie closer together than above it, so the nearest
decimal may read back as another double where the one on its other side does not. Numbers from
`10 ^ -4` up to `10 ^ 16` are written with a point and at least one digit after it, all others with
a power of ten.
-/

namespace KeypadCalc.Decimal

open Binary64 (Datum datum ofDecimal ratio)

/-- The digits and the exponent of a decimal that reads back as `x = m · 2 ^ e`, with the first of
the widths `places + 1`, `places + 2`, … that has one; `fuel` widths are tried before the last. -/
def shortestFrom (x : Float) (m : Nat) (e : Int) (places : Nat) : Nat → Nat × Int
  | 0 => significand places (ratio m e).1 (ratio m e).2
  | fuel + 1 =>
    let (n, e10) := significand places (ratio m e).1 (ratio m e).2
    match [n, n + 1, n - 1].find? fun k => ofDecimal false k (e10 - places) == x with
    | some k => (k, e10)
    | none => shortestFrom x m e (places + 1) fuel

/-- Digits with a point after the first `k` of them; where `k` is not positive, zeros lead. -/
def positional (ds : List Char) (k : Int) : List Char :=
  let whole := ds.take k.toNat ++ List.replicate (k.toNat - ds.length) '0'
  let part := List.replicate (-k).toNat '0' ++ ds.drop k.toNat
  (if whole.isEmpty then ['0'] else whole) ++ '.' :: (if part.isEmpty then ['0'] else part)

/-- The text of a positive double from its shortest digits. -/
def shortestText (n : Nat) (e10 : Int) : List Char :=
  let ds := dropFinalZeros (digits n)
  if -4 ≤ e10 ∧ e10 < 16 then positional ds (e10 + 1)
  else
    (match ds with
      | [] => []
      | [d] => [d]
      | d :: rest => d :: '.' :: rest) ++ exponentText 2 e10

/-- The shortest text of a double that reads back as it. -/
def shortest (x : Float) : String :=
  match datum x with
  | .nan => "nan"
  | .infinite negative => if negative then "-inf" else "inf"
  | .finite negative m e =>
    let body := if m = 0 then "0.0".toList
      else
        let (n, e10) := shortestFrom x.abs m e 0 16
        shortestText n e10
    String.ofList (if negative then '-' :: body else body)

end KeypadCalc.Decimal
