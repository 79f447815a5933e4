import SourceLens.Decimal.Double
import SourceLens.Text.Basic

/-!
# Shortest decimals

The text of a double is the decimal with the fewest digits that reads back as the same double, and
of several such decimals the nearest. It is written positionally while its point lies close to its
digits, and with an exponent of at least two digits otherwise.
-/

namespace SourceLens.Double

def digits (n : Nat) : Text := Nat.toDigits 10 n

/-- The largest `k` with `10 ^ k` at most the fraction, for a positive fraction. -/
def Fraction.log10 (f : Fraction) : Int :=
  let guess : Int := ((digits f.num).length : Int) - ((digits f.den).length : Int)
  let power := Fraction.ofDecimal 1 guess
  if power.num * f.den ≤ f.num * power.den then guess else guess - 1

/-- Of the two decimals `d · 10 ^ e` that enclose the fraction on the grid of `10 ^ e`, the nearer
one that reads back as the magnitude. -/
def onGrid? (magnitude : Nat) (f : Fraction) (e : Int) : Option Nat :=
  let unit := Fraction.ofDecimal 1 e
  let num := f.num * unit.den
  let den := f.den * unit.num
  let low := num / den
  let high := low + 1
  let readsBack := fun d => d ≠ 0 && (Fraction.ofDecimal d e).nearest == magnitude
  let lowFirst := 2 * (num % den) < den || (2 * (num % den) == den && low % 2 == 0)
  if lowFirst then
    if readsBack low then some low else if readsBack high then some high else none
  else if readsBack high then some high
  else if readsBack low then some low
  else none

/-- Searches grids of rising fineness, `count` of them, for a decimal that reads back. -/
def shortestFrom (magnitude : Nat) (f : Fraction) : Nat → Int → Nat × Int
  | 0, e => (f.num / f.den, e)
  | count + 1, e =>
    match onGrid? magnitude f e with
    | some d => (d, e)
    | none => shortestFrom magnitude f count (e - 1)

/-- The shortest decimal `d · 10 ^ e` of a positive finite magnitude. -/
def shortest (x : Double) : Nat × Int :=
  let f := x.toFraction
  shortestFrom x.magnitude f 17 f.log10

/-- How a finite number is laid out. -/
structure Layout where
  /-- Numbers whose point stands at most this many digits to the right of their first digit are
  positional. -/
  positionalUpTo : Int
  /-- Numbers whose point stands more than this many digits to the left of their first digit have an
  exponent. -/
  exponentFrom : Int

/-- Positional from 0.0001 up to sixteen digits before the point. -/
def layout : Layout := { positionalUpTo := 16, exponentFrom := -4 }

/-- An exponent with its sign and at least two digits. -/
def exponentText (e : Int) : Text :=
  let ds := digits e.natAbs
  'e' :: (if e < 0 then '-' else '+') :: (if ds.length < 2 then '0' :: ds else ds)

/-- The text of `d · 10 ^ e` in digits `ds`, the point standing `point` digits after the first. -/
def decimalText (ds : Text) (point : Int) : Text :=
  if layout.exponentFrom < point ∧ point ≤ layout.positionalUpTo then
    if point ≤ 0 then "0.".toList ++ List.replicate (-point).toNat '0' ++ ds
    else if (ds.length : Int) ≤ point then
      ds ++ List.replicate (point.toNat - ds.length) '0' ++ ".0".toList
    else ds.take point.toNat ++ '.' :: ds.drop point.toNat
  else
    match ds with
    | [] => []
    | [c] => c :: exponentText (point - 1)
    | c :: rest => c :: '.' :: rest ++ exponentText (point - 1)

/-- The digits of a natural without the zeros at its end. -/
def significant (d : Nat) : Text := ((digits d).reverse.dropWhile (· == '0')).reverse

def magnitudeText (x : Double) : Text :=
  if x.isNaN then "nan".toList
  else if x.isInfinite then "inf".toList
  else if x.magnitude = 0 then "0.0".toList
  else
    let (d, e) := x.shortest
    decimalText (significant d) ((digits d).length + e)

/-- The text of a double. -/
def text (x : Double) : Text :=
  if x.isNegative && !x.isNaN then '-' :: x.magnitudeText else x.magnitudeText

end SourceLens.Double
