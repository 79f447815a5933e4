/-!
# Double-precision numbers

An IEEE 754 number is kept by its bits, so equality is decidable and reading a decimal is exact
arithmetic on naturals: a decimal is read as the nearest double, a tie going to the even neighbour.
Sums and products are exact on fractions and rounded once in the same way.
-/

namespace SourceLens

/-- A double-precision number, by its 64 bits. -/
structure Double where
  bits : UInt64
  deriving DecidableEq, Repr

namespace Double

def isNegative (x : Double) : Bool := Nat.pow 2 63 ≤ x.bits.toNat

def magnitude (x : Double) : Nat := x.bits.toNat % Nat.pow 2 63

/-- The magnitude of infinity; larger magnitudes are not numbers. -/
def infinite : Nat := 0x7ff * Nat.pow 2 52

def isNaN (x : Double) : Bool := infinite < x.magnitude

/-- Whether the number is plus or minus infinity. -/
def isInfinite (x : Double) : Bool := x.magnitude = infinite

/-- The double with the given sign and magnitude. -/
def ofMagnitude (negative : Bool) (magnitude : Nat) : Double :=
  { bits := UInt64.ofNat (magnitude % Nat.pow 2 63 + if negative then Nat.pow 2 63 else 0) }

def infinity (negative : Bool) : Double := ofMagnitude negative infinite

def nan : Double := ofMagnitude false (infinite + Nat.pow 2 51)

/-- A fraction of naturals. -/
structure Fraction where
  num : Nat
  den : Nat

def Fraction.ofDecimal (m : Nat) (e : Int) : Fraction :=
  if 0 ≤ e then ⟨m * Nat.pow 10 e.toNat, 1⟩ else ⟨m, Nat.pow 10 (-e).toNat⟩

def Fraction.ofBinary (m : Nat) (e : Int) : Fraction :=
  if 0 ≤ e then ⟨m * Nat.pow 2 e.toNat, 1⟩ else ⟨m, Nat.pow 2 (-e).toNat⟩

def Fraction.scale (f : Fraction) (e : Int) : Fraction :=
  if 0 ≤ e then ⟨f.num, f.den * Nat.pow 2 e.toNat⟩ else ⟨f.num * Nat.pow 2 (-e).toNat, f.den⟩

/-- The quotient of a fraction rounded to the nearest natural, a tie going to the even one. -/
def Fraction.round (f : Fraction) : Nat :=
  let whole := f.num / f.den
  let twice := 2 * (f.num % f.den)
  if f.den < twice || (f.den == twice && whole % 2 == 1) then whole + 1 else whole

/-- The exponent of the last bit that a double near the fraction keeps. -/
def Fraction.lastBit (f : Fraction) : Int :=
  let guess : Int := (Nat.log2 f.num : Int) - (Nat.log2 f.den : Int) - 52
  let scaled := f.scale guess
  let exact := if scaled.num / scaled.den < Nat.pow 2 52 then guess - 1 else guess
  max exact (-1074)

/-- The magnitude nearest to a positive fraction; infinity when the fraction is too large. -/
def Fraction.nearest (f : Fraction) : Nat :=
  let e := f.lastBit
  min ((e + 1074).toNat * Nat.pow 2 52 + (f.scale e).round) infinite

def ofDecimal (negative : Bool) (m : Nat) (e : Int) : Double :=
  let width := Nat.log2 m / 3 + 2
  if m = 0 || e + width < -330 then ofMagnitude negative 0
  else if 330 < e then infinity negative
  else ofMagnitude negative (Fraction.ofDecimal m e).nearest

def toFraction (x : Double) : Fraction :=
  let exponent : Nat := x.magnitude / Nat.pow 2 52
  let mantissa : Nat := x.magnitude % Nat.pow 2 52
  if exponent = 0 then Fraction.ofBinary mantissa (-1074)
  else Fraction.ofBinary (Nat.pow 2 52 + mantissa) ((exponent : Int) - 1075)

def Fraction.add (f g : Fraction) : Fraction := ⟨f.num * g.den + g.num * f.den, f.den * g.den⟩

def Fraction.mul (f g : Fraction) : Fraction := ⟨f.num * g.num, f.den * g.den⟩

def ofFraction (f : Fraction) : Double := ofMagnitude false (if f.num = 0 then 0 else f.nearest)

def ofNat (n : Nat) : Double := ofFraction ⟨n, 1⟩

/-- The sum of two doubles that are not negative. The fraction of infinity is larger than any finite
double, so that it and all that is larger round to infinity again. -/
def add (x y : Double) : Double := ofFraction (x.toFraction.add y.toFraction)

/-- The product of two doubles that are not negative; if one is infinite the other is at least
one. -/
def mul (x y : Double) : Double := ofFraction (x.toFraction.mul y.toFraction)

/-- The double with the magnitude of another and the given sign. -/
def withSign (negative : Bool) (x : Double) : Double := ofMagnitude negative x.magnitude

/-- The integer that a double equals, if it equals one. -/
def toInt? (x : Double) : Option Int :=
  let f := x.toFraction
  if infinite ≤ x.magnitude || f.num % f.den ≠ 0 then none
  else
    let whole : Nat := f.num / f.den
    some (if x.isNegative then -(whole : Int) else whole)

end Double

end SourceLens
