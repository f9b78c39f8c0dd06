/-!
# The shortest decimal text of a binary number

Numbers `mantissa * 2 ^ exponent` with a mantissa of at most 53 bits and an exponent of at least -1074: which of them is
nearest to a decimal number, and the decimal number of fewest digits to which one is nearest.  All arithmetic is on
natural numbers and exact.
-/
namespace Accessors

def twoTo (n : Nat) : Nat := Nat.pow 2 n

def tenTo (n : Nat) : Nat := Nat.pow 10 n

/-- A non-negative number in the format of 64 bits. -/
structure Binary64 where
  mantissa : Nat
  exponent : Int
deriving DecidableEq

/-- A non-negative decimal number `coefficient * 10 ^ exponent`. -/
structure Decimal where
  coefficient : Nat
  exponent : Int
deriving DecidableEq

namespace Binary64

def zero : Binary64 := ⟨0, -1074⟩

/-- The natural number nearest to a quotient; of two equally near ones the even one. -/
def roundQuotient (num den : Nat) : Nat :=
  let q := num / den
  let twice := 2 * (num % den)
  if twice < den then q
  else if twice > den then q + 1
  else if q % 2 = 0 then q else q + 1

/-- The quotient `num / den` in units of `2 ^ e`, as a quotient. -/
def inUnits (num den : Nat) (e : Int) : Nat × Nat :=
  if 0 ≤ e then (num, den * twoTo e.toNat) else (num * twoTo (-e).toNat, den)

/-- The number nearest to a positive quotient; absent where that would need too large an exponent. -/
def ofQuotient? (num den : Nat) : Option Binary64 :=
  let least : Int := max (Int.ofNat num.log2 - Int.ofNat den.log2 - 53) (-1074)
  let units := inUnits num den least
  let e := if units.1 / units.2 < twoTo 53 then least else least + 1
  let units := inUnits num den e
  let m := roundQuotient units.1 units.2
  let rounded : Binary64 := if m = twoTo 53 then ⟨twoTo 52, e + 1⟩ else ⟨m, e⟩
  if rounded.exponent > 971 then none else some rounded

/-- The number nearest to a decimal number; absent where that is too large.  Far outside the range of exponents nothing
is computed. -/
def ofDecimal? (d : Decimal) : Option Binary64 :=
  let magnitude := Int.ofNat (toString d.coefficient).length + d.exponent
  if d.coefficient = 0 ∨ magnitude < -400 then some zero
  else if magnitude > 400 then none
  else if 0 ≤ d.exponent then ofQuotient? (d.coefficient * tenTo d.exponent.toNat) 1
  else ofQuotient? d.coefficient (tenTo (-d.exponent).toNat)

/-- All numbers that round to a given one lie between two bounds, which are its half ways to its neighbours and belong
to the range only if the mantissa is even.  Everything is in units of `1 / den`. -/
structure Range where
  low : Nat
  value : Nat
  high : Nat
  den : Nat
  closed : Bool

def range (x : Binary64) : Range :=
  let unit := twoTo x.exponent.toNat
  let below := if x.mantissa = twoTo 52 ∧ -1074 < x.exponent then 1 else 2
  { low := (4 * x.mantissa - below) * unit
    value := 4 * x.mantissa * unit
    high := (4 * x.mantissa + 2) * unit
    den := 4 * twoTo (-x.exponent).toNat
    closed := x.mantissa % 2 = 0 }

/-- A decimal number as a quotient over the denominator of a range, times the first component. -/
def Range.scaled (r : Range) (d : Decimal) : Nat × Nat :=
  if 0 ≤ d.exponent then (1, d.coefficient * tenTo d.exponent.toNat * r.den)
  else (tenTo (-d.exponent).toNat, d.coefficient * r.den)

def Range.contains (r : Range) (d : Decimal) : Bool :=
  let (k, n) := r.scaled d
  if r.closed then k * r.low ≤ n && n ≤ k * r.high else k * r.low < n && n < k * r.high

/-- The power of ten that the value of a range is at least, and ten times which it is less than. -/
def Range.magnitude (r : Range) : Int :=
  if r.den ≤ r.value then Int.ofNat (toString (r.value / r.den)).length - 1
  else -(Int.ofNat (toString ((r.den - 1) / r.value)).length)

/-- The next power of ten behind the numbers of so many digits, as a number of as many digits. -/
def carried (digits : Nat) (d : Decimal) : Decimal :=
  if d.coefficient = tenTo digits then ⟨d.coefficient / 10, d.exponent + 1⟩ else d

/-- Of the two decimal numbers next to the value on the grid of so many digits, the one that rounds to it; of both, the
nearer one, and the greater one where they are equally near. -/
def Range.onGrid? (r : Range) (digits : Nat) : Option Decimal :=
  let e : Int := r.magnitude - Int.ofNat digits + 1
  let below := if 0 ≤ e then r.value / (r.den * tenTo e.toNat) else r.value * tenTo (-e).toNat / r.den
  let down : Decimal := ⟨below, e⟩
  let up : Decimal := ⟨below + 1, e⟩
  match r.contains down, r.contains up with
  | true, true =>
    let (k, n) := r.scaled down
    let (_, n') := r.scaled up
    some (if n' - k * r.value ≤ k * r.value - n then carried digits up else down)
  | true, false => some down
  | false, true => some (carried digits up)
  | false, false => none

/-- The decimal number of fewest digits that rounds to the given number.  Seventeen digits always do. -/
def shortest (x : Binary64) : Decimal :=
  if x.mantissa = 0 then ⟨0, 0⟩
  else ((List.range 17).findSome? fun n => x.range.onGrid? (n + 1)).getD ⟨0, 0⟩

end Binary64

/-- A decimal number with its point in place and at least one digit on either side of it. -/
def Decimal.text (d : Decimal) : String :=
  let digits := toString d.coefficient
  if 0 ≤ d.exponent then digits ++ String.ofList (List.replicate d.exponent.toNat '0') ++ ".0"
  else
    let places := (-d.exponent).toNat
    let padded := List.replicate (places + 1 - digits.length) '0' ++ digits.toList
    String.ofList (padded.take (padded.length - places)) ++ "." ++ String.ofList (padded.drop (padded.length - places))

end Accessors
