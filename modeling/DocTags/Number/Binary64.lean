/-!
# Binary floating point numbers

A floating point value is its 64 bits.  Reading a decimal rounds it to the nearest representable
number, ties to the even one, in exact integer arithmetic; comparisons are exact too, so a number
can be compared with an integer of any size.
-/

namespace DocTags

/-- A binary floating point number of 64 bits: one sign bit, eleven exponent bits and 52 fraction
bits. -/
structure Binary64 where
  bits : UInt64
  deriving DecidableEq, Repr, Inhabited

namespace Binary64

/-- The fraction bits. -/
def fraction (x : Binary64) : Nat := x.bits.toNat % Nat.pow 2 52

/-- The exponent bits. -/
def exponent (x : Binary64) : Nat := x.bits.toNat / Nat.pow 2 52 % Nat.pow 2 11

/-- `true` when the sign bit is set, on zero and on `nan` too. -/
def isNegative (x : Binary64) : Bool := Nat.pow 2 63 ≤ x.bits.toNat

def isNaN (x : Binary64) : Bool := x.exponent == 2047 && x.fraction != 0

def isInfinite (x : Binary64) : Bool := x.exponent == 2047 && x.fraction == 0

/-- The magnitude of a finite number is `mantissa * 2 ^ (scale - 1074)`. -/
def mantissa (x : Binary64) : Nat :=
  if x.exponent = 0 then x.fraction else Nat.pow 2 52 + x.fraction

def scale (x : Binary64) : Nat := x.exponent - 1

/-- A finite number is `units / 2 ^ 1074`. -/
def units (x : Binary64) : Int :=
  let m : Int := x.mantissa * Int.pow 2 x.scale
  if x.isNegative then -m else m

/-- Equality of numbers: both zeros are equal and `nan` differs from everything. -/
def equal (x y : Binary64) : Bool :=
  if x.isNaN || y.isNaN then false
  else
    x.bits == y.bits ||
      (x.mantissa == 0 && y.mantissa == 0 && x.exponent == 0 && y.exponent == 0)

/-- Equality with an integer, exact for integers of any size. -/
def equalInt (x : Binary64) (n : Int) : Bool :=
  x.exponent != 2047 && x.units == n * Int.pow 2 1074

/-- `true` on the two zeros. -/
def isZero (x : Binary64) : Bool := x.exponent == 0 && x.fraction == 0

/-- Puts a sign in front of the bits of a magnitude. -/
def ofMagnitude (negative : Bool) (bits : Nat) : Binary64 :=
  ⟨UInt64.ofNat (if negative then Nat.pow 2 63 + bits else bits)⟩

/-- The bits of infinity. -/
def infinityBits : Nat := 2047 * Nat.pow 2 52

/-- `num / den` rounded to the nearest integer, ties to the even one. -/
def roundDiv (num den : Nat) : Nat :=
  let q := num / den
  let r := num % den
  if 2 * r < den then q else if den < 2 * r then q + 1 else if q % 2 = 0 then q else q + 1

/-- The bits of the number nearest to the positive quotient `num / den`. -/
def nearestBits (num den : Nat) : Nat :=
  -- the exponent for which the rounded quotient has 53 bits, or the least one there is
  let guess : Int := (Nat.log2 num : Int) - Nat.log2 den - 53
  let scaled (e : Int) : Nat × Nat :=
    if e < 0 then (num * Nat.pow 2 (-e).toNat, den) else (num, den * Nat.pow 2 e.toNat)
  let top := (scaled guess).1 / (scaled guess).2
  let e := max (-1074) (if top < Nat.pow 2 53 then guess else guess + 1)
  let m := roundDiv (scaled e).1 (scaled e).2
  let bits := if m < Nat.pow 2 52 then m else (e + 1074).toNat * Nat.pow 2 52 + m
  min bits infinityBits

/-- The number nearest to `digits * 10 ^ exponent`, with the given sign. -/
def ofDecimal (negative : Bool) (digits : Nat) (exponent : Int) : Binary64 :=
  if digits = 0 then ofMagnitude negative 0
  else
    let magnitude : Int := (Nat.toDigits 10 digits).length + exponent
    if 310 < magnitude then ofMagnitude negative infinityBits
    else if magnitude < -330 then ofMagnitude negative 0
    else if exponent < 0 then
      ofMagnitude negative (nearestBits digits (Nat.pow 10 (-exponent).toNat))
    else ofMagnitude negative (nearestBits (digits * Nat.pow 10 exponent.toNat) 1)

end Binary64
end DocTags
