import DocTags.Number.Binary64

/-!
# The shortest decimal of a floating point number

A finite number is written with the fewest significant digits that read back as the same number;
of two such decimals the nearer one is taken.  Positional notation is used for decimal exponents
from -4 up to 15, and scientific notation outside them.
-/

namespace DocTags.Binary64

/-- A positive decimal `0.d₁d₂… * 10 ^ point`, its digits as one number. -/
structure Decimal where
  digits : Nat
  size : Nat
  point : Int
  deriving DecidableEq, Repr

/-- The number a decimal stands for. -/
def Decimal.read (d : Decimal) : Binary64 :=
  ofDecimal false d.digits (d.point - d.size)

/-- The least `point` with `num / den < 10 ^ point`, for a quotient between `10 ^ -330` and
`10 ^ 330`. -/
def pointOf (num den : Nat) : Int :=
  if den ≤ num then ((List.range 330).find? fun k => num < den * Nat.pow 10 k).getD 330
  else 1 - (((List.range 330).find? fun k => den ≤ num * Nat.pow 10 k).getD 330 : Nat)

/-- The decimal of `size` digits nearest to `num / den` among its two neighbours that read back as
`x`. -/
def nearestReading? (x : Binary64) (num den size : Nat) (point : Int) : Option Decimal :=
  let shift : Int := size - point
  let n := if shift < 0 then num else num * Nat.pow 10 shift.toNat
  let d := if shift < 0 then den * Nat.pow 10 (-shift).toNat else den
  let low : Decimal := ⟨n / d, size, point⟩
  let high : Decimal := ⟨n / d + 1, size, point⟩
  match low.read == x, high.read == x with
  | true, true =>
    let r := 2 * (n % d)
    some (if r < d then low else if d < r then high else if low.digits % 2 = 0 then low else high)
  | true, false => some low
  | false, true => some high
  | false, false => none

/-- The fewest digits that read back as the positive finite number `x`. -/
def shortest (x : Binary64) : Decimal :=
  let num := x.mantissa * Nat.pow 2 (x.scale - 1074)
  let den := Nat.pow 2 (1074 - x.scale)
  let point := pointOf num den
  let sizes := (List.range 17).map (· + 1)
  (sizes.findSome? fun size => nearestReading? x num den size point).getD ⟨num / den, 17, point⟩

/-- Drops the zeros at the end of a list of digits. -/
def trimZeros (ds : List Char) : List Char :=
  (ds.reverse.dropWhile (· == '0')).reverse

/-- Lays out significant digits around the decimal point. -/
def layout (ds : List Char) (point : Int) : List Char :=
  let exponent := point - 1
  if -4 ≤ exponent && exponent < 16 then
    if point ≤ 0 then '0' :: '.' :: List.replicate (-point).toNat '0' ++ ds
    else
      let n := point.toNat
      let whole := ds.take n ++ List.replicate (n - ds.length) '0'
      let rest := ds.drop n
      whole ++ '.' :: (if rest.isEmpty then ['0'] else rest)
  else
    let tail := ds.drop 1
    let power := Nat.toDigits 10 exponent.natAbs
    ds.take 1 ++ (if tail.isEmpty then [] else '.' :: tail) ++
      ['e', if exponent < 0 then '-' else '+'] ++ (if power.length < 2 then '0' :: power else power)

/-- The text of a floating point number. -/
def text (x : Binary64) : String :=
  if x.isNaN then "nan"
  else
    let body :=
      if x.isInfinite then "inf".toList
      else if x.isZero then "0.0".toList
      else
        let d := shortest (ofMagnitude false (x.bits.toNat % Nat.pow 2 63))
        let ds := Nat.toDigits 10 d.digits
        -- a neighbour may have one digit more than its grid
        layout (trimZeros ds) (d.point + ds.length - d.size)
    String.ofList (if x.isNegative then '-' :: body else body)

end DocTags.Binary64
