import Arbor.Number.Double

/-! Decimal digits of quotients and doubles, computed exactly. -/

namespace Arbor

/-- The number `0.d₁d₂… * 10 ^ point` with digits most significant first and no zeros at the end;
zero has no digits. -/
structure Decimal where
  digits : List Nat := []
  point : Int := 0
deriving DecidableEq

namespace Decimal

def roundDiv (num den : Nat) : Nat :=
  let q := num / den
  let twice := 2 * (num % den)
  if twice < den then q
  else if den < twice then q + 1
  else if q % 2 = 0 then q else q + 1

def digitsOf (n : Nat) : List Nat := (Nat.toDigits 10 n).map fun c => c.toNat - 48

def shiftUp (num den : Nat) : Nat → Nat → Nat
  | 0, k => k
  | fuel + 1, k => if den ≤ num * Nat.pow 10 k then k else shiftUp num den fuel (k + 1)

def pointOf (num den : Nat) : Int :=
  if den ≤ num then (digitsOf (num / den)).length
  else 1 - (shiftUp num den 400 1 : Nat)

def scale (num den : Nat) (k : Int) : Nat × Nat :=
  if 0 ≤ k then (num * Nat.pow 10 k.toNat, den) else (num, den * Nat.pow 10 (-k).toNat)

def ofScaled (n : Nat) (k : Int) : Decimal :=
  if n = 0 then {}
  else
    let ds := digitsOf n
    { digits := (ds.reverse.dropWhile (· = 0)).reverse, point := ds.length - k }

def toDigits (num den count : Nat) : Decimal :=
  if num = 0 then {}
  else
    let k := (count : Int) - pointOf num den
    let (n, d) := scale num den k
    ofScaled (roundDiv n d) k

def toPlaces (num den places : Nat) : Decimal :=
  let (n, d) := scale num den places
  ofScaled (roundDiv n d) places

/-- Whether `n * 10 ^ (-k)` lies between the quotients `lo / den` and `hi / den`; the ends count
when `closed` is set. -/
def isBetween (lo hi den n : Nat) (k : Int) (closed : Bool) : Bool :=
  let (l, d) := scale lo den k
  let (h, _) := scale hi den k
  if closed then l ≤ n * d && n * d ≤ h else l < n * d && n * d < h

/-- The best decimal with `count` digits or more, `fuel` counts tried, that reads back as the
double between whose neighbours' midpoints `lo` and `hi` the value `v` lies, all over `den`. -/
def shortestFrom (v lo hi den : Nat) (point : Int) (closed : Bool) : Nat → Nat → Decimal
  | 0, count => toDigits v den count
  | fuel + 1, count =>
    let k := (count : Int) - point
    let (n, d) := scale v den k
    let below := n / d
    let fitsBelow := below ≠ 0 && isBetween lo hi den below k closed
    let fitsAbove := isBetween lo hi den (below + 1) k closed
    match fitsBelow, fitsAbove with
    | true, true => ofScaled (roundDiv n d) k
    | true, false => ofScaled below k
    | false, true => ofScaled (below + 1) k
    | false, false => shortestFrom v lo hi den point closed fuel (count + 1)

def shortest (mantissa : Nat) (exponent : Int) : Decimal :=
  if mantissa = 0 then {}
  else
    let (v, den) := Double.quotient (4 * mantissa) (exponent - 2)
    let unit := v / (4 * mantissa)
    let isEdge := mantissa = 0x10000000000000 && -1074 < exponent
    shortestFrom v (v - (if isEdge then unit else 2 * unit)) (v + 2 * unit) den (pointOf v den)
      (mantissa % 2 = 0) 17 1

def isExactly (d : Decimal) (num den : Nat) : Bool :=
  let n := d.digits.foldl (fun n k => n * 10 + k) 0
  let (a, b) := scale n 1 (d.point - d.digits.length)
  a * den == num * b

end Decimal

end Arbor
