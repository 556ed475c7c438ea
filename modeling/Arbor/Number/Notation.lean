import Arbor.Number.Decimal
import Arbor.Text

/-! Doubles written in decimal: with an exponent, with a fixed number of places, or in whichever of
the two is fitting. -/

namespace Arbor

namespace Decimal

def digitAt (d : Decimal) (i : Int) : UInt8 :=
  if i < 0 then 48 else 48 + (d.digits.getD i.toNat 0).toUInt8

def scientific (mark : UInt8) (places : Nat) (d : Decimal) : Text :=
  let fraction := (List.range places).map fun i => d.digitAt (Int.ofNat i + 1)
  let exponent : Int := if d.digits.isEmpty then 0 else d.point - 1
  let size := Text.ofNat exponent.natAbs
  d.digitAt 0 :: (if places = 0 then [] else 46 :: fraction)
    ++ [mark, if exponent < 0 then 45 else 43]
    ++ (if exponent.natAbs < 10 then 48 :: size else size)

def positional (places : Nat) (d : Decimal) : Text :=
  let whole := (List.range d.point.toNat).map fun i => d.digitAt (Int.ofNat i)
  let fraction := (List.range places).map fun i => d.digitAt (d.point + Int.ofNat i)
  (if whole.isEmpty then [48] else whole) ++ (if places = 0 then [] else 46 :: fraction)

def fitting (mark : UInt8) (limit most : Nat) (d : Decimal) : Text :=
  let count := d.digits.length
  let exponent := d.point - 1
  if exponent < -4 || (limit : Int) ≤ exponent then
    scientific mark (min most count - 1) d
  else
    let shown : Int := if d.point < most then count else most
    positional (shown - d.point).toNat d

end Decimal

/-- The three ways to write a double. -/
inductive FloatForm where
  | scientific | positional | fitting
deriving DecidableEq

namespace Double

def special? : Double → Option Text
  | .nan => some "NaN"
  | .infinite false => some "+Inf"
  | .infinite true => some "-Inf"
  | .finite .. => none

/-- The digits of a finite magnitude in a form: the fewest that read back when no precision is
given, else as many as the precision asks for. `mark` introduces the exponent. -/
def magnitude (form : FloatForm) (mark : UInt8) (precision : Option Nat)
    (mantissa : Nat) (exponent : Int) : Text :=
  let (num, den) := quotient mantissa exponent
  match precision, form with
  | none, .scientific =>
    let d := Decimal.shortest mantissa exponent
    d.scientific mark (d.digits.length - 1)
  | none, .positional =>
    let d := Decimal.shortest mantissa exponent
    d.positional ((d.digits.length : Int) - d.point).toNat
  | none, .fitting =>
    let d := Decimal.shortest mantissa exponent
    d.fitting mark 6 d.digits.length
  | some p, .scientific => (Decimal.toDigits num den (p + 1)).scientific mark p
  | some p, .positional => (Decimal.toPlaces num den p).positional p
  | some p, .fitting =>
    let p := if p = 0 then 1 else p
    let d := Decimal.toDigits num den p
    let count := d.digits.length
    let limit := if count < p && d.point ≤ count then count else p
    d.fitting mark limit p

def write (form : FloatForm) (mark : UInt8) (precision : Option Nat) (x : Double) : Text :=
  match x with
  | .finite negative m e =>
    (if negative then [45] else []) ++ magnitude form mark precision m e
  | x => x.special?.getD []

def shortText (bits : UInt64) : Text := write .fitting 101 none (ofBits bits)

end Double

end Arbor
