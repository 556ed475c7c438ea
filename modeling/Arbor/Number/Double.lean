/-! The number that the bits of a double stand for. -/

namespace Arbor

/-- A double read from its bits. A finite one is `mantissa * 2 ^ exponent`, up to its sign. -/
inductive Double where
  | nan
  | infinite (negative : Bool)
  | finite (negative : Bool) (mantissa : Nat) (exponent : Int)
deriving DecidableEq

namespace Double

def ofBits (bits : UInt64) : Double :=
  let n := bits.toNat
  let negative := 0x8000000000000000 ≤ n
  let exponent : Nat := n / 0x10000000000000 % 2048
  let fraction := n % 0x10000000000000
  if exponent = 2047 then
    if fraction = 0 then .infinite negative else .nan
  else if exponent = 0 then .finite negative fraction (-1074)
  else .finite negative (fraction + 0x10000000000000) ((exponent : Int) - 1075)

def quotient (mantissa : Nat) (exponent : Int) : Nat × Nat :=
  if 0 ≤ exponent then (mantissa * Nat.pow 2 exponent.toNat, 1)
  else (mantissa, Nat.pow 2 (-exponent).toNat)

end Double

end Arbor
