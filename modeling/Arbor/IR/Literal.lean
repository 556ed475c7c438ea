import Arbor.IR.Spelling
import Arbor.Number.Notation

/-! How constants are written in the textual representation. -/

namespace Arbor.IR

namespace Literal

def variety (digits : Text) (base : Nat) : Float :=
  Float.ofNat digits.eraseDups.length / Float.ofNat (min digits.length base)

def roundVariety (length : Nat) : Float :=
  if length < 4 then 0
  else if length ≤ 6 then 2 / Float.ofNat length
  else if length ≤ 10 then 3 / Float.ofNat length
  else 4 / Float.ofNat (min length 16)

/-- A number is written in base 16 when it looks rounder there: few different digits, and clearly
fewer than in base 10. -/
def isRounderInHex (n : Nat) : Bool :=
  let hex := Text.inBase Text.upperHex 16 n
  let h := variety hex 16
  let d := variety (Text.ofNat n) 10
  4096 ≤ n && h ≤ roundVariety hex.length + 0.01 && h + 0.2 ≤ d

def int (n : Int) : Text :=
  if 0 ≤ n && isRounderInHex n.toNat then "u0x" ++ Text.inBase Text.upperHex 16 n.toNat
  else Text.ofInt n

def withPoint (t : Text) : Text :=
  if t.contains 46 then t
  else match Text.cut "e" t with
    | some (whole, exponent) => whole ++ ".0e" ++ exponent
    | none => t ++ ".0"

def double (bits : UInt64) : Text :=
  let hex : Text := "0x" ++ Text.inBase Text.upperHex 16 bits.toNat
  match Double.ofBits bits with
  | .finite _ m e =>
    let (num, den) := Double.quotient m e
    if (Decimal.shortest m e).isExactly num den then withPoint (Double.shortText bits) else hex
  | _ => hex

end Literal

namespace Store

def textName (index : Nat) : Text := if index = 0 then ".str" else ".str." ++ Text.ofNat index

def textOf (s : Store) (module : Handle) (index : Nat) : Text :=
  (((s.module? module).map ModuleInfo.texts).bind (·[index]?)).getD []

def textTy (t : Text) : Ty := .array (t.length + 1) .i8

def constText (s : Store) : Const → Text
  | .int .w1 v => if v = 0 then "false" else "true"
  | .int _ v => Literal.int v.toInt
  | .float _ bits => Literal.double bits
  | .null _ => "null"
  | .zero _ => "zeroinitializer"
  | .text m i =>
    let ty := s.tyText (textTy (s.textOf m i))
    "getelementptr (" ++ ty ++ ", " ++ ty ++ "* @" ++ Spelling.valueName (textName i)
      ++ ", i64 0, i64 0)"

end Store

end Arbor.IR
