import Arbor.IR.Store
import Arbor.Number.Notation

/-! Values of a running program and the arithmetic on them. -/

namespace Arbor.Run

open IR

/-- A value. Integers of every width are kept in 64 bits; an address is an object and an offset. -/
inductive Value where
  | int (n : Int64)
  | float (x : Float)
  | null
  | ptr (object : Nat) (offset : Nat)
  | func (handle : Handle)
  | absent

def wrap (w : Width) (n : Int64) : Int64 :=
  match w with
  | .w1 => n &&& 1
  | .w8 => n.toInt8.toInt64
  | .w16 => n.toInt16.toInt64
  | .w32 => n.toInt32.toInt64
  | .w64 => n

def zeroExtend (w : Width) (n : Int64) : Int64 :=
  match w with
  | .w64 => n
  | w => n &&& ((Nat.pow 2 w.bits : Int) - 1).toInt64

def signExtend (w : Width) (n : Int64) : Int64 :=
  match w with
  | .w1 => if n = 0 then 0 else -1
  | _ => n

def ofBool (b : Bool) : Int64 := if b then 1 else 0

def truncate (x : Float) : Int64 :=
  if -9223372036854775808.0 ≤ x && x < 9223372036854775808.0 then x.toInt64 else Int64.minValue

namespace Value

def toInt : Value → Int64
  | .int n => n
  | .float x => truncate x
  | .ptr object offset => (object.toInt64 <<< 32) ||| offset.toInt64
  | _ => 0

def toFloat : Value → Float
  | .float x => x
  | .int n => n.toFloat
  | _ => 0

def zeroOf : Ty → Value
  | .int _ => .int 0
  | .float _ => .float 0
  | .ptr _ => .null
  | _ => .absent

def text : Value → Text
  | .int n => Text.ofInt n.toInt
  | .float x => Double.shortText x.toBits
  | .null => "\x7b<nil> 0\x7d"
  | .ptr object offset =>
    "\x7b0x" ++ Text.inBase Text.lowerHex 16 object ++ " " ++ Text.ofNat offset ++ "\x7d"
  | .func h => Text.ofNat h
  | .absent => "<nil>"

end Value

def roundTo (t : Ty) (x : Float) : Float :=
  match t with
  | .float .single => x.toFloat32.toFloat
  | _ => x

def intOp (op : IntOp) (x y : Int64) : Option Int64 :=
  match op with
  | .add => some (x + y)
  | .sub => some (x - y)
  | .mul => some (x * y)
  | .sdiv => if y = 0 then none else some (x / y)
  | .srem => if y = 0 then none else some (x % y)
  | .and => some (x &&& y)
  | .or => some (x ||| y)
  | .xor => some (x ^^^ y)
  | .shl => some (x <<< (y &&& 63))
  | .ashr => some (x >>> (y &&& 63))

def remainder (x y : Float) : Float :=
  match Double.ofBits x.toBits, Double.ofBits y.toBits with
  | .finite negative m e, .finite _ n f =>
    if n = 0 then 0.0 / 0.0
    else
      let low := min e f
      let r := (m * Nat.pow 2 (e - low).toNat) % (n * Nat.pow 2 (f - low).toNat)
      let magnitude := (Float.ofNat r).scaleB low
      if negative then -magnitude else magnitude
  | .finite .., .infinite _ => x
  | _, _ => 0.0 / 0.0

def floatOp (op : FloatOp) (x y : Float) : Float :=
  match op with
  | .fadd => x + y
  | .fsub => x - y
  | .fmul => x * y
  | .fdiv => x / y
  | .frem => remainder x y

def compareInts (c : Comparison) (x y : Int64) : Bool :=
  match c with
  | .eq => x = y
  | .ne => x ≠ y
  | .gt => y < x
  | .ge => y ≤ x
  | .lt => x < y
  | .le => x ≤ y

def compareFloats (c : Comparison) (x y : Float) : Bool :=
  match c with
  | .eq => x == y
  | .ne => x < y || y < x
  | .gt => y < x
  | .ge => y ≤ x
  | .lt => x < y
  | .le => x ≤ y

def constantFloat (bits : UInt64) : Float :=
  match Double.ofBits bits with
  | .nan => if bits &&& 0x8000000000000000 == 0 then 0 else -1
  | _ => Float.ofBits bits

end Arbor.Run
