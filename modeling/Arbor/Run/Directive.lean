import Arbor.Text.Utf8
import Arbor.Number.Notation

/-! Directives of a format: flags, width and precision, and how they lay out a number, a character
or a text. -/

namespace Arbor.Run

/-- What stands between the percent sign and the verb. -/
structure Directive where
  minus : Bool := false
  plus : Bool := false
  space : Bool := false
  sharp : Bool := false
  zero : Bool := false
  width : Option Nat := none
  precision : Option Nat := none
deriving DecidableEq

namespace Directive

/-- What a directive is applied to. -/
inductive Arg where
  | int (n : Int64)
  | char (n : Int32)
  | float (x : Float)
  | text (t : Text)

def setFlag? (d : Directive) (b : UInt8) : Option Directive :=
  match b with
  | 45 => some { d with minus := true }
  | 43 => some { d with plus := true }
  | 32 => some { d with space := true }
  | 35 => some { d with sharp := true }
  | 48 => some { d with zero := true }
  | _ => none

def flags (d : Directive) : Text → Directive × Text
  | [] => (d, [])
  | b :: t =>
    match d.setFlag? b with
    | some d => flags d t
    | none => (d, b :: t)

def isOverlong (digits : Text) : Bool :=
  match Text.toNat? digits.dropLast with
  | some n => 1000000 < n
  | none => false

/-- How the text between percent sign and verb reads. -/
inductive Reading where
  | whole (d : Directive)
  | strayPoint (d : Directive) (rest : Text)
  | overlong

def read (spec : Text) : Reading :=
  let (d, t) := flags {} spec
  let width := t.takeWhile Text.isDigit
  if isOverlong width then .overlong
  else
    let d := { d with width := Text.toNat? width }
    match t.dropWhile Text.isDigit with
    | [] => .whole d
    | _ :: t =>
      let places := t.takeWhile Text.isDigit
      if isOverlong places then .overlong
      else
        let d := { d with precision := some ((Text.toNat? places).getD 0) }
        match t.dropWhile Text.isDigit with
        | [] => .whole d
        | _ :: rest => .strayPoint d rest

def pad (d : Directive) (t : Text) : Text :=
  match d.width with
  | none => t
  | some w =>
    let missing := w - t.runeCount
    if d.minus then t ++ Text.spaces missing
    else List.replicate missing (if d.zero then 48 else 32) ++ t

def zeroFill (count : Nat) (digits : Text) : Text :=
  List.replicate (count - digits.length) 48 ++ digits

def sign (d : Directive) (negative : Bool) : Text :=
  if negative then [45] else if d.plus then [43] else if d.space then [32] else []

def leastDigits (d : Directive) (negative : Bool) : Nat :=
  match d.precision with
  | some p => p
  | none =>
    if d.zero && !d.minus then
      (d.width.getD 0) - (if negative || d.plus || d.space then 1 else 0)
    else 0

/-- An integer in a base. The sharp flag shows the base: `mark` for base 16, a zero for base 8.
Zero with precision 0 has no digits at all. -/
def integer (d : Directive) (base : Nat) (digits mark : Text) (n : Int64) : Text :=
  let negative := n < 0
  let magnitude := n.toInt.natAbs
  if d.precision = some 0 && magnitude = 0 then Text.spaces (d.width.getD 0)
  else
    let shown := zeroFill (d.leastDigits negative) (Text.inBase digits base magnitude)
    let based :=
      if d.sharp && base = 16 then mark ++ shown
      else if d.sharp && base = 8 && shown.head? ≠ some 48 then 48 :: shown
      else shown
    { d with zero := false }.pad (d.sign negative ++ based)

def char (d : Directive) (n : Int32) : Text :=
  let code := n.toInt
  let known := 0 ≤ code && Rune.isScalar code.toNat
  d.pad (Rune.encode (if known then code.toNat else Rune.replacementCode))

def text (d : Directive) (t : Text) : Text :=
  match d.precision with
  | none => d.pad t
  | some p => d.pad (Text.ofRunes (t.runes.take p))

def isMark (b : UInt8) : Bool := b == 101 || b == 69

def significant (t : Text) : Nat := ((t.filter (· != 46)).dropWhile (· == 48)).length

def pointed (count : Int) (t : Text) : Text :=
  let number := t.takeWhile fun b => !isMark b
  let tail := t.dropWhile fun b => !isMark b
  let hasPoint := number.contains 46
  let present : Int := significant number + (if !hasPoint && number == [48] then 1 else 0)
  number ++ (if hasPoint then [] else [46]) ++ List.replicate (count - present).toNat 48 ++ tail

/-- A float. Without a precision `usual` digits are meant, or the fewest that read back. What is
no number is never filled with zeros. -/
def float (d : Directive) (form : FloatForm) (mark : UInt8) (usual : Option Nat) (x : Float) :
    Text :=
  let precision := d.precision <|> usual
  match Double.ofBits x.toBits with
  | .nan => { d with zero := false }.pad (d.sign false ++ "NaN")
  | .infinite negative =>
    let sign : Text := if negative then [45] else if d.space && !d.plus then [32] else [43]
    { d with zero := false }.pad (sign ++ "Inf")
  | .finite negative m e =>
    let digits := Double.magnitude form mark precision m e
    let count : Int := match form with
      | .fitting => (precision.getD 6 : Nat)
      | _ => 0
    let digits := if d.sharp then pointed count digits else digits
    let sign := d.sign negative
    if sign.isEmpty then d.pad digits
    else if d.zero && !d.minus then
      sign ++ zeroFill ((d.width.getD 0) - 1) digits
    else d.pad (sign ++ digits)

def plain (d : Directive) : Arg → Text
  | .int n => d.integer 10 Text.lowerHex [] n
  | .char n => d.integer 10 Text.lowerHex [] n.toInt64
  | .float x => d.float .fitting 101 none x
  | .text t => d.text t

def apply (d : Directive) (verb : UInt8) : Arg → Text
  | .char n => d.char n
  | .text t => d.text t
  | .int n =>
    if verb == 120 then d.integer 16 Text.lowerHex "0x" n
    else if verb == 88 then d.integer 16 Text.upperHex "0X" n
    else if verb == 111 then d.integer 8 Text.lowerHex [] n
    else d.integer 10 Text.lowerHex [] n
  | .float x =>
    if verb == 101 then d.float .scientific 101 (some 6) x
    else if verb == 69 then d.float .scientific 69 (some 6) x
    else if verb == 103 then d.float .fitting 101 none x
    else if verb == 71 then d.float .fitting 69 none x
    else d.float .positional 101 (some 6) x

def Arg.typeName : Arg → Text
  | .int _ => "int64"
  | .char _ => "int32"
  | .float _ => "float64"
  | .text _ => "string"

def render (spec : Text) (verb : UInt8) (arg : Arg) : Text :=
  match read spec with
  | .whole d => d.apply verb arg
  | .strayPoint d rest =>
    "%!.(" ++ arg.typeName ++ "=" ++ d.plain arg ++ ")" ++ rest ++ [verb]
  | .overlong =>
    "%!(NOVERB)%!(EXTRA " ++ arg.typeName ++ "=" ++ ({} : Directive).plain arg ++ ")"

end Directive

end Arbor.Run
