import Arbor.Calendar
import Arbor.Text.Utf8

/-! The scalars of TOML documents: numbers, moments in time and strings with escapes, each checked
on the text that spells it. -/

namespace Arbor.Toml

def isBlank (b : UInt8) : Bool := b == 32 || b == 9

def isBreak (b : UInt8) : Bool := b == 10 || b == 13

def hexDigit? (b : UInt8) : Option Nat :=
  if Text.isDigit b then some (b.toNat - 48)
  else if 97 ≤ b && b ≤ 102 then some (b.toNat - 87)
  else if 65 ≤ b && b ≤ 70 then some (b.toNat - 55)
  else none

def isHex (b : UInt8) : Bool := (hexDigit? b).isSome

/-! ### Numbers -/

/-- Whether a digit stands on both sides of each separator; `after` says whether one was just
passed. The last byte must be a digit too. -/
def isSeparated (after : Bool) : Text → Bool
  | [] => after
  | b :: t => if b == 95 && !after then false else isSeparated (isHex b) t

def isSign (b : UInt8) : Bool := b == 43 || b == 45

def hasIdleZero : Text → Bool
  | 48 :: b :: _ => b != 98 && b != 111 && b != 120
  | s :: 48 :: _ :: _ => isSign s
  | _ => false

def digitsIn? (base : Nat) (t : Text) : Option Nat :=
  let digits := t.filter (· != 95)
  if digits.isEmpty then none
  else digits.foldlM (fun n b => do
    let d ← hexDigit? b
    if d < base then some (n * base + d) else none) 0

def magnitude? : Text → Option Nat
  | 48 :: 120 :: t => digitsIn? 16 t
  | 48 :: 111 :: t => digitsIn? 8 t
  | 48 :: 98 :: t => digitsIn? 2 t
  | t => digitsIn? 10 t

def splitSign : Text → Bool × Text
  | 45 :: t => (true, t)
  | 43 :: t => (false, t)
  | t => (false, t)

def integer? (t : Text) : Option Int := do
  if !isSeparated false t || hasIdleZero t then none
  let (negative, body) := splitSign t
  let n ← magnitude? body
  let n : Int := if negative then -n else n
  if -0x8000000000000000 ≤ n && n < 0x8000000000000000 then some n else none

def isFinite (m : Nat) (e : Int) : Bool :=
  let bound : Nat := Nat.pow 2 1024 - Nat.pow 2 970
  let size : Int := (Nat.toDigits 10 m).length + e
  if m = 0 || size < 300 then true
  else if 320 < size then false
  else if 0 ≤ e then m * Nat.pow 10 e.toNat < bound
  else m < bound * Nat.pow 10 (-e).toNat

def isDecimal (t : Text) : Bool :=
  let whole := t.takeWhile Text.isDigit
  let rest := t.dropWhile Text.isDigit
  let (fraction, rest) := match rest with
    | 46 :: t => (t.takeWhile Text.isDigit, t.dropWhile Text.isDigit)
    | t => ([], t)
  let power : Option Int := match rest with
    | [] => some 0
    | m :: t =>
      if m == 101 || m == 69 then
        let (negative, digits) := splitSign t
        (Text.toNat? digits).map fun n => if negative then -(n : Int) else n
      else none
  match Text.toNat? (whole ++ fraction), power with
  | some m, some e => isFinite m (e - fraction.length)
  | _, _ => false

def pieces (cut : UInt8 → Bool) (t : Text) : List Text :=
  (t.splitBy fun a b => cut a == cut b).filter fun piece => !piece.any cut

def pointsHold : Text → Bool
  | [] => true
  | [b] => b != 46
  | b :: c :: t => (b != 46 || Text.isDigit c) && pointsHold (c :: t)

def isSpecial (t : Text) : Bool :=
  (splitSign t).2 = Text.ofString "inf" || (splitSign t).2 = Text.ofString "nan"

def isFloat (t : Text) : Bool :=
  let parts := pieces (fun b => b == 46 || b == 101 || b == 69) t
  isSpecial t ||
    (parts.all (isSeparated false) && !(parts.head?.any hasIdleZero) && pointsHold t
      && isDecimal (splitSign (t.filter (· != 95))).2)

/-! ### Moments -/

def two? (most : Nat) : Text → Option (Nat × Text)
  | a :: b :: t => do
    let n ← Text.toNat? [a, b]
    if n ≤ most then some (n, t) else none
  | _ => none

def byte? (b : UInt8) : Text → Option Text
  | c :: t => if c == b then some t else none
  | [] => none

def daysIn (year month : Nat) : Nat :=
  if month = 2 then
    if year % 4 = 0 && (year % 100 ≠ 0 || year % 400 = 0) then 29 else 28
  else if month = 4 || month = 6 || month = 9 || month = 11 then 30
  else 31

def date? (t : Text) : Option Text := do
  let year ← if t.length < 4 then none else Text.toNat? (t.take 4)
  let t ← byte? 45 (t.drop 4)
  let (month, t) ← two? 12 t
  let t ← byte? 45 t
  let (day, t) ← two? 31 t
  if month = 0 || day = 0 || daysIn year month < day then none else some t

def hour? (t : Text) : Option Text :=
  match t with
  | a :: b :: _ =>
    if Text.isDigit b then (two? 23 t).map Prod.snd
    else if Text.isDigit a then some (t.drop 1) else none
  | _ => none

def time? (t : Text) : Option Text := do
  let t ← byte? 58 (← hour? t)
  let (_, t) ← two? 59 t
  let t ← byte? 58 t
  let (_, t) ← two? 59 t
  match t with
  | 46 :: b :: u => some (if Text.isDigit b then u.dropWhile Text.isDigit else t)
  | _ => some t

def zone? : Text → Option Text
  | 90 :: t => some t
  | s :: t => do
    if !isSign s then none
    let (_, t) ← two? 24 t
    let t ← byte? 58 t
    let (_, t) ← two? 60 t
    some t
  | [] => none

def atEnd : Option Text → Bool
  | some [] => true
  | _ => false

def isMoment (t : Text) : Bool :=
  let t := t.map fun b => if b == 122 then 90 else if b == 116 || b == 32 then 84 else b
  let dateTime := (date? t).bind fun t => (byte? 84 t).bind time?
  atEnd (dateTime.bind zone?) || atEnd dateTime || atEnd (date? t) || atEnd (time? t)

/-! ### Strings -/

def dropFirstBreak : Text → Text
  | 10 :: t => t
  | 13 :: 10 :: t => t
  | t => t

def isSpace (b : UInt8) : Bool := isBlank b || isBreak b

/-- Takes out each backslash at the end of a line with the blanks and line breaks after it. `gone`
says that this is going on. -/
def joinLines (gone : Bool) : Text → Text
  | [] => []
  | b :: t =>
    if gone && isSpace b then joinLines true t
    else if b == 92 then
      if (t.takeWhile isSpace).contains 10 then joinLines true t
      else match t with
        | 92 :: u => 92 :: 92 :: joinLines false u
        | u => 92 :: joinLines false u
    else b :: joinLines false t

def scalar? (digits : Text) : Option Text := do
  let n ← digitsIn? 16 digits
  if digits.all isHex && Rune.isScalar n then some (Rune.encode n) else none

def unescape? : Text → Option Text
  | 92 :: 117 :: a :: b :: c :: d :: t => do
    some ((← scalar? [a, b, c, d]) ++ (← unescape? t))
  | 92 :: 85 :: a :: b :: c :: d :: e :: f :: g :: h :: t => do
    some ((← scalar? [a, b, c, d, e, f, g, h]) ++ (← unescape? t))
  | 92 :: m :: t => do
    let b ← [(98, 8), (116, 9), (110, 10), (102, 12), (114, 13), (34, 34), (92, 92)].lookup m
    some (b :: (← unescape? t))
  | [92] => none
  | b :: t => (unescape? t).map (b :: ·)
  | [] => some []

end Arbor.Toml
