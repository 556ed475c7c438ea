/-! Text as a sequence of bytes. Names, string literals and program output come from files that
need not be UTF-8, so every text of the library is a list of bytes, and string literals coerce to
it. -/

namespace Arbor

abbrev Text := List UInt8

namespace Text

def ofString (s : String) : Text := s.toUTF8.toList

instance : Coe String Text := ⟨ofString⟩

def toString? (t : Text) : Option String := String.fromUTF8? ⟨t.toArray⟩

def ofNat (n : Nat) : Text := n.repr

def ofInt (n : Int) : Text := n.repr

def when (b : Bool) (t : Text) : Text := if b then t else []

def join (sep : Text) : List Text → Text
  | [] => []
  | [t] => t
  | t :: rest => t ++ sep ++ join sep rest

def lines (parts : List Text) : Text := join "\n" parts

def le : Text → Text → Bool
  | [], _ => true
  | _ :: _, [] => false
  | a :: s, b :: t => if a == b then le s t else a < b

def lt (s t : Text) : Bool := !le t s

def sort (ts : List Text) : List Text := ts.mergeSort le

def dropStart? (start t : Text) : Option Text :=
  if start.isPrefixOf t then some (t.drop start.length) else none

def dropTail? (tail t : Text) : Option Text :=
  if tail.isSuffixOf t then some (t.take (t.length - tail.length)) else none

def trimTail (tail t : Text) : Text := (dropTail? tail t).getD t

def cut (sep : Text) : Text → Option (Text × Text)
  | [] => if sep.isEmpty then some ([], []) else none
  | b :: t =>
    match dropStart? sep (b :: t) with
    | some rest => some ([], rest)
    | none => (cut sep t).map fun (l, r) => (b :: l, r)

def splitByte (sep : UInt8) : Text → List Text
  | [] => [[]]
  | b :: t =>
    match splitByte sep t with
    | [] => if b == sep then [[], []] else [[b]]
    | piece :: rest => if b == sep then [] :: piece :: rest else (b :: piece) :: rest

def replaceAfter (old new : Text) : Nat → Text → Text
  | _, [] => []
  | skip + 1, _ :: t => replaceAfter old new skip t
  | 0, b :: t =>
    if old.isPrefixOf (b :: t) then new ++ replaceAfter old new (old.length - 1) t
    else b :: replaceAfter old new 0 t

def replace (old new t : Text) : Text := replaceAfter old new 0 t

def spaces (n : Nat) : Text := List.replicate n 32

def padLeft (width : Nat) (t : Text) : Text := spaces (width - t.length) ++ t

def padRight (width : Nat) (t : Text) : Text := t ++ spaces (width - t.length)

def isDigit (b : UInt8) : Bool := 48 ≤ b && b ≤ 57

def isLetter (b : UInt8) : Bool := (65 ≤ b && b ≤ 90) || (97 ≤ b && b ≤ 122)

def lowerByte (b : UInt8) : UInt8 := if 65 ≤ b && b ≤ 90 then b + 32 else b

def toNat? (t : Text) : Option Nat :=
  if t.isEmpty || !t.all isDigit then none
  else some (t.foldl (fun n b => n * 10 + (b.toNat - 48)) 0)

def lowerHex : Text := "0123456789abcdef"

def upperHex : Text := "0123456789ABCDEF"

def digitIn (digits : Text) (n : Nat) : UInt8 := digits.getD n 48

def hexByte (digits : Text) (b : UInt8) : Text :=
  [digitIn digits (b.toNat / 16), digitIn digits (b.toNat % 16)]

def hexFixed (digits : Text) : Nat → Nat → Text
  | 0, _ => []
  | width + 1, n => hexFixed digits width (n / 16) ++ [digitIn digits (n % 16)]

def inBase (digits : Text) (base n : Nat) : Text :=
  (Nat.toDigits base n).map fun c =>
    match c.isDigit with
    | true => digitIn digits (c.toNat - 48)
    | false => digitIn digits (c.toNat - 87)

def toHex (t : Text) : Text := t.flatMap (hexByte lowerHex)

def hexDigit (b : UInt8) : Nat := if isDigit b then b.toNat - 48 else b.toNat - 87

def hexValue (t : Text) : Nat := t.foldl (fun n b => n * 16 + hexDigit b) 0

def ofHex : Text → Text
  | a :: b :: rest => (hexDigit a * 16 + hexDigit b).toUInt8 :: ofHex rest
  | _ => []

end Text

end Arbor
