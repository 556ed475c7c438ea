import Arbor.Text

/-! Reading code points out of a text. A byte that starts no well-formed sequence stands for one
replacement character and is kept as it was. -/

namespace Arbor

/-- One code point of a text together with the bytes it was read from. -/
structure Rune where
  code : Nat
  bytes : Text
deriving DecidableEq, Repr

namespace Rune

def replacementCode : Nat := 0xFFFD

def bad (b : UInt8) : Rune := ⟨replacementCode, [b]⟩

def isBad (r : Rune) : Bool := r.code == replacementCode && r.bytes.length == 1

private def isTail (b : UInt8) : Bool := 0x80 ≤ b && b ≤ 0xBF

def pair? (a b : UInt8) : Option Rune :=
  if 0xC2 ≤ a && a ≤ 0xDF && isTail b then
    some ⟨(a.toNat - 0xC0) * 64 + (b.toNat - 0x80), [a, b]⟩
  else none

def triple? (a b c : UInt8) : Option Rune :=
  if 0xE0 ≤ a && a ≤ 0xEF && isTail b && isTail c
      && !(a == 0xE0 && b < 0xA0) && !(a == 0xED && b > 0x9F) then
    some ⟨(a.toNat - 0xE0) * 4096 + (b.toNat - 0x80) * 64 + (c.toNat - 0x80), [a, b, c]⟩
  else none

def quad? (a b c d : UInt8) : Option Rune :=
  if 0xF0 ≤ a && a ≤ 0xF4 && isTail b && isTail c && isTail d
      && !(a == 0xF0 && b < 0x90) && !(a == 0xF4 && b > 0x8F) then
    some ⟨(a.toNat - 0xF0) * 262144 + (b.toNat - 0x80) * 4096 + (c.toNat - 0x80) * 64
      + (d.toNat - 0x80), [a, b, c, d]⟩
  else none

def encode (n : Nat) : Text :=
  let tail (k : Nat) : UInt8 := (0x80 + k % 64).toUInt8
  if n < 0x80 then [n.toUInt8]
  else if n < 0x800 then [(0xC0 + n / 64).toUInt8, tail n]
  else if n < 0x10000 then [(0xE0 + n / 4096).toUInt8, tail (n / 64), tail n]
  else [(0xF0 + n / 262144).toUInt8, tail (n / 4096), tail (n / 64), tail n]

def ofCode (n : Nat) : Rune := ⟨n, encode n⟩

def isScalar (n : Nat) : Bool := n < 0xD800 || (0xE000 ≤ n && n ≤ 0x10FFFF)

end Rune

namespace Text

def firstRune (a : UInt8) (rest : Text) : Rune :=
  if a < 0x80 then ⟨a.toNat, [a]⟩
  else
    let two := match rest with
      | b :: _ => Rune.pair? a b
      | _ => none
    let three := match rest with
      | b :: c :: _ => Rune.triple? a b c
      | _ => none
    let four := match rest with
      | b :: c :: d :: _ => Rune.quad? a b c d
      | _ => none
    ((two <|> three) <|> four).getD (Rune.bad a)

def runesAfter : Nat → Text → List Rune
  | _, [] => []
  | skip + 1, _ :: rest => runesAfter skip rest
  | 0, a :: rest =>
    let r := firstRune a rest
    r :: runesAfter (r.bytes.length - 1) rest

def runes (t : Text) : List Rune := runesAfter 0 t

def ofRunes (rs : List Rune) : Text := rs.flatMap Rune.bytes

def runeCount (t : Text) : Nat := t.runes.length

def scrubbed (t : Text) : Text := t.runes.flatMap fun r => Rune.encode r.code

def isBlank (n : Nat) : Bool :=
  (9 ≤ n && n ≤ 13) || n == 0x20 || n == 0x85 || n == 0xA0 || n == 0x1680
    || (0x2000 ≤ n && n ≤ 0x200A) || n == 0x2028 || n == 0x2029 || n == 0x202F
    || n == 0x205F || n == 0x3000

def trim (t : Text) : Text :=
  let blank (r : Rune) : Bool := isBlank r.code
  ofRunes ((t.runes.dropWhile blank).reverse.dropWhile blank).reverse

end Text

end Arbor
