import Arbor.Text

/-! MessagePack: self-describing binary values. -/

namespace Arbor.Msgpack

/-- A value. Integers keep how many bytes they are written with, 0 for those that share the byte of
their code. A map whose keys are not texts, and an extension, fit nothing that is read here. -/
inductive Item where
  | nil
  | bool (b : Bool)
  | int (bytes : Nat) (n : Int)
  | float (bits : UInt64)
  | text (t : Text)
  | list (items : List Item)
  | map (entries : List (Text × Item))
  | other
deriving Inhabited

/-- The bits of the double that a float of single precision stands for. What is not a number keeps
its sign and payload and becomes quiet. -/
def widen (bits : Nat) : UInt64 :=
  let fraction := bits % 0x800000
  if bits / 0x800000 % 256 = 255 && fraction ≠ 0 then
    (bits / 0x80000000 * 0x8000000000000000 + 0x7FF8000000000000
      + fraction % 0x400000 * 0x20000000).toUInt64
  else (Float32.ofBits bits.toUInt32).toFloat.toBits

/-! ## Reading -/

def takeBytes? : Nat → Text → Option (Text × Text)
  | 0, t => some ([], t)
  | _ + 1, [] => none
  | n + 1, b :: t => (takeBytes? n t).map fun (taken, rest) => (b :: taken, rest)

def takeNat? (n : Nat) (t : Text) : Option (Nat × Text) :=
  (takeBytes? n t).map fun (bytes, rest) => (bytes.foldl (fun k b => k * 256 + b.toNat) 0, rest)

/-- What a code announces. -/
inductive Head where
  | item (i : Item)
  | unsigned (bytes : Nat)
  | signed (bytes : Nat)
  | single
  | double
  | text (length : Nat)
  | textAfter (bytes : Nat)
  | list (length : Nat)
  | listAfter (bytes : Nat)
  | map (length : Nat)
  | mapAfter (bytes : Nat)
  | extension (length : Nat)
  | extensionAfter (bytes : Nat)

def head? (code : Nat) : Option Head :=
  if code < 0x80 then some (.item (.int 0 code))
  else if code < 0x90 then some (.map (code - 0x80))
  else if code < 0xA0 then some (.list (code - 0x90))
  else if code < 0xC0 then some (.text (code - 0xA0))
  else if 0xE0 ≤ code then some (.item (.int 0 ((code : Int) - 256)))
  else match code with
    | 0xC0 => some (.item .nil)
    | 0xC2 => some (.item (.bool false))
    | 0xC3 => some (.item (.bool true))
    | 0xC4 | 0xD9 => some (.textAfter 1)
    | 0xC5 | 0xDA => some (.textAfter 2)
    | 0xC6 | 0xDB => some (.textAfter 4)
    | 0xC7 => some (.extensionAfter 1)
    | 0xC8 => some (.extensionAfter 2)
    | 0xC9 => some (.extensionAfter 4)
    | 0xCA => some .single
    | 0xCB => some .double
    | 0xCC => some (.unsigned 1)
    | 0xCD => some (.unsigned 2)
    | 0xCE => some (.unsigned 4)
    | 0xCF => some (.unsigned 8)
    | 0xD0 => some (.signed 1)
    | 0xD1 => some (.signed 2)
    | 0xD2 => some (.signed 4)
    | 0xD3 => some (.signed 8)
    | 0xD4 => some (.extension 1)
    | 0xD5 => some (.extension 2)
    | 0xD6 => some (.extension 4)
    | 0xD7 => some (.extension 8)
    | 0xD8 => some (.extension 16)
    | 0xDC => some (.listAfter 2)
    | 0xDD => some (.listAfter 4)
    | 0xDE => some (.mapAfter 2)
    | 0xDF => some (.mapAfter 4)
    | _ => none

def toSigned (bytes n : Nat) : Int :=
  if n < Nat.pow 2 (8 * bytes - 1) then n else (n : Int) - Nat.pow 2 (8 * bytes)

def mapOf : List Item → Item
  | .text key :: value :: rest =>
    match mapOf rest with
    | .map entries => .map ((key, value) :: entries)
    | broken => broken
  | .nil :: _ :: rest => mapOf rest
  | [] => .map []
  | _ => .other

mutual

def readItem : Nat → Text → Option (Item × Text)
  | 0, _ => none
  | _, [] => none
  | fuel + 1, code :: t => do
    match ← head? code.toNat with
    | .item i => pure (i, t)
    | .unsigned bytes =>
      let (n, t) ← takeNat? bytes t
      pure (.int bytes n, t)
    | .signed bytes =>
      let (n, t) ← takeNat? bytes t
      pure (.int bytes (toSigned bytes n), t)
    | .single =>
      let (n, t) ← takeNat? 4 t
      pure (.float (widen n), t)
    | .double =>
      let (n, t) ← takeNat? 8 t
      pure (.float n.toUInt64, t)
    | .text length =>
      let (s, t) ← takeBytes? length t
      pure (.text s, t)
    | .textAfter bytes =>
      let (length, t) ← takeNat? bytes t
      let (s, t) ← takeBytes? length t
      pure (.text s, t)
    | .list length =>
      let (items, t) ← readItems fuel length t
      pure (.list items, t)
    | .listAfter bytes =>
      let (length, t) ← takeNat? bytes t
      let (items, t) ← readItems fuel length t
      pure (.list items, t)
    | .map length =>
      let (items, t) ← readItems fuel (2 * length) t
      pure (mapOf items, t)
    | .mapAfter bytes =>
      let (length, t) ← takeNat? bytes t
      let (items, t) ← readItems fuel (2 * length) t
      pure (mapOf items, t)
    | .extension length =>
      let (_, t) ← takeBytes? (length + 1) t
      pure (.other, t)
    | .extensionAfter bytes =>
      let (length, t) ← takeNat? bytes t
      let (_, t) ← takeBytes? (length + 1) t
      pure (.other, t)

def readItems : Nat → Nat → Text → Option (List Item × Text)
  | _, 0, t => some ([], t)
  | 0, _ + 1, _ => none
  | fuel + 1, count + 1, t => do
    let (item, t) ← readItem fuel t
    let (items, t) ← readItems fuel count t
    pure (item :: items, t)

end

def read (t : Text) : Option (Item × Text) := readItem (2 * t.length + 2) t

/-! ## Writing -/

def natBytes : Nat → Nat → Text
  | 0, _ => []
  | n + 1, k => natBytes n (k / 256) ++ [(k % 256).toUInt8]

/-- The shortest header for a length: in the code itself below `few`, else after one of the codes
for 1, 2 and 4 bytes; without a code for 1 byte that size is skipped. -/
def lengthHeader (base few : Nat) (one : Option UInt8) (two four : UInt8) (n : Nat) : Text :=
  let wide := if n < 0x10000 then two :: natBytes 2 n else four :: natBytes 4 n
  if n < few then [(base + n).toUInt8]
  else match one with
    | some code => if n < 256 then code :: natBytes 1 n else wide
    | none => wide

def writeInt (bytes : Nat) (n : Int) : Text :=
  match bytes with
  | 0 => [(n % 256).toNat.toUInt8]
  | 1 => 0xCC :: natBytes 1 n.toNat
  | 2 => 0xCD :: natBytes 2 n.toNat
  | 4 => 0xCE :: natBytes 4 n.toNat
  | _ => 0xCF :: natBytes 8 n.toNat

def writeText (t : Text) : Text := lengthHeader 0xA0 32 (some 0xD9) 0xDA 0xDB t.length ++ t

mutual

def write : Item → Text
  | .nil => [0xC0]
  | .bool b => [if b then 0xC3 else 0xC2]
  | .int bytes n => writeInt bytes n
  | .float bits => 0xCB :: natBytes 8 bits.toNat
  | .text t => writeText t
  | .list items => lengthHeader 0x90 16 none 0xDC 0xDD items.length ++ writeAll items
  | .map entries => lengthHeader 0x80 16 none 0xDE 0xDF entries.length ++ writeEntries entries
  | .other => [0xC0]

def writeAll : List Item → Text
  | [] => []
  | i :: rest => write i ++ writeAll rest

def writeEntries : List (Text × Item) → Text
  | [] => []
  | (key, i) :: rest => writeText key ++ write i ++ writeEntries rest

end

end Arbor.Msgpack
