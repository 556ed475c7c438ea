import Arbor.Text.Cells

/-! Blocks of lines, each padded to the widest. There a flag, a picture shown in colour and a
syllable put together from parts count as a whole, and sequences that control a terminal take no
room. -/

namespace Arbor.Text

def narrowRanges : CodeRanges := .ofHex "2ffc-3 1f0"

def colourlessRanges : CodeRanges := .ofHex "3030 d 25a 2 1bf69 35 29-5"

def isWideInBlock (n : Nat) : Bool := wideRanges.contains n && !narrowRanges.contains n

def shownCells (c : ClusterClass) (n : Nat) : Nat :=
  match c with
  | .control | .cr | .lf | .extend | .joiner => 0
  | .flag => 2
  | .pictograph => if isWideInBlock n && !colourlessRanges.contains n then 2 else 1
  | _ =>
    if n == 0x2E3A then 3
    else if n == 0x2E3B then 4
    else if isWideInBlock n then 2
    else 1

def shownCluster : List Rune → Nat
  | [] => 0
  | r :: rest =>
    let first := ClusterClass.ofCode r.code
    let width := shownCells first r.code
    match first with
    | .pictograph =>
      rest.foldl (fun w q => if q.code == 0xFE0E then 1 else if q.code == 0xFE0F then 2 else w)
        width
    | .flag | .leadJamo => width
    | _ => rest.foldl (fun w q => w + shownCells (.ofCode q.code) q.code) width

def firstCluster (t : Text) : List Rune :=
  match t.runes with
  | [] => []
  | r :: rest =>
    r :: (clusterRest (fun q : Rune => .ofCode q.code) (.start (.ofCode r.code)) rest).1

/-- Where a place is among the sequences that control a terminal. -/
inductive Control where
  | ground
  | escape
  | intermediate
  | parameters
  /-- A text for the terminal follows; a bell may end it. -/
  | message (bell : Bool)
deriving DecidableEq

namespace Control

def anywhere? (b : UInt8) : Option Control :=
  if b == 0x1B then some .escape
  else if b == 0x9B then some .parameters
  else if b == 0x9D then some (.message true)
  else if b == 0x90 || b == 0x98 || b == 0x9E || b == 0x9F then some (.message false)
  else if b == 0x18 || b == 0x1A || 0x80 ≤ b then some .ground
  else none

def next (s : Control) (b : UInt8) : Control :=
  match anywhere? b with
  | some s => s
  | none =>
    match s with
    | .ground => .ground
    | .escape =>
      if b < 0x20 || b == 0x7F then .escape
      else if b < 0x30 then .intermediate
      else if b == 91 then .parameters
      else if b == 93 then .message true
      else if b == 80 || b == 88 || b == 94 || b == 95 then .message false
      else .ground
    | .intermediate => if b < 0x30 || b == 0x7F then .intermediate else .ground
    | .parameters => if b < 0x40 || b == 0x7F then .parameters else .ground
    | .message bell => if bell && b == 7 then .ground else .message bell

end Control

/-- The cells of a text after its first `skip` bytes. A byte that begins a code point beyond ASCII
begins a cluster and ends any sequence before it. -/
def shownFrom (s : Control) : Nat → Text → Nat
  | _, [] => 0
  | skip + 1, _ :: t => shownFrom s skip t
  | 0, b :: t =>
    if 0xC2 ≤ b && b ≤ 0xF4 then
      let c := firstCluster (b :: t)
      shownCluster c + shownFrom .ground ((ofRunes c).length - 1) t
    else
      (if s == .ground && 0x20 ≤ b && b < 0x7F then 1 else 0) + shownFrom (s.next b) 0 t

def shownWidth (t : Text) : Nat := shownFrom .ground 0 t

def block (t : Text) : Text :=
  let spaced := t.flatMap fun b => if b == 9 then spaces 4 else [b]
  let parts := Text.splitByte 10 spaced
  match parts with
  | [_] => spaced
  | _ =>
    let widest := (parts.map shownWidth).foldl max 0
    lines (parts.map fun line => line ++ spaces (widest - shownWidth line))

end Arbor.Text
