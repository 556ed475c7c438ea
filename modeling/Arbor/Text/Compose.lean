import Arbor.Text.Canonical
import Arbor.Text.CodeRanges
import Arbor.Text.Utf8
import Std.Data.HashMap

/-! Composed form of texts (NFC): two spellings of the same characters become one, so that names
can be compared by their bytes. -/

namespace Arbor.Text

def pairs : List Nat → List (Nat × Nat)
  | a :: b :: rest => (a, b) :: pairs rest
  | _ => []

def letterRows (s : String) : List (List Nat) :=
  ((ofString s).splitByte 44).filterMap fun row =>
    (cut " " row).map fun (n, letters) => hexValue n :: letters.runes.map Rune.code

def compositions : List ((Nat × Nat) × Nat) :=
  (letterRows accents ++ hexRows composites).flatMap fun row =>
    (pairs (row.drop 1)).map fun (base, c) => ((base, row.headD 0), c)

def decompositions : List (Nat × List Nat) :=
  compositions.map (fun ((base, mark), c) => (c, [base, mark])) ++
    (hexRows exclusions).map (fun row => (row.headD 0, row.drop 1)) ++
    (letterRows singletons).flatMap fun row => (row.drop 1).zipIdx.map fun (part, i) => (row.headD 0 + i, [part])

def splits : Std.HashMap Nat (List Nat) := .ofList decompositions

def joins : Std.HashMap (Nat × Nat) Nat := .ofList compositions

def classSets : List (Nat × CodeRanges) :=
  ((Text.ofString combiningClasses).splitByte 44).filterMap fun row =>
    (cut " " row).map fun (k, ranges) => (hexValue k, .ofText ranges)

def combiningClass (n : Nat) : Nat :=
  if n < 0x300 then 0
  else ((classSets.find? fun (_, set) => set.contains n).map Prod.fst).getD 0

def splitSyllable? (n : Nat) : Option (List Nat) :=
  if 0xAC00 ≤ n && n < 0xD7A4 then
    let i := n - 0xAC00
    let tail := if i % 28 = 0 then [] else [0x11A7 + i % 28]
    some ([0x1100 + i / 588, 0x1161 + i % 588 / 28] ++ tail)
  else none

def joinSyllable? (a b : Nat) : Option Nat :=
  if 0x1100 ≤ a && a < 0x1113 && 0x1161 ≤ b && b < 0x1176 then
    some (0xAC00 + ((a - 0x1100) * 21 + (b - 0x1161)) * 28)
  else if 0xAC00 ≤ a && a < 0xD7A4 && (a - 0xAC00) % 28 = 0 && 0x11A8 ≤ b && b < 0x11C3 then
    some (a + (b - 0x11A7))
  else none

def decompose : Nat → Nat → List Nat
  | 0, n => [n]
  | fuel + 1, n =>
    match splits[n]? with
    | some parts => parts.flatMap (decompose fuel)
    | none => (splitSyllable? n).getD [n]

/-- A code point with its combining class. What could not be read starts a character and joins
with nothing. -/
structure Mark where
  rank : Nat
  rune : Rune

namespace Mark

def ofCode (n : Nat) : Mark := ⟨combiningClass n, .ofCode n⟩

def ofRune (r : Rune) : List Mark :=
  if r.isBad then [⟨0, r⟩] else (decompose 4 r.code).map ofCode

def join? (a b : Mark) : Option Mark :=
  if a.rune.isBad || b.rune.isBad then none
  else (joins[(a.rune.code, b.rune.code)]? <|> joinSyllable? a.rune.code b.rune.code).map ofCode

end Mark

def maxMarks : Nat := 30

/-- Decomposes runes, with a joiner after every run of marks that is too long. `run` counts the
marks since the last starter. -/
def decomposeAll : Nat → List Rune → List Mark
  | _, [] => []
  | run, r :: rest =>
    let marks := Mark.ofRune r
    let isMark (m : Mark) : Bool := m.rank != 0
    let leading := (marks.takeWhile isMark).length
    let trailing := (marks.reverse.takeWhile isMark).length
    if maxMarks < run + leading then
      Mark.ofCode 0x34F :: marks ++ decomposeAll leading rest
    else marks ++ decomposeAll (if leading = 0 then trailing else run + leading) rest

def reorder : List Mark → List Mark → List Mark
  | held, [] => held.mergeSort fun a b => a.rank ≤ b.rank
  | held, m :: rest =>
    if m.rank = 0 then (held.mergeSort fun a b => a.rank ≤ b.rank) ++ m :: reorder [] rest
    else reorder (held ++ [m]) rest

/-- Joins marks to the starter before them unless another mark of the same class, or a starter,
stands between. `held` are the marks that did not join. -/
def composeFrom (starter : Mark) : List Mark → List Mark → List Mark
  | held, [] => starter :: held
  | held, m :: rest =>
    let blocked := match held.getLast? with
      | none => false
      | some last => m.rank ≤ last.rank
    match if blocked then none else starter.join? m with
    | some joined => composeFrom joined held rest
    | none =>
      if m.rank = 0 then starter :: held ++ composeFrom m [] rest
      else composeFrom starter (held ++ [m]) rest

def compose : List Mark → List Mark
  | [] => []
  | m :: rest => if m.rank = 0 then composeFrom m [] rest else m :: compose rest

def composed (t : Text) : Text :=
  if t.all (· < 0x80) then t
  else ofRunes ((compose (reorder [] (decomposeAll 0 t.runes))).map Mark.rune)

end Arbor.Text
