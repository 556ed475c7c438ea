import Arbor.Text

/-! Tables of code points, and sets given by their ranges. -/

namespace Arbor

def Text.hexRows (s : String) : List (List Nat) :=
  ((Text.ofString s).splitByte 44).map fun row => (row.splitByte 32).map Text.hexValue

/-- The closed ranges of a set of code points, in increasing order. -/
structure CodeRanges where
  ranges : Array (Nat × Nat)

namespace CodeRanges

/-- Reads `20 10-9 28-19` as the ranges 20, 30-39 and 61-7a: how far each is from the end of the one before, and
how much longer than one it is, in base 16. -/
def ofText (t : Text) : CodeRanges :=
  ⟨((t.splitByte 32).foldl (fun (last, ranges) piece =>
    let (gap, more) := ((Text.cut "-" piece).map fun (a, b) => (Text.hexValue a, Text.hexValue b)).getD
      (Text.hexValue piece, 0)
    (last + gap + more, ranges.push (last + gap, last + gap + more))) (0, #[])).2⟩

def ofHex (s : String) : CodeRanges := ofText (Text.ofString s)

def contains (s : CodeRanges) (n : Nat) : Bool :=
  s.ranges.any fun (lo, hi) => lo ≤ n && n ≤ hi

end CodeRanges

end Arbor
