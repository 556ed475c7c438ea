import Arbor.Text

/-! Colours and weights of a terminal. -/

namespace Arbor

/-- An attribute of text: the number that turns it on, and the one that turns it off. -/
structure Style where
  on : Nat
  off : Nat := 0
deriving DecidableEq

namespace Style

def bold : Style := ⟨1, 22⟩
def faint : Style := ⟨2, 22⟩
def red : Style := { on := 31 }
def green : Style := { on := 32 }
def yellow : Style := { on := 33 }
def blue : Style := { on := 34 }
def cyan : Style := { on := 36 }

def sequence (numbers : List Nat) : Text :=
  "\x1b[" ++ Text.join ";" (numbers.map Text.ofNat) ++ "m"

def paint (enabled : Bool) (styles : List Style) (t : Text) : Text :=
  if enabled then sequence (styles.map on) ++ t ++ sequence (styles.map off) else t

end Style

end Arbor
