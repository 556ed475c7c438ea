import Arbor.Text.Utf8

/-! JSON as the program writes it: either on one line or indented by two spaces a level. -/

namespace Arbor

inductive Json where
  | null
  | bool (b : Bool)
  | int (n : Int)
  | text (t : Text)
  | list (items : List Json)
  | object (fields : List (Text × Json))

namespace Json

/-- One code point inside a string. What could be taken for markup is written by its number, and an
unreadable byte as the replacement character. -/
def escape (r : Rune) : Text :=
  if r.code == 34 || r.code == 92 then 92 :: r.bytes
  else if r.code == 8 then "\\b"
  else if r.code == 12 then "\\f"
  else if r.code == 10 then "\\n"
  else if r.code == 13 then "\\r"
  else if r.code == 9 then "\\t"
  else if r.code < 32 || r.code == 38 || r.code == 60 || r.code == 62 || r.code == 0x2028
      || r.code == 0x2029 then
    "\\u" ++ Text.hexFixed Text.lowerHex 4 r.code
  else Rune.encode r.code

def quote (t : Text) : Text := "\"" ++ t.runes.flatMap escape ++ "\""

def lineStart : Option Nat → Text
  | none => []
  | some depth => 10 :: Text.spaces (2 * depth)

def deeper (layout : Option Nat) : Option Nat := layout.map (· + 1)

mutual

def render (layout : Option Nat) : Json → Text
  | .null => "null"
  | .bool b => if b then "true" else "false"
  | .int n => Text.ofInt n
  | .text t => quote t
  | .list [] => "[]"
  | .list (i :: rest) =>
    "[" ++ lineStart (deeper layout) ++ render (deeper layout) i ++ renderItems layout rest
      ++ lineStart layout ++ "]"
  | .object [] => "\x7b\x7d"
  | .object ((key, v) :: rest) =>
    "\x7b" ++ lineStart (deeper layout) ++ renderField layout key v ++ renderFields layout rest
      ++ lineStart layout ++ "\x7d"

def renderItems (layout : Option Nat) : List Json → Text
  | [] => []
  | i :: rest =>
    "," ++ lineStart (deeper layout) ++ render (deeper layout) i ++ renderItems layout rest

def renderField (layout : Option Nat) (key : Text) (v : Json) : Text :=
  quote key ++ (if layout.isSome then ": " else ":") ++ render (deeper layout) v

def renderFields (layout : Option Nat) : List (Text × Json) → Text
  | [] => []
  | (key, v) :: rest =>
    "," ++ lineStart (deeper layout) ++ renderField layout key v ++ renderFields layout rest

end

def compact (j : Json) : Text := render none j

def indented (j : Json) : Text := render (some 0) j ++ "\n"

def textField (key : String) (t : Text) : List (Text × Json) :=
  if t.isEmpty then [] else [(key, .text t)]

end Json

end Arbor
