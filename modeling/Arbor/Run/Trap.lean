import Arbor.IR.Printer
import Arbor.Run.Memory

/-! Why a run stops before its end, and the state that a run changes. -/

namespace Arbor.Run

open IR

/-- What can go wrong while a format is filled in. -/
inductive FormatError where
  | fewArguments
  | truncated
  | verb (b : UInt8)

namespace FormatError

def message : FormatError → Text
  | .fewArguments => "too few arguments for format"
  | .truncated => "truncated format directive"
  | .verb b => "unsupported format verb %" ++ Rune.encode b.toNat

end FormatError

/-- What can go wrong in reading a text from memory. -/
inductive TextError where
  | null
  | freed

namespace TextError

def message : TextError → Text
  | .null => "null string"
  | .freed => "string in freed memory"

end TextError

inductive Trap where
  | stepLimit
  | callDepth
  | undefinedFunction (name : Text)
  | openBlock
  | phiEdge
  | undefinedValue (name : Text)
  | notFunction (value : Value)
  | divisionByZero
  | pointerComparison (c : Comparison)
  | nullLoad
  | freedLoad
  | nullStore
  | freedStore
  | oneArgument (func : Text)
  | doubleFree
  | noFormat
  | noBuffer
  | nullBuffer
  | badText (func : Text) (e : TextError)
  | badFormat (func : Text) (e : FormatError)

namespace Trap

def message : Trap → Text
  | .stepLimit => "jit: step limit exceeded"
  | .callDepth => "jit: call depth exceeded"
  | .undefinedFunction name => "jit: undefined function " ++ name
  | .openBlock => "block without terminator"
  | .phiEdge => "phi has no edge for the incoming block"
  | .undefinedValue name => "value " ++ name ++ " used before definition"
  | .notFunction v => "call through non-function value " ++ v.text
  | .divisionByZero => "integer division by zero"
  | .pointerComparison c => "unsupported pointer comparison " ++ c.intName
  | .nullLoad => "load through null pointer"
  | .freedLoad => "load from freed memory"
  | .nullStore => "store through null pointer"
  | .freedStore => "store to freed memory"
  | .oneArgument func => func ++ ": want 1 argument"
  | .doubleFree => "free: double free"
  | .noFormat => "printf: missing format"
  | .noBuffer => "sprintf: want a buffer and a format"
  | .nullBuffer => "sprintf: null buffer"
  | .badText func e => func ++ ": " ++ e.message
  | .badFormat func e => func ++ ": " ++ e.message

end Trap

/-- What a run changes apart from the registers of its functions. -/
structure Machine where
  memory : Memory := {}
  /-- The objects of the texts used so far, by module and place. -/
  texts : Std.HashMap (Handle × Nat) Nat := {}
  output : List Text := []
  steps : Nat := 0

abbrev Exec := EStateM Trap Machine

namespace Machine

def printed (m : Machine) : Text := m.output.reverse.flatten

end Machine

namespace Exec

def alloc (o : Object) : Exec Value :=
  modifyGet fun m =>
    let (id, memory) := m.memory.alloc o
    (.ptr id 0, { m with memory })

def print (t : Text) : Exec Value := do
  modify fun m => { m with output := t :: m.output }
  pure (.int (Int64.ofNat t.length))

end Exec

end Arbor.Run
