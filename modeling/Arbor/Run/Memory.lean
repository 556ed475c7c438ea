import Arbor.Run.Value

/-! Memory: objects with cells by byte offset. A freed object stays known, so that using it again
can be told. -/

namespace Arbor.Run

structure Object where
  size : Int64
  cells : Std.HashMap Nat Value := {}
  freed : Bool := false

/-- Objects are numbered from 1. -/
structure Memory where
  objects : Array Object := #[]

namespace Memory

def object? (m : Memory) (id : Nat) : Option Object :=
  if id = 0 then none else m.objects[id - 1]?

def alloc (m : Memory) (o : Object) : Nat × Memory :=
  (m.objects.size + 1, { objects := m.objects.push o })

def alter (m : Memory) (id : Nat) (f : Object → Object) : Memory :=
  if id = 0 then m else { objects := m.objects.modify (id - 1) f }

def write (m : Memory) (id offset : Nat) (v : Value) : Memory :=
  m.alter id fun o => { o with cells := o.cells.insert offset v }

def free (m : Memory) (id : Nat) : Memory := m.alter id ({ · with freed := true })

def byteAt (o : Object) (offset : Nat) : Option UInt8 :=
  o.cells[offset]?.map fun v => v.toInt.toUInt64.toUInt8

def bytesFrom (o : Object) : Nat → Nat → Text
  | 0, _ => []
  | fuel + 1, offset =>
    match byteAt o offset with
    | none => []
    | some b => if b == 0 then [] else b :: bytesFrom o fuel (offset + 1)

def textAt (o : Object) (offset : Nat) : Text := bytesFrom o o.cells.size offset

def writeText (m : Memory) (id : Nat) : Nat → Text → Memory
  | offset, [] => m.write id offset (.int 0)
  | offset, b :: t => (m.write id offset (.int (Int64.ofNat b.toNat))).writeText id (offset + 1) t

end Memory

end Arbor.Run
