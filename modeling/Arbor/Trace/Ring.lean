import Arbor.Trace.Format

/-! A bounded memory of events: the oldest gives way to the newest. -/

namespace Arbor.Trace

/-- A buffer of fixed size: `next` is the slot of the next write, and `count` slots are in use. -/
structure Ring where
  slots : Array Stamped
  next : Nat := 0
  count : Nat := 0

namespace Ring

def defaultCapacity : Nat := 4096

def blank : Stamped := { event := { kind := ⟨0⟩, scope := ⟨0⟩ } }

def ofSize (n : Int) : Ring := { slots := .replicate (if 0 < n then n.toNat else defaultCapacity) blank }

def push (r : Ring) (s : Stamped) : Ring :=
  { slots := r.slots.setIfInBounds r.next s
    next := (r.next + 1) % r.slots.size
    count := min (r.count + 1) r.slots.size }

def amend (r : Ring) (s : Span) (extra : List (Text × Text)) : Ring :=
  { r with slots := r.slots.map fun x =>
      if x.event.kind = .spanEnd && x.event.span = s.id && x.event.extra = s.extra then
        { x with event := { x.event with extra } }
      else x }

def snapshot (r : Ring) : List Stamped :=
  let start := (r.next + r.slots.size - r.count) % r.slots.size
  (List.range r.count).map fun i => r.slots.getD ((start + i) % r.slots.size) blank

def dump (r : Ring) (start : Int) (f : Format) : Text :=
  r.snapshot.flatMap fun s => s.render start f

end Ring

end Arbor.Trace
