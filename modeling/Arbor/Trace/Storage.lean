import Arbor.Trace.Ring

/-! Where a trace goes: written line by line as it comes, kept in a ring, or both. -/

namespace Arbor.Trace

open Diag

structure Mode where
  rank : UInt8
deriving DecidableEq

namespace Mode

def stream : Mode := ⟨1⟩
def ring : Mode := ⟨2⟩
def both : Mode := ⟨3⟩

def names : List String := ["unknown", "stream", "ring", "both"]

def name (m : Mode) : Text :=
  match names[m.rank.toNat]? with
  | some n => n
  | none => "unknown"

def parse (t : Text) : Except Fault Mode :=
  match (names.drop 1).findIdx? fun n => Text.ofString n = t.lowerCase with
  | some i => .ok ⟨(i + 1).toUInt8⟩
  | none =>
    .error (.plain ("invalid storage mode: " ++ t.quoted ++ " (expected: stream|ring|both)"))

end Mode

/-- Text on its way to an output. It waits until there is enough of it or someone asks. -/
structure Stream where
  format : Format
  sent : Text := []
  waiting : Text := []

namespace Stream

def room : Nat := 4096

def flush (s : Stream) : Stream := { s with sent := s.sent ++ s.waiting, waiting := [] }

def write (s : Stream) (t : Text) : Stream :=
  let free := room - s.waiting.length
  if t.length ≤ free then { s with waiting := s.waiting ++ t }
  else
    let rest := if s.waiting.isEmpty then t else t.drop free
    let sent := s.sent ++ (if s.waiting.isEmpty then [] else s.waiting ++ t.take free)
    if rest.length ≤ room && !s.waiting.isEmpty then { s with sent, waiting := rest }
    else { s with sent := sent ++ rest, waiting := [] }

end Stream

/-- The stores of a trace. Every store numbers what it keeps from one common count. -/
structure Storage where
  stream : Option Stream := none
  ring : Option Ring := none
  count : Nat := 0
  now : Int := 0

namespace Storage

def toStream (s : Storage) (e : Event) : Storage :=
  match s.stream with
  | none => s
  | some out =>
    let stamped : Stamped := ⟨e, s.count + 1, s.now⟩
    let out := out.write (stamped.render s.now out.format)
    let urgent := e.kind = .error || e.kind = .heartbeat
    { s with stream := some (if urgent then out.flush else out), count := s.count + 1 }

def toRing (s : Storage) (e : Event) : Storage :=
  match s.ring with
  | none => s
  | some r => { s with ring := some (r.push ⟨e, s.count + 1, s.now⟩), count := s.count + 1 }

def keep (s : Storage) (e : Event) : Storage := (s.toStream e).toRing e

def flush (s : Storage) : Storage := { s with stream := s.stream.map Stream.flush }

def output (s : Storage) : Text := (s.stream.map Stream.sent).getD []

def dump (s : Storage) (f : Format) : Option Text := s.ring.map fun r => r.dump s.now f

end Storage

/-- What a trace is asked to be. -/
structure Config where
  level : Level := .off
  mode : Mode := .stream
  format : Format := .auto
  path : Text := []
  ringSize : Int := 0
  now : Int := 0

namespace Config

def storage (c : Config) : Except Fault Storage :=
  let stream : Stream := { format := c.format.resolve c.path }
  let ring := Ring.ofSize c.ringSize
  if c.level = .off then .ok { now := c.now }
  else if c.mode = .stream || c.mode = ⟨0⟩ then .ok { now := c.now, stream := some stream }
  else if c.mode = .ring then .ok { now := c.now, ring := some ring }
  else if c.mode = .both then .ok { now := c.now, stream := some stream, ring := some ring }
  else .error (.plain ("unknown storage mode: " ++ c.mode.name))

end Config

end Arbor.Trace
