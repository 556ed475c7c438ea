import Arbor.Trace.Storage

/-! A trace at work: what is recorded goes to its stores at once. -/

namespace Arbor.Trace

open Diag

structure Tracer where
  recorder : Recorder := {}
  storage : Storage := {}

namespace Tracer

def ofConfig (c : Config) : Except Fault Tracer :=
  c.storage.map fun storage => { recorder := { level := c.level }, storage }

def settle (t : Tracer) (r : Recorder) : Tracer :=
  { recorder := { r with events := #[] }, storage := r.events.foldl Storage.keep t.storage }

def emit (t : Tracer) (e : Event) : Tracer := t.settle (t.recorder.emit e)

def beginSpan (t : Tracer) (scope : Scope) (module name : Text) (parent : Nat) : Span × Tracer :=
  let (span, r) := t.recorder.beginSpan scope module name parent
  (span, t.settle r)

def addExtra (t : Tracer) (s : Span) (key value : Text) : Span × Tracer :=
  let grown := s.withExtra key value
  let storage := if s.id = 0 || s.extra.isEmpty then t.storage
    else { t.storage with ring := t.storage.ring.map fun r => r.amend s grown.extra }
  (grown, { t with storage })

def endSpan (t : Tracer) (s : Span) (detail : Text) : Tracer :=
  t.settle (t.recorder.endSpan s detail)

def point (t : Tracer) (scope : Scope) (name detail : Text) (parent : Nat) : Tracer :=
  t.settle (t.recorder.point scope name detail parent)

def error (t : Tracer) (scope : Scope) (name detail : Text) (parent : Nat) : Tracer :=
  t.settle (t.recorder.error scope name detail parent)

def flush (t : Tracer) : Tracer := { t with storage := t.storage.flush }

def level (t : Tracer) : Level := t.recorder.level

def output (t : Tracer) : Text := t.storage.output

def snapshot? (t : Tracer) : Option (List Event) :=
  match t.storage.stream, t.storage.ring with
  | none, some r => some (r.snapshot.map Stamped.event)
  | _, _ => none

def dump? (t : Tracer) (f : Format) : Option Text := t.storage.dump f

end Tracer

end Arbor.Trace
