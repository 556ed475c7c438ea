import Arbor.Text.Quoted

/-! Trace events: what happened, at which granularity, under which span. -/

namespace Arbor.Trace

/-- How much a trace keeps; a greater rank keeps more. -/
structure Level where
  rank : UInt8
deriving DecidableEq

namespace Level

def off : Level := ⟨0⟩
def error : Level := ⟨1⟩
def phase : Level := ⟨2⟩
def detail : Level := ⟨3⟩
def debug : Level := ⟨4⟩

def names : List String := ["off", "error", "phase", "detail", "debug"]

def name (l : Level) : Text :=
  match names[l.rank.toNat]? with
  | some n => n
  | none => "unknown"

def isOn (l : Level) : Bool := 0 < l.rank

end Level

/-- The granularity of an event; a greater rank is finer. -/
structure Scope where
  rank : UInt8
deriving DecidableEq

namespace Scope

def driver : Scope := ⟨1⟩
def pass : Scope := ⟨2⟩
def module : Scope := ⟨3⟩
def node : Scope := ⟨4⟩

def names : List String := ["unknown", "driver", "pass", "module", "node"]

def name (s : Scope) : Text :=
  match names[s.rank.toNat]? with
  | some n => n
  | none => "unknown"

end Scope

def Level.keeps (l : Level) (s : Scope) : Bool :=
  if l = .phase then s.rank ≤ Scope.pass.rank
  else if l = .detail then s.rank ≤ Scope.module.rank
  else l = .debug

structure EventKind where
  rank : UInt8
deriving DecidableEq

namespace EventKind

def spanBegin : EventKind := ⟨1⟩
def spanEnd : EventKind := ⟨2⟩
def point : EventKind := ⟨3⟩
def heartbeat : EventKind := ⟨4⟩
def error : EventKind := ⟨5⟩

def names : List String := ["unknown", "begin", "end", "point", "heartbeat", "error"]

def name (k : EventKind) : Text :=
  match names[k.rank.toNat]? with
  | some n => n
  | none => "unknown"

end EventKind

/-- One record of a trace. Span 0 means none. -/
structure Event where
  kind : EventKind
  scope : Scope
  span : Nat := 0
  parent : Nat := 0
  module : Text := []
  name : Text := []
  detail : Text := []
  /-- Further facts by key, in the order of the keys. -/
  extra : List (Text × Text) := []
deriving DecidableEq

namespace Event

def passes (e : Event) (l : Level) : Bool :=
  if e.kind = .heartbeat || e.kind = .error then l.isOn else l.keeps e.scope

end Event

def setExtra (key value : Text) : List (Text × Text) → List (Text × Text)
  | [] => [(key, value)]
  | (k, v) :: rest =>
    if k = key then (key, value) :: rest
    else if Text.lt key k then (key, value) :: (k, v) :: rest
    else (k, v) :: setExtra key value rest

/-- An interval of work. One that its level drops has id 0 and records nothing. -/
structure Span where
  id : Nat := 0
  parent : Nat := 0
  scope : Scope := .driver
  module : Text := []
  name : Text := []
  extra : List (Text × Text) := []

namespace Span

def event (s : Span) (kind : EventKind) (detail : Text) : Event :=
  { kind, scope := s.scope, span := s.id, parent := s.parent, module := s.module, name := s.name,
    detail }

def withExtra (s : Span) (key value : Text) : Span :=
  if s.id = 0 then s else { s with extra := setExtra key value s.extra }

end Span

/-- A trace in the making: events in the order they came, and how many spans were opened. -/
structure Recorder where
  level : Level := .off
  spans : Nat := 0
  events : Array Event := #[]

namespace Recorder

def emit (r : Recorder) (e : Event) : Recorder :=
  if e.passes r.level then { r with events := r.events.push e } else r

def beginSpan (r : Recorder) (scope : Scope) (module name : Text) (parent : Nat) :
    Span × Recorder :=
  if r.level.keeps scope then
    let s : Span := { id := r.spans + 1, parent, scope, module, name }
    (s, { r with spans := r.spans + 1 }.emit (s.event .spanBegin []))
  else ({}, r)

def endSpan (r : Recorder) (s : Span) (detail : Text) : Recorder :=
  if s.id = 0 then r else r.emit { s.event .spanEnd detail with extra := s.extra }

def point (r : Recorder) (scope : Scope) (name detail : Text) (parent : Nat) : Recorder :=
  if r.level.keeps scope then
    r.emit { kind := .point, scope, parent, name, detail }
  else r

def error (r : Recorder) (scope : Scope) (name detail : Text) (parent : Nat) : Recorder :=
  if r.level.isOn then r.emit { kind := .error, scope, parent, name, detail } else r

end Recorder

end Arbor.Trace
