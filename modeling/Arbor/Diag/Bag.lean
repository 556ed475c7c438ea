import Arbor.Diag.Fault

/-! Diagnostics and the bag that collects them. -/

namespace Arbor.Diag

/-- How grave a finding is; a greater rank is graver. -/
structure Severity where
  rank : UInt8
deriving DecidableEq

namespace Severity

def info : Severity := ⟨0⟩
def warning : Severity := ⟨1⟩
def error : Severity := ⟨2⟩

def name (s : Severity) : Text :=
  if s = info then "INFO" else if s = warning then "WARNING" else if s = error then "ERROR"
  else "UNKNOWN"

end Severity

/-- One finding attributed to a module. -/
structure Diagnostic where
  severity : Severity
  code : Code
  module : Text
  message : Text
  notes : List Text := []
deriving DecidableEq

namespace Diagnostic

def error (code : Code) (module message : Text) : Diagnostic :=
  ⟨.error, code, module, message, []⟩

def ofFault (module : Text) (f : Fault) : Diagnostic :=
  match f.link? with
  | some l => ⟨.error, l.code, module, l.message, l.notes⟩
  | none => error .unknown module f.text

/-- What makes two findings the same: everything but the notes. -/
structure Key where
  code : Code
  severity : Severity
  module : Text
  message : Text
deriving DecidableEq

def key (d : Diagnostic) : Key := ⟨d.code, d.severity, d.module, d.message⟩

def precedes (a b : Diagnostic) : Bool :=
  if a.module ≠ b.module then Text.lt a.module b.module
  else if a.severity ≠ b.severity then a.severity.rank > b.severity.rank
  else a.code.number < b.code.number

end Diagnostic

/-- Findings in the order they came, at most `limit` of them when the limit is positive. -/
structure Bag where
  items : List Diagnostic := []
  limit : Nat := 0
deriving DecidableEq

namespace Bag

def isFull (b : Bag) : Bool := 0 < b.limit && b.limit ≤ b.items.length

def add (b : Bag) (d : Diagnostic) : Bag :=
  if b.isFull then b else { b with items := b.items ++ [d] }

def addFault (b : Bag) (module : Text) (f : Fault) : Bag := b.add (.ofFault module f)

def hasErrors (b : Bag) : Bool := b.items.any fun d => Severity.error.rank ≤ d.severity.rank

def merge (b other : Bag) : Bag :=
  let total := b.items.length + other.items.length
  { items := b.items ++ other.items
    limit := if 0 < b.limit && b.limit < total then total else b.limit }

def sort (b : Bag) : Bag :=
  { b with items := b.items.mergeSort fun x y => !y.precedes x }

def freshItems : List Diagnostic.Key → List Diagnostic → List Diagnostic
  | _, [] => []
  | seen, d :: rest =>
    if d.key ∈ seen then freshItems seen rest else d :: freshItems (d.key :: seen) rest

def dedup (b : Bag) : Bag := { b with items := freshItems [] b.items }

end Bag

/-- Where a phase sends its findings: nowhere, or into a bag that forgets repetitions. -/
structure Filter where
  seen : List Diagnostic.Key := []

namespace Filter

def report (r : Filter) (b : Bag) (d : Diagnostic) : Filter × Bag :=
  if d.key ∈ r.seen then (r, b) else ({ seen := d.key :: r.seen }, b.add d)

end Filter

end Arbor.Diag
