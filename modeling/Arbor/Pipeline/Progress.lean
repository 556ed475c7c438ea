import Arbor.Number.Notation
import Arbor.Project.Run

/-! Progress of a run for those who watch it: stages, what happens to each file, and how long the
stages took. -/

namespace Arbor.Pipeline

open Diag Build Project

/-- A part of a run, by its name. -/
structure Stage where
  name : Text
deriving DecidableEq

namespace Stage

def decode : Stage := ⟨"decode"⟩
def build : Stage := ⟨"build"⟩
def verify : Stage := ⟨"verify"⟩
def emit : Stage := ⟨"emit"⟩
def run : Stage := ⟨"run"⟩

def ofPhase (p : Phase) : Stage := ⟨p.name⟩

end Stage

/-- How far a stage has come, by name. -/
structure Status where
  name : Text
deriving DecidableEq

namespace Status

def queued : Status := ⟨"queued"⟩
def working : Status := ⟨"working"⟩
def done : Status := ⟨"done"⟩
def error : Status := ⟨"error"⟩

def skipped : Status := ⟨"skipped"⟩

end Status

/-- What happens to a file, or to the whole run if no file is named. -/
structure Event where
  file : Text := []
  module : Text := []
  stage : Stage
  status : Status
  fault : Option Fault := none
  elapsed : Int := 0

def Event.waiting (file : Text) : Event := { file, stage := .decode, status := .queued }

/-! ### Names of files -/

def shownFile (cwd base file : Text) : Text :=
  if file.isEmpty then []
  else
    let base := base.trim
    if base.isEmpty then Path.clean file
    else
      let p := Path.absolute cwd file
      match Path.relative? (Path.absolute cwd base) p with
      | some r => if r = Text.ofString "." || (Text.ofString "..").isPrefixOf r then p else r
      | none => p

def shownFiles (cwd base : Text) (files : List Text) : List Text :=
  Text.sort ((files.map (shownFile cwd base)).filter (· ≠ [])).eraseDups

/-! ### Durations -/

/-- How many nanoseconds each stage took, in the order the stages finished. -/
structure Timings where
  entries : List (Stage × Int) := []
deriving DecidableEq

namespace Timings

def put (stage : Stage) (nanos : Int) : List (Stage × Int) → List (Stage × Int)
  | [] => [(stage, nanos)]
  | (s, n) :: rest => if s = stage then (s, nanos) :: rest else (s, n) :: put stage nanos rest

def set (t : Timings) (stage : Stage) (nanos : Int) : Timings := ⟨put stage nanos t.entries⟩

def has (t : Timings) (stage : Stage) : Bool := (t.entries.lookup stage).isSome

def duration (t : Timings) (stage : Stage) : Int := (t.entries.lookup stage).getD 0

def sum (t : Timings) (stages : List Stage) : Int :=
  Int.bmod ((stages.map t.duration).foldl (· + ·) 0) 0x10000000000000000

def milliseconds (nanos : Int) : Text :=
  Double.write .positional 101 (some 1) (.ofBits (Float.ofInt nanos / 1000000.0).toBits)

def line (t : Timings) (label : Text) (stage : Stage) : Text :=
  Text.when (t.has stage) (label ++ " " ++ milliseconds (t.duration stage) ++ " ms\n")

def report (t : Timings) (emitted ran : Bool) : Text :=
  t.line "decoded" .decode ++ t.line "built" .build ++ t.line "verified" .verify
    ++ Text.when emitted (t.line "emitted" .emit) ++ Text.when ran (t.line "ran" .run)

end Timings

/-- What a watcher has seen of a run. -/
structure Progress where
  watched : Bool := false
  base : Text := []
  events : Array Event := #[]
  /-- The stages seen, in the order of their last event. -/
  stages : List Stage := []
  /-- The run is cancelled when this many events were seen; 0 means never. -/
  cancelAt : Nat := 0
  cancelled : Bool := false

namespace Progress

def push (p : Progress) (e : Event) : Progress :=
  if p.watched then
    let events := p.events.push e
    { p with events, cancelled := p.cancelled || p.cancelAt = events.size }
  else p

def mark (p : Progress) (s : Stage) : Progress :=
  { p with stages := p.stages.filter (· ≠ s) ++ [s] }

end Progress

def change (f : Progress → Progress) : Act Progress Unit :=
  modify fun w => { w with user := f w.user }

def tell (e : Event) : Act Progress Unit := change (·.push e)

def tellStage (stage : Stage) (status : Status) (fault : Option Fault) : Act Progress Unit :=
  tell { stage, status, fault }

def Event.ofModule (shown : Text) (e : ModuleEvent) : Event :=
  let stage := Stage.ofPhase e.phase
  let event (stage : Stage) (status : Status) : Event :=
    { file := shown, module := e.module, stage, status, fault := e.fault }
  match e.status with
  | .start => event stage .working
  | .done => if stage = .decode then event .build .queued else event stage .done
  | .failed => event stage .error
  | .skipped => event stage .skipped

def watch : Watch Progress where
  notify e := do
    let w ← get
    change (·.mark (.ofPhase e.phase))
    tell (.ofModule (shownFile w.files.cwd w.user.base e.file) e)
  cancelled := do pure (← get).user.cancelled

end Arbor.Pipeline
