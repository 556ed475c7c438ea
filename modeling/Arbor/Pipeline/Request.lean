import Arbor.Build.Prelude
import Arbor.Pipeline.Entry
import Arbor.Pipeline.Progress

/-! A whole run: modules are built from files, then one of them is run or all of them are written
out. -/

namespace Arbor.Pipeline

open Diag IR Build Project

inductive Backend where
  | run
  /-- Writes every module into the output directory. -/
  | emit
deriving DecidableEq

namespace Backend

def parse (t : Text) : Except Fault Backend :=
  if t.isEmpty || t = Text.ofString "jit" then .ok .run
  else if t = Text.ofString "aot" then .ok .emit
  else .error (.plain ("unsupported backend: " ++ t ++ " (supported: jit, aot)"))

end Backend

structure Request where
  paths : List Text := []
  root : Text := []
  limit : Nat := 0
  allowErrors : Bool := false
  backend : Backend := .run
  /-- The module to start in, or nothing for the default. -/
  entry : Text := []
  /-- Whether the text of the entry module is wanted. -/
  dump : Bool := false
  outDir : Text := []

/-- What a run came to, as far as it got. -/
structure Result where
  outcome : Option Outcome := none
  dump : Option Text := none
  outputs : List Text := []
  exit : Int64 := 0
  timings : Timings := {}
  fault : Option Fault := none

def stageTimings : Act Progress Timings := do
  pure ((← get).user.stages.foldl (fun t s => t.set s 0) {})

def tellQueued (paths : List Text) : Act Progress Unit := do
  let w ← get
  if w.user.watched then
    match discover w.files paths with
    | .error _ => pure ()
    | .ok files => (shownFiles w.files.cwd w.user.base files).forM (tell ∘ Event.waiting)

def failBuild (r : Result) (f : Fault) : Act Progress Result := do
  tellStage .build .error (some f)
  pure { r with fault := some f }

def compile (q : Request) : Act Progress Result := do
  if q.paths.isEmpty then pure { fault := some (.plain "missing target path") }
  else
    tellQueued q.paths
    let built ← Act.attempt (Project.build watch { root := q.root, limit := q.limit } 0 q.paths)
    let r : Result := { timings := ← stageTimings }
    match built with
    | .error f => failBuild r f
    | .ok outcome =>
      let r := { r with outcome := some outcome }
      if outcome.hasErrors && !q.allowErrors then failBuild r .diagnosed
      else
        tellStage .build .done none
        pure r

def runStage (r : Result) (m : Handle) : Act Progress Result := do
  tellStage .run .working none
  let result ← Act.attempt (Act.run m)
  let r := { r with timings := r.timings.set .run 0 }
  match result with
  | .error f =>
    tellStage .run .error (some f)
    pure { r with fault := some f }
  | .ok exit =>
    tellStage .run .done none
    pure { r with exit }

def emitStage (r : Result) : List Project.Job → Act Progress Result
  | [] => pure { r with timings := r.timings.set .emit 0 }
  | j :: rest => do
    match j.built with
    | none => emitStage r rest
    | some m =>
      let w ← get
      let file := shownFile w.files.cwd w.user.base j.path
      tell { file, module := j.name, stage := .emit, status := .working }
      match ← Act.attempt (Act.emitModule m) with
      | .error f =>
        tell { file, module := j.name, stage := .emit, status := .error, fault := some f }
        pure { r with fault := some f }
      | .ok path =>
        tell { file, module := j.name, stage := .emit, status := .done }
        emitStage { r with outputs := r.outputs ++ [path] } rest

def entryOf (q : Request) (o : Outcome) : Act Progress (Option Handle) := do
  if q.entry.isEmpty && q.backend = .emit then pure none
  else some <$> entryModule (if q.entry.isEmpty then defaultEntry o else q.entry)

def finish (q : Request) (r : Result) (o : Outcome) : Act Progress Result := do
  match ← Act.attempt (entryOf q o) with
  | .error f => failBuild r f
  | .ok entry =>
    let r := { r with dump := ← if q.dump then entry.mapM Act.dump else pure none }
    match q.backend, entry with
    | .run, some m => runStage r m
    | .run, none => pure r
    | .emit, _ => emitStage r o.modules

def execute (q : Request) : Act Progress Result := do
  modify fun w => { w with
    outDir := if q.outDir.isEmpty then Path.join [w.files.cwd, "build"] else q.outDir }
  Act.loadDefaults
  let r ← compile q
  match r.fault, r.outcome with
  | none, some o => finish q r o
  | _, _ => pure r

end Arbor.Pipeline
