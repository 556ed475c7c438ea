import Arbor.Build.Heap
import Arbor.Run.Program

/-! Loading modules, and verifying, running and emitting them. -/

namespace Arbor.Build

open IR Diag

variable {σ : Type}

namespace Act

def newModule (name : Text) : Act σ Handle := do
  match ← emit (Emit.makeModule name) with
  | .error r => raise (.wrap .backend (.plain r.message) ("create module " ++ name.quoted))
  | .ok h =>
    modify fun w =>
      { w with modules := w.modules.insert h
                 { name, scopes := Scopes.initial, span := w.loading } }
    pure h

def moduleName (m : Handle) : Act σ Text := do pure (← module m).name

def alreadyLoaded (name : Text) : Fault :=
  .error .duplicateModule ("module " ++ name.quoted ++ " is already loaded")

def addModule (m : Handle) : Act σ Unit := do
  let name ← moduleName m
  match ← loaded? name with
  | some _ => raise (alreadyLoaded name)
  | none => modify fun w => { w with registry := w.registry ++ [(name, m)] }

def discard (m : Handle) : Act σ Unit := do
  modify fun w => { w with registry := w.registry.filter fun (_, h) => h ≠ m }
  let _ ← emit (Emit.dropModule m)

def accept (name : Text) (m : Option Handle) : Act σ Handle := do
  match m with
  | none =>
    raise (.error .buildFailed ("building " ++ name.quoted ++ " produced no module"))
  | some m =>
    let got ← moduleName m
    if got ≠ name then
      raise (.error .buildFailed
        ("building " ++ name.quoted ++ " produced module " ++ got.quoted))
    if (← loaded? name) ≠ some m then addModule m
    pure m

/-- What a build function yields: the module, if it got so far, and the fault that stopped it. -/
structure Built where
  module : Option Handle
  fault : Option Fault := none

/-- Gives a load up: what was made is discarded, and the fault is recorded and raised. `outer` is the
span around the load. -/
def abandon (name : Text) (span : Trace.Span) (outer : Nat) (made : Option Handle) (f : Fault) :
    Act σ Handle := do
  match made with
  | some m => discard m
  | none => pure ()
  let f := if f.code = .unknown then Fault.wrap .buildFailed f ("module " ++ name.quoted) else f
  modify fun w => { w with diags := w.diags.addFault name f }
  endSpan (span.withExtra "status" "failed") f.text
  modify fun w => { w with loading := outer }
  raise f

def conclude (name : Text) (span : Trace.Span) (outer : Nat) (built : Built) : Act σ Handle := do
  let result ← match built.fault with
    | some f => pure (Except.error f)
    | none => attempt (accept name built.module)
  match result with
  | .ok m =>
    endSpan span []
    modify fun w => { w with loading := outer }
    pure m
  | .error f => abandon name span outer built.module f

def loadModule (name : Text) (build : Act σ Built) : Act σ Handle := do
  if (← loaded? name).isSome then raise (alreadyLoaded name)
  let span ← beginSpan .module name "load" 0
  let outer := (← get).loading
  modify fun w => { w with loading := span.id }
  let built ← build
  conclude name span outer built

def dump (m : Handle) : Act σ Text := do
  match ← emit (Emit.dumpModule m) with
  | .ok t => pure t
  | .error r => pure r.message

def verdict (s : Store) (m : Handle) : Option Text :=
  match s.module? m with
  | none => some (Refusal.notModule m).message
  | some info =>
    if info.dropped then some (Refusal.dropped info.name).message
    else
      let defects := s.defects m info
      if defects.isEmpty then none else some (Text.lines (defects.map Store.Defect.message))

def verify (m : Handle) : Act σ Unit := do
  match verdict (← store) m with
  | none => pure ()
  | some problem =>
    let name ← moduleName m
    traceError .module ("verify " ++ name) problem 0
    raise (.wrap .verification (.plain problem) ("verify " ++ name))

def runEntry (m : Handle) : Act σ (Except Run.Failure Int64) :=
  modifyGet fun w =>
    let (result, printed) := Run.program w.store m w.maxSteps
    (result, { w with output := printed :: w.output })

def run (m : Handle) : Act σ Int64 := do
  let name ← moduleName m
  let span ← beginSpan .module name "jit" 0
  let result ← runEntry m
  endSpan span []
  match result with
  | .ok n => pure n
  | .error e => raise (.wrap .execution (.plain e.message) ("run " ++ name))

def emitFile (m : Handle) : Act σ (Except Text Text) := do
  match verdict (← store) m with
  | some problem => pure (.error problem)
  | none =>
    let w ← get
    let name := (w.store.module? m).elim [] ModuleInfo.name
    let dir := if w.outDir.isEmpty then Text.ofString "." else w.outDir
    match w.files.makeDirs dir with
    | .error e => pure (.error ("create output directory: " ++ e.message))
    | .ok files =>
      modify fun w => { w with files }
      let path := Path.join [dir, name ++ ".ll"]
      let text ← dump m
      match (← get).files.write path text with
      | .error e => pure (.error ("write " ++ path ++ ": " ++ e.message))
      | .ok files =>
        modify fun w => { w with files }
        pure (.ok path)

def emitModule (m : Handle) : Act σ Text := do
  let name ← moduleName m
  let span ← beginSpan .module name "aot" 0
  let result ← emitFile m
  endSpan span []
  match result with
  | .ok path => pure path
  | .error e => raise (.wrap .emission (.plain e) ("emit " ++ name))

def close : Act σ Unit := do
  let registry := (← get).registry
  registry.reverse.forM fun (_, m) => do
    let _ ← emit (Emit.dropModule m)
  modify fun w => { w with registry := [] }

end Act

end Arbor.Build
