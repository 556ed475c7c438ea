import Arbor.Cli.Arguments
import Arbor.Cli.Report
import Arbor.Pipeline.Request
import Arbor.Project.Manifest
import Arbor.Trace.Storage

/-! What every building command prepares: how to report, what to build, where traces and profiles
go, and what is left to do in the end. -/

namespace Arbor.Cli

open Diag Build Project

/-- What gets built. -/
structure Target where
  paths : List Text := []
  /-- The directory that relative imports stay in, or nothing. -/
  root : Text := []
  base : Text := []
  entry : Text := []
  outDir : Text := []

def noManifest : Text :=
  "no elang.toml found\nplease specify the modules explicitly, e.g.:\n  elang run path/to/main.east"

def allWithin (cwd root : Text) (paths : List Text) : Bool :=
  paths.all fun p =>
    match Path.relative? root (Path.absolute cwd p) with
    | none => false
    | some r => r ≠ Text.ofString ".." && !(Text.ofString "../").isPrefixOf r

def Target.resolve (cwd : Text) (m : Option Manifest) (paths : List Text) : Except Fault Target :=
  let outDir := (m.map Manifest.outDir).getD []
  match m, paths with
  | none, [] => .error (.plain noManifest)
  | some m, [] => .ok {
      paths := m.sourceDirs, root := m.root, base := m.root, entry := m.settings.entry, outDir }
  | _, _ => .ok {
      paths, base := cwd, outDir
      root := (m.map fun m => if allWithin cwd m.root paths then m.root else []).getD [] }

/-- The files that profiles go to. -/
structure Profiles where
  cpu : Text := []
  memory : Text := []
  events : Text := []

def profileContent : Text := "profile\n"

def writeOr (what path content : Text) : Act Pipeline.Progress Unit := do
  match (← get).files.write path content with
  | .ok files => modify fun w => { w with files }
  | .error e => Act.raise (.context what (.plain e.message))

def beginProfile (what path : Text) : Act Pipeline.Progress Unit := do
  match (← get).files.openForWriting path with
  | .ok (_, some .fullDevice) => pure ()
  | _ => writeOr what path profileContent

def Profiles.start (p : Profiles) : Act Pipeline.Progress Unit := do
  if !p.cpu.isEmpty then beginProfile "failed to start cpu profile" p.cpu
  if !p.events.isEmpty then beginProfile "failed to start runtime trace" p.events

def Profiles.stop (p : Profiles) : Act Pipeline.Progress Text := do
  if p.memory.isEmpty then pure []
  else match ← Act.attempt (writeOr "failed to write heap profile" p.memory profileContent) with
    | .ok () => pure []
    | .error f => pure ("profile: " ++ f.text ++ "\n")

/-- A command that has been prepared. -/
structure Session where
  options : Options
  style : ReportStyle
  target : Target
  profiles : Profiles := {}
  trace : Trace.Config := {}
  storage : Trace.Storage := {}

def traceConfig (o : Options) (m : Option Manifest) : Except Fault Trace.Config := do
  let named (what : Text) {α : Type} (r : Except Fault α) : Except Fault α :=
    r.mapError (Fault.context what)
  let level := o.traceLevel.getD ((m.map (·.settings.traceLevel)).getD "off")
  let path := o.trace.getD ((m.map Manifest.traceOutput).getD [])
  let level ← named "invalid trace level" (Trace.Level.parse level)
  if level = .off && path.isEmpty then pure {}
  else
    let mode ← named "invalid trace mode" (Trace.Mode.parse o.traceMode)
    let format ← named "invalid trace format" (Trace.Format.parse o.traceFormat)
    pure { level, mode, format, path, ringSize := o.ringSize }

def hasFile (c : Trace.Config) : Bool :=
  c.level ≠ .off && c.mode ≠ .ring && !c.path.isEmpty && c.path ≠ Text.ofString "-"

def openTrace (c : Trace.Config) : Act Pipeline.Progress Trace.Storage := do
  let named (f : Fault) : Fault := .context "failed to create tracer" f
  match c.storage with
  | .error f => Act.raise (named f)
  | .ok storage =>
    if hasFile c then
      match (← get).files.write c.path [] with
      | .ok files => modify fun w => { w with files }
      | .error e =>
        Act.raise (named (.context "failed to open trace output" (.plain e.message)))
    modify fun w => { w with trace := { w.trace with level := c.level } }
    pure storage

def raiseError {α : Type} : Except Fault α → Act Pipeline.Progress α
  | .ok x => pure x
  | .error f => Act.raise f

/-- A session, or why there is none and what was said on the way. -/
inductive Opening where
  | ready (s : Session)
  | refused (f : Fault) (said : Text)

/-- Checks the flags, finds the manifest and what to build, and opens profiles and traces. What
cannot be read is reported in this order. `terminal` says whether errors go to a terminal. -/
def openSession (terminal : Bool) (o : Options) (paths : List Text) :
    Act Pipeline.Progress Opening := do
  let format := o.diagFormat.trim.lowerCase
  if format ≠ Text.ofString "pretty" && format ≠ Text.ofString "json" then
    Act.raise (.plain ("unsupported diagnostics format " ++ o.diagFormat.quoted
      ++ " (must be pretty or json)"))
  let color ← raiseError (Choice.parse "--color" o.color)
  let _ ← raiseError (Choice.parse "--ui" o.ui)
  let files := (← get).files
  let manifest ← raiseError (Manifest.load files ".")
  let target ← raiseError (Target.resolve files.cwd manifest paths)
  let profiles : Profiles := ⟨o.cpuProfile, o.memProfile, o.runtimeTrace⟩
  profiles.start
  let opened ← Act.attempt (do
    let trace ← raiseError (traceConfig o manifest)
    pure (trace, ← openTrace trace))
  match opened with
  | .error f => pure (.refused f (← profiles.stop))
  | .ok (trace, storage) =>
    pure (.ready {
      options := o, target, profiles, trace, storage
      style := {
        json := format = Text.ofString "json"
        color := color = .on || (color = .auto && terminal)
        most := o.maxDiagnostics } })

def saveTrace (c : Trace.Config) (output : Text) : Act Pipeline.Progress Text := do
  if hasFile c && !output.isEmpty then
    match (← get).files.write c.path output with
    | .ok files =>
      modify fun w => { w with files }
      pure []
    | .error e =>
      pure ("trace: flush error: " ++ e.message ++ "\ntrace: close error: " ++ e.message ++ "\n")
  else pure []

def Session.close (s : Session) (failed : Bool) (written : Text) : Act Pipeline.Progress Text := do
  let storage := (← get).trace.events.foldl Trace.Storage.keep s.storage
  let toErrors := !hasFile s.trace
  let early := Text.when toErrors storage.output
  let all := storage.flush.output
  let memory := match storage.dump .plain with
    | some lines => Text.when failed ("trace: last events before the failure:\n" ++ lines)
    | none => []
  let late := Text.when toErrors (all.drop early.length)
  let problems ← saveTrace s.trace all
  pure (early ++ written ++ memory ++ late ++ problems ++ (← s.profiles.stop))

end Arbor.Cli
