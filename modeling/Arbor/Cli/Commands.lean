import Arbor.Cli.Session
import Arbor.Tree.Outline
import Arbor.Version

/-! The commands of the program. -/

namespace Arbor.Cli

open Diag Build Project Pipeline

/-- What a command leaves behind. -/
structure Output where
  stdout : Text := []
  stderr : Text := []
  ending : Ending := .done

def Output.errors (o : Output) : Text :=
  match o.ending.fault? with
  | some f => o.stderr ++ "error: " ++ f.text ++ "\n"
  | none => o.stderr

/-- What a command has written within a session, before the session is closed. -/
structure Written where
  stdout : Text := []
  stderr : Text := []
  failed : Bool := false
  ending : Ending := .done

/-- Where a command runs. -/
structure Terminal where
  stdout : Bool := false
  stderr : Bool := false

def Session.entry (s : Session) : Text :=
  if s.options.entry.isEmpty then s.target.entry else s.options.entry

def Session.request (s : Session) (backend : Backend) : Request :=
  { paths := s.target.paths, root := s.target.root, limit := s.options.maxDiagnostics.toNat
    backend, entry := s.entry, outDir := s.target.outDir, dump := s.options.dump }

def inSession (t : Terminal) (o : Options) (paths : List Text)
    (body : Session → Act Progress Written) : Act Progress Output := do
  match ← openSession t.stderr o paths with
  | .refused f said => pure { stderr := said, ending := .fault f }
  | .ready s =>
    modify fun w => { w with user := { w.user with base := s.target.base } }
    let written ← match ← Act.attempt (body s) with
      | .ok w => pure w
      | .error f => pure { ending := .fault f }
    let stderr ← s.close written.failed written.stderr
    pure { stdout := written.stdout, stderr, ending := written.ending }

def Session.reportResult (s : Session) (backend : Backend) (r : Result) : Reported :=
  let reported := s.style.report (r.outcome.map Outcome.bag) r.fault
  match reported.ending with
  | .done =>
    let times := r.timings.report (backend = .emit) (backend = .run)
    { reported with text := reported.text ++ Text.when s.options.timings times }
  | _ => reported

def runCommand (s : Session) : Act Progress Written := do
  let r ← execute (s.request .run)
  let reported := s.reportResult .run r
  let ending := match reported.ending with
    | .done => if r.exit = 0 then .done else .exit (exitStatus r.exit)
    | e => e
  let stdout := r.dump.getD [] ++ (← get).printed
  pure { stdout, stderr := reported.text, failed := reported.failed, ending }

def buildCommand (s : Session) : Act Progress Written := do
  let o := s.options
  if o.dump && s.entry.isEmpty then
    Act.raise (.plain "--dump requires an entry module (--entry or manifest entry)")
  let cwd := (← get).files.cwd
  let outDir := if o.outDir.isEmpty then s.target.outDir else Path.absolute cwd o.outDir
  let r ← execute { s.request .emit with outDir }
  let reported := s.reportResult .emit r
  let wrote := r.outputs.flatMap fun path =>
    Text.ofString "wrote " ++ shownPath s.target.base path ++ [10]
  let stdout := r.dump.getD [] ++ (match reported.ending with
    | .done => wrote
    | _ => [])
  pure { stdout, stderr := reported.text, failed := reported.failed, ending := reported.ending }

def dumpModules (s : Session) : Act Progress Written := do
  Act.loadDefaults
  let r ← compile { s.request .emit with allowErrors := true }
  let finish (stdout : Text) (fault : Option Fault) : Written :=
    let reported := s.style.report (r.outcome.map Outcome.bag) fault
    { stdout, stderr := reported.text, failed := reported.failed, ending := reported.ending }
  match r.fault, r.outcome with
  | some f, _ => pure (finish [] (some f))
  | none, none => pure {}
  | none, some outcome =>
    let names := if s.entry.isEmpty then outcome.order else [s.entry]
    let modules ← names.mapM fun name => Act.loaded? name
    if modules.any Option.isNone then
      pure (finish [] (some (.error .noEntry
        ("entry module " ++ s.entry.quoted ++ " was not built"))))
    else
      let texts ← (modules.filterMap id).mapM fun m => Act.dump m
      let stdout := Text.lines texts
      if outcome.hasErrors then pure (finish stdout (some .diagnosed)) else pure { stdout }

def outlineOf (s : Session) (json several : Bool) (d : Decoded) : Act Progress Text := do
  match d.module with
  | none => pure []
  | some m =>
    let outline ← Act.need m.outline
    if json then pure outline.toJson.indented
    else
      let heading := Text.when several ("== " ++ shownPath s.target.base d.path ++ " ==\n")
      pure (heading ++ outline.draw)

def dumpTrees (s : Session) (json : Bool) : Act Progress Written := do
  match discover (← get).files s.target.paths with
  | .error f =>
    let reported := s.style.report none (some (.wrap .loadFile f "discover sources"))
    pure { stderr := reported.text, failed := reported.failed, ending := reported.ending }
  | .ok files =>
    let limit := s.options.maxDiagnostics.toNat
    let quiet : Watch Progress := { notify := fun _ => pure (), cancelled := pure false }
    let decoded ← decodeFiles quiet limit files
    let texts ← decoded.mapM (outlineOf s json (1 < decoded.length))
    let failed := decoded.filter fun d => d.module.isNone
    let bag := (failed.map Decoded.bag).foldl Bag.merge { limit }
    pure {
      stdout := texts.flatten
      stderr := s.style.findings bag
      ending := if bag.hasErrors then .exit 1 else .done }

def dumpCommand (t : Terminal) (o : Options) (paths : List Text) : Act Progress Output := do
  let format := (o.format.getD "ir").trim.lowerCase
  if format = Text.ofString "ir" then inSession t { o with dump := false } paths dumpModules
  else if format = Text.ofString "tree" then inSession t o paths (dumpTrees · false)
  else if format = Text.ofString "json" then inSession t o paths (dumpTrees · true)
  else Act.raise (.plain
    ("unsupported format " ++ format.quoted ++ " (must be tree, json or ir)"))

def versionCommand (t : Terminal) (o : Options) (paths : List Text) : Act Progress Output := do
  match paths with
  | [] =>
    let given := o.format.getD "pretty"
    let format := given.lowerCase
    let release : Release := {}
    let report := { release with version := Release.shownVersion release.version }.report
      (o.build || o.full) (o.toolchain || o.full)
    if format = Text.ofString "json" then pure { stdout := report.toJson.indented }
    else if format = Text.ofString "pretty" then
      let color ← raiseError (Choice.parse "--color" o.color)
      let painted := color = .on || (color = .auto && t.stdout)
      pure { stdout := report.pretty (Release.banner painted release.version) }
    else Act.raise (.plain
      ("unsupported format " ++ given.quoted ++ " (must be pretty or json)"))
  | name :: _ =>
    Act.raise (.plain ("unknown command " ++ name.quoted ++ " for \"elang version\""))

def invoke (t : Terminal) (args : List Text) : Act Progress Output := do
  let i ← raiseError (Invocation.ofArgs args)
  if i.options.help then pure {}
  else match i.command with
    | .run => inSession t i.options i.paths runCommand
    | .build => inSession t i.options i.paths buildCommand
    | .dump => dumpCommand t i.options i.paths
    | .version => versionCommand t i.options i.paths
    | .none | .guide =>
      let line : Text := "elang version " ++ ({} : Release).version ++ "\n"
      pure { stdout := Text.when i.options.version line }

def program (t : Terminal) (args : List Text) : Act Progress Output := do
  match ← Act.attempt (invoke t args) with
  | .ok o => pure o
  | .error f => pure { ending := .fault f }

end Arbor.Cli
