import Arbor.Diag.Fault
import Arbor.Files.Basic
import Arbor.Project.Names
import Arbor.Toml.Reader

/-! The manifest of a project: where it is found, what it says and what it leaves to defaults. -/

namespace Arbor.Project

open Diag Toml

/-- What a manifest says, before defaults are filled in. -/
structure Settings where
  name : Text := []
  entry : Text := []
  outDir : Text := []
  /-- The source directories, seen from the root. -/
  sources : List Text := []
  traceLevel : Text := []
  traceOutput : Text := []
deriving DecidableEq

namespace Settings

def foldRune (r : Rune) : Text :=
  if r.code == 0x212A then [107]
  else if r.code == 0x17F then [115]
  else r.bytes.map Text.lowerByte

def isKey (key : Text) (name : String) : Bool := key.runes.flatMap foldRune = Text.ofString name

def text? : Value → Option Text
  | .text t => some t
  | _ => none

def texts? : Value → Option (List Text)
  | .list items => items.mapM text?
  | .tables [] => some []
  | _ => none

def readPackage (s : Settings) (key : Text) (v : Value) : Option Settings :=
  if isKey key "name" then do some { s with name := ← text? v }
  else if isKey key "entry" then do some { s with entry := ← text? v }
  else some s

def readBuild (s : Settings) (key : Text) (v : Value) : Option Settings :=
  if isKey key "out_dir" then do some { s with outDir := ← text? v }
  else if isKey key "sources" then do some { s with sources := ← texts? v }
  else some s

def readTrace (s : Settings) (key : Text) (v : Value) : Option Settings :=
  if isKey key "level" then do some { s with traceLevel := ← text? v }
  else if isKey key "output" then do some { s with traceOutput := ← text? v }
  else some s

def readSection (read : Settings → Text → Value → Option Settings) (s : Settings) :
    Value → Option Settings
  | .table entries => entries.foldlM (fun s (key, v) => read s key v) s
  | _ => none

def ofTable? (t : Table) : Option Settings :=
  t.foldlM (fun s (key, v) =>
    if isKey key "package" then readSection readPackage s v
    else if isKey key "build" then readSection readBuild s v
    else if isKey key "trace" then readSection readTrace s v
    else some s) {}

end Settings

def isDefined : List String → Table → Bool
  | [], _ => false
  | [key], t => (t.lookup (Text.ofString key)).isSome
  | key :: path, t =>
    match t.lookup (Text.ofString key) with
    | some (.table u) => isDefined path u
    | _ => false

/-- Why a manifest is refused. -/
inductive ManifestError where
  | unreadable
  | noPackage
  | noName
  | badName (name : Text)
  | badEntry (name : Text)
  | outsideSource (source : Text)
deriving DecidableEq

namespace ManifestError

def fault (path : Text) : ManifestError → Fault
  | .unreadable => .error .manifest (path ++ ": failed to parse TOML")
  | .noPackage => .wrap .manifest (.plain "missing [package]") path
  | .noName => .wrap .manifest (.plain "missing [package].name") path
  | .badName name => .error .manifest (path ++ ": invalid [package].name " ++ name.quoted)
  | .badEntry name => .error .manifest (path ++ ": invalid [package].entry " ++ name.quoted)
  | .outsideSource source =>
    .error .manifest
      (path ++ ": [build].sources entry " ++ source.quoted ++ " escapes the project root")

end ManifestError

namespace Settings

def complete (root : Text) (t : Table) (s : Settings) : Except ManifestError Settings := do
  if !isDefined ["package"] t then throw .noPackage
  let name := s.name.trim
  if !isDefined ["package", "name"] t || name.isEmpty then throw .noName
  if !isModuleName name then throw (.badName name)
  let entry := s.entry.trim
  if !entry.isEmpty && !isModuleName entry then throw (.badEntry entry)
  let sources := if s.sources.isEmpty then [Text.ofString "."] else s.sources
  let isOutside (src : Text) : Bool :=
    Path.isAbsolute src || !Path.isWithin root (Path.join [root, src])
  match sources.find? isOutside with
  | some src => throw (.outsideSource src)
  | none => pure ()
  pure { s with
    name, sources
    entry := if entry.isEmpty then name else entry
    outDir := if s.outDir.trim.isEmpty then "build" else s.outDir
    traceLevel := if s.traceLevel.isEmpty then "off" else s.traceLevel }

end Settings

structure Manifest where
  path : Text
  settings : Settings

namespace Manifest

def fileName : Text := "elang.toml"

def root (m : Manifest) : Text := Path.dir m.path

def inRoot (m : Manifest) (p : Text) : Text :=
  if Path.isAbsolute p then p else Path.join [m.root, p]

def sourceDirs (m : Manifest) : List Text :=
  m.settings.sources.map fun src => Path.join [m.root, src]

def outDir (m : Manifest) : Text := m.inRoot m.settings.outDir

def traceOutput (m : Manifest) : Text :=
  let out := m.settings.traceOutput
  if out.isEmpty || out = Text.ofString "-" then out else m.inRoot out

def findFrom (fs : Files) : Nat → Text → Except Fault (Option Text)
  | 0, _ => .ok none
  | fuel + 1, dir =>
    let candidate := Path.join [dir, fileName]
    match fs.stat candidate with
    | .ok _ => .ok (some candidate)
    | .error e =>
      if e.cause = .missing then
        if Path.dir dir = dir then .ok none else findFrom fs fuel (Path.dir dir)
      else .error (.context ("failed to stat " ++ candidate.quoted) (.plain e.message))

def find (fs : Files) (start : Text) : Except Fault (Option Text) :=
  let dir := Path.absolute fs.cwd (if start.isEmpty then "." else start)
  findFrom fs (dir.length + 1) dir

def read (fs : Files) (path : Text) : Except ManifestError Manifest := do
  let t ← match (fs.read path).toOption.bind Toml.parse with
    | some t => pure t
    | none => throw .unreadable
  let s ← match Settings.ofTable? t with
    | some s => pure s
    | none => throw .unreadable
  pure { path, settings := ← s.complete (Path.dir path) t }

def load (fs : Files) (start : Text) : Except Fault (Option Manifest) := do
  match ← find fs start with
  | none => pure none
  | some path => (some <$> read fs path).mapError (ManifestError.fault path)

end Manifest

end Arbor.Project
