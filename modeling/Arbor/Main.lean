import Arbor.Cli.Commands

/-! The program. The files it may ask for are read into memory, the command runs on them, and what
it changed is written back. -/

namespace Arbor.Main

def shown (t : Text) : String := (Text.toString? t).getD ""

/-- Adds what stands at a path, with everything below a directory. -/
partial def load (files : Files) (path : String) : IO Files := do
  let place := (← IO.currentDir) / path
  if ← place.isDir then
    let mut files := files.plant path .dir
    for entry in ← place.readDir do
      files ← load files (path ++ "/" ++ entry.fileName)
    pure files
  else if ← place.pathExists then
    pure (files.plant path (.file (← IO.FS.readBinFile place).toList))
  else pure files

def above (path : Text) : List Text :=
  let parts := Path.parts path
  (List.range parts.length).reverse.map fun n => Text.ofString "/" ++ Text.join "/" (parts.take n)

def loadAbove (files : Files) (path : Text) : IO Files :=
  (above path).foldlM (fun files dir => do
    if ← ((← IO.currentDir) / shown dir).isDir then pure (files.plant dir .dir)
    else pure files) files

def pathsIn (arg : String) : List String :=
  if arg.startsWith "-" then (arg.splitOn "=").tail else [arg]

def gather (args : List String) : IO Files := do
  let cwd := Text.ofString (← IO.currentDir).toString
  let files ← loadAbove { Files.devices with cwd } cwd
  let files ← load files (shown cwd)
  let files ← (above cwd).foldlM (fun files dir => do
    let manifest := Path.join [dir, Project.Manifest.fileName]
    if ← ((← IO.currentDir) / shown manifest).pathExists then load files (shown dir)
    else pure files) files
  (args.flatMap pathsIn).foldlM (fun files path => do
    let path := Path.absolute cwd (Text.ofString path)
    if (files.find path).isOk then pure files
    else load (← loadAbove files path) (shown path)) files

def save (old new : Files) : IO Unit :=
  new.nodes.reverse.forM fun (place, node) => do
    let path := shown (Text.ofString "/" ++ Text.join "/" place)
    match node, old.node? place with
    | .dir, none => IO.FS.createDirAll path
    | .file t, some (.file before) =>
      if t ≠ before then IO.FS.writeBinFile path ⟨t.toArray⟩
    | .file t, _ => IO.FS.writeBinFile path ⟨t.toArray⟩
    | _, _ => pure ()

end Arbor.Main

open Arbor in
def main (args : List String) : IO UInt32 := do
  let stdout ← IO.getStdout
  let stderr ← IO.getStderr
  let files ← Main.gather args
  let terminal : Cli.Terminal := { stdout := ← stdout.isTty, stderr := ← stderr.isTty }
  match Cli.program terminal (args.map Text.ofString) { files, user := {} } with
  | .ok out world =>
    Main.save files world.files
    stdout.write ⟨out.stdout.toArray⟩
    stderr.write ⟨out.errors.toArray⟩
    pure out.ending.status.toUInt32
  | .error _ _ => pure 2
