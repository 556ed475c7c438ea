import Arbor.Files.Path

/-! A tree of files and directories in memory, with the answers of a Linux file system. -/

namespace Arbor

inductive FileNode where
  | dir
  | file (content : Text)
  | fullDevice
  /-- A device that takes every byte and holds none. -/
  | nullDevice

/-- Why the file system refuses. -/
inductive FileCause where
  | missing | notDir | isDir | nameTooLong | invalid | noSpace | occupied
deriving DecidableEq

namespace FileCause

def message : FileCause → Text
  | .missing => "no such file or directory"
  | .notDir => "not a directory"
  | .isDir => "is a directory"
  | .nameTooLong => "file name too long"
  | .invalid => "invalid argument"
  | .noSpace => "no space left on device"
  | .occupied => "file exists"

end FileCause

/-- A refused operation on a path. -/
structure FileError where
  op : Text
  path : Text
  cause : FileCause

namespace FileError

def message (e : FileError) : Text := e.op ++ " " ++ e.path ++ ": " ++ e.cause.message

end FileError

/-- The files that exist by the parts of their absolute path, and the working directory. The root
always exists. -/
structure Files where
  nodes : List (List Text × FileNode) := []
  cwd : Text := "/"

namespace Files

def node? (fs : Files) (place : List Text) : Option FileNode :=
  if place.isEmpty then some .dir else fs.nodes.lookup place

def maxName : Nat := 255
def maxPath : Nat := 4095

/-- Walks down from a directory. The result is the place reached and what is there, if anything;
only the last part may be missing. -/
def walk (fs : Files) : List Text → List Text → Except FileCause (List Text × Option FileNode)
  | here, [] => .ok (here, fs.node? here)
  | here, part :: rest =>
    match fs.node? here with
    | none => .error .missing
    | some .dir =>
      if maxName < part.length then .error .nameTooLong
      else if part = Text.ofString ".." then walk fs here.dropLast rest
      else walk fs (here ++ [part]) rest
    | some _ => .error .notDir

def locate (fs : Files) (p : Text) : Except FileCause (List Text × Option FileNode) :=
  if p.contains 0 then .error .invalid
  else if p.isEmpty then .error .missing
  else if maxPath < p.length then .error .nameTooLong
  else
    let start := if Path.isAbsolute p then [] else Path.parts fs.cwd
    match fs.walk start (Path.parts p) with
    | .error e => .error e
    | .ok (here, found) =>
      let endsHere := Path.lastPart p = Text.ofString "."
      match found with
      | some .dir => .ok (here, found)
      | some _ =>
        if endsHere || p.getLast? = some Path.slash then .error .notDir else .ok (here, found)
      | none => if endsHere then .error .missing else .ok (here, none)

def find (fs : Files) (p : Text) : Except FileCause FileNode :=
  match fs.locate p with
  | .error e => .error e
  | .ok (_, some n) => .ok n
  | .ok (_, none) => .error .missing

def stat (fs : Files) (p : Text) : Except FileError FileNode :=
  (fs.find p).mapError fun cause => ⟨"stat", p, cause⟩

def read (fs : Files) (p : Text) : Except FileError Text :=
  match fs.find p with
  | .error cause => .error ⟨"open", p, cause⟩
  | .ok .dir => .error ⟨"read", p, .isDir⟩
  | .ok (.file t) => .ok t
  | .ok .nullDevice => .ok []
  | .ok .fullDevice => .ok []

def put (fs : Files) (place : List Text) (n : FileNode) : Files :=
  { fs with nodes := (place, n) :: fs.nodes.filter fun (q, _) => q ≠ place }

def openForWriting (fs : Files) (p : Text) : Except FileError (List Text × Option FileNode) :=
  match fs.locate p with
  | .error cause => .error ⟨"open", p, cause⟩
  | .ok (_, some .dir) => .error ⟨"open", p, .isDir⟩
  | .ok (here, found) =>
    if found.isNone && p.getLast? = some Path.slash then .error ⟨"open", p, .isDir⟩
    else .ok (here, found)

def write (fs : Files) (p : Text) (t : Text) : Except FileError Files :=
  match fs.openForWriting p with
  | .error e => .error e
  | .ok (_, some .fullDevice) => if t.isEmpty then .ok fs else .error ⟨"write", p, .noSpace⟩
  | .ok (_, some .nullDevice) => .ok fs
  | .ok (here, _) => .ok (fs.put here (.file t))

def makeDir (fs : Files) (p : Text) : Except FileCause Files :=
  match fs.locate p with
  | .error cause => .error cause
  | .ok (_, some _) => .error .occupied
  | .ok (here, none) => .ok (fs.put here .dir)

def parentOf (p : Text) : Text :=
  let stripped := (p.reverse.dropWhile (· == Path.slash)).reverse
  let head := stripped.take (stripped.length - (Path.lastPart stripped).length)
  if head.length ≤ 1 then [] else (head.reverse.dropWhile (· == Path.slash)).reverse

def makeDirsFrom (depth : Nat) (fs : Files) (p : Text) : Except FileError Files :=
  match fs.find p with
  | .ok .dir => .ok fs
  | .ok _ => .error ⟨"mkdir", p, .notDir⟩
  | .error _ =>
    let above := parentOf p
    let prepared : Except FileError Files := match depth with
      | 0 => .ok fs
      | depth + 1 => if above.isEmpty then .ok fs else makeDirsFrom depth fs above
    match prepared with
    | .error e => .error e
    | .ok fs =>
      match fs.makeDir p, fs.find p with
      | .ok fs, _ => .ok fs
      | .error _, .ok .dir => .ok fs
      | .error cause, _ => .error ⟨"mkdir", p, cause⟩

def makeDirs (fs : Files) (p : Text) : Except FileError Files := makeDirsFrom p.length fs p

def plant (fs : Files) (p : Text) (n : FileNode) : Files :=
  let place := Path.parts (Path.absolute fs.cwd p)
  let dirs := (List.range place.length).map place.take
  (dirs.foldl (fun fs d => if (fs.node? d).isSome then fs else fs.put d .dir) fs).put place n

def devices : Files :=
  (({} : Files).plant "/dev/full" .fullDevice).plant "/dev/null" .nullDevice

end Files

end Arbor
