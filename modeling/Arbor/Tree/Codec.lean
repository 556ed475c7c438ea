import Arbor.Tree.Items
import Arbor.Tree.Check
import Arbor.Files.Basic

/-! Encoded modules: an envelope with the version of the layout around the module, and the files
that hold them. -/

namespace Arbor.Tree

open Diag Msgpack

def schemaVersion : UInt16 := 1

/-- What an encoded module holds before it is looked at. -/
structure Envelope where
  schema : UInt16 := 0
  module : Option Module := none

namespace Envelope

def toItem (e : Envelope) : Item :=
  .map ((if e.schema = 0 then [] else [(Text.ofString "schema", .int 2 e.schema.toNat)])
    ++ nodeEntry "module" (e.module.map (Module.toItem false)))

def set (depth : Nat) (e : Envelope) (key : Text) (i : Item) : Option Envelope :=
  if key = Text.ofString "schema" then (readWord i).map fun n => { e with schema := n.toUInt16 }
  else if key = Text.ofString "module" then
    (readModule depth e.module i).map fun module => { e with module }
  else some e

/-- Reads the envelope at the front of some bytes; what follows it is ignored. Nothing nests deeper
than there are bytes. -/
def ofBytes? (t : Text) : Option Envelope := do
  let (i, _) ← Msgpack.read t
  readNode ["schema", "module"] {} (set (t.length + 1)) {} i

end Envelope

def encode : Option Module → Except Fault Text
  | none => .error (.error .decodeTree "cannot encode a nil module")
  | some m => .ok (Msgpack.write (Envelope.toItem ⟨schemaVersion, some m⟩))

def decode (t : Text) : Except Fault Module :=
  match Envelope.ofBytes? t with
  | none => .error (.error .decodeTree "malformed module")
  | some e =>
    if e.schema ≠ schemaVersion then
      .error (.error .decodeTree
        ("schema " ++ Text.ofNat e.schema.toNat ++ ", want " ++ Text.ofNat schemaVersion.toNat))
    else match e.module with
      | none => .error (.error .decodeTree "empty payload")
      | some m => m.check.map fun _ => m

def saveModule (fs : Files) (path : Text) (m : Option Module) : Except Fault Files := do
  let bytes ← encode m
  (fs.write path bytes).mapError fun e => .wrap .loadFile (.plain e.message) ("write " ++ path)

/-- Reads the module that a file holds and records the path on it. What cannot be read as a file
though it could be opened is no module. -/
def openModule (fs : Files) (path : Text) : Except Fault Module :=
  match fs.find path with
  | .error cause =>
    .error (.wrap .loadFile (.plain (FileError.message ⟨"open", path, cause⟩)) ("open " ++ path))
  | .ok node =>
    let bytes := match node with
      | .file t => t
      | _ => []
    match decode bytes with
    | .error f => .error (.context path f)
    | .ok m => .ok { m with path }

end Arbor.Tree
