import Arbor.Diag.Fault
import Arbor.Files.Basic
import Arbor.Text.Quoted
import Arbor.Tree.Basic

/-! The files that a project is built from. -/

namespace Arbor.Project

open Diag

def isHidden (name : Text) : Bool := name.head? = some 46

def filesBelow (fs : Files) (place : List Text) : List Text :=
  fs.nodes.filterMap fun (parts, node) =>
    let inner := parts.drop place.length
    match node with
    | .dir => none
    | _ =>
      if place.isPrefixOf parts && !inner.dropLast.any isHidden
          && Tree.fileExt.isSuffixOf (inner.getLastD []) then
        some (Path.slash :: Text.join "/" parts)
      else none

def filesAt (fs : Files) (path : Text) : Except Fault (List Text) :=
  let p := Path.absolute fs.cwd path
  match fs.stat p with
  | .error e => .error (.context ("failed to stat " ++ p.quoted) (.plain e.message))
  | .ok .dir => .ok (filesBelow fs (Path.parts p))
  | .ok _ =>
    if Path.ext p = Tree.fileExt then .ok [p]
    else .error (.plain (p ++ ": expected a " ++ Tree.fileExt ++ " file or a directory"))

def discover (fs : Files) (paths : List Text) : Except Fault (List Text) := do
  let found ← paths.mapM (filesAt fs)
  pure (Text.sort found.flatten.eraseDups)

end Arbor.Project
