import Arbor.Files.Path
import Arbor.Text.Quoted

/-! Names of modules and the paths that relative imports stand for. -/

namespace Arbor.Project

def isModuleName : Text → Bool
  | [] => false
  | b :: rest => (Text.isLetter b || b == 95) && rest.all fun c =>
      Text.isLetter c || c == 95 || Text.isDigit c

/-- Why an import target is no path of the project. -/
inductive ImportError where
  | empty
  | notRelative (target : Text)
  | outside (target : Text)
deriving DecidableEq

namespace ImportError

def message : ImportError → Text
  | .empty => "empty import path"
  | .notRelative target => "import " ++ target.quoted ++ " is not relative"
  | .outside target => "import " ++ target.quoted ++ " escapes project root"

end ImportError

/-- The file that a relative target stands for in `file`; the extension may be left out. With a root
the file must lie inside it. -/
def importPath (root file target ext : Text) : Except ImportError Text :=
  if target.isEmpty then .error .empty
  else if target.head? ≠ some 46 then .error (.notRelative target)
  else
    let p := Path.join [Path.dir file, target]
    let p := if Path.ext p = ext then p else p ++ ext
    if root ≠ [] && !Path.isWithin root p then .error (.outside target) else .ok p

def shownPath (root p : Text) : Text :=
  if root.isEmpty || p.isEmpty then p
  else match Path.relative? root p with
    | some r => if (Text.ofString "..").isPrefixOf r then p else r
    | none => p

end Arbor.Project
