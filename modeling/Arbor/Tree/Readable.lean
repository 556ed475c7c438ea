import Arbor.Tree.Items

/-! Trees in a form for people and other tools: nested entries in which a kind has its name, a type
reference is one text, and numbers that may be wide are written out. -/

namespace Arbor.Tree

open Msgpack

/-- What a node is; it decides what the fields of the node hold. -/
inductive NodeClass where
  | module | use | decl | param | field | stmt | expr
deriving DecidableEq

namespace NodeClass

def children : List (String × NodeClass) :=
  [("imports", .use), ("decls", .decl), ("params", .param), ("fields", .field), ("list", .stmt),
   ("then", .stmt), ("else", .stmt), ("step", .stmt), ("body", .stmt), ("value", .expr),
   ("x", .expr), ("y", .expr), ("cond", .expr), ("count", .expr), ("args", .expr)]

def child? (c : NodeClass) (key : Text) : Option NodeClass :=
  if key = Text.ofString "init" then some (if c = .stmt then .stmt else .expr)
  else if key = Text.ofString "target" then if c = .stmt then some .expr else none
  else (children.find? fun (name, _) => Text.ofString name = key).map Prod.snd

def kindName (c : NodeClass) (code : UInt8) : Text :=
  match c with
  | .expr => ExprKind.nameOf code
  | .stmt => StmtKind.nameOf code
  | _ => DeclKind.nameOf code

def kindCode? (c : NodeClass) (name : Text) : Option Nat :=
  (List.range 16).find? fun code => c.kindName code.toUInt8 = name

end NodeClass

def isTypeKey (key : Text) : Bool := key = Text.ofString "type" || key = Text.ofString "ret"

/-! ### Writing -/

def TypeRef.readable (entries : List (Text × Item)) : Text :=
  ((readType none (.map entries)).join.map TypeRef.written).getD []

def readableScalar (c : NodeClass) (key : Text) : Item → Item
  | .int bytes n =>
    let name := c.kindName n.toNat.toUInt8
    if key = Text.ofString "int" then .text (Text.ofInt n)
    else if key = Text.ofString "kind" && name ≠ Text.ofString "invalid" then .text name
    else .int bytes n
  | .float bits => .text (Text.hexFixed Text.lowerHex 16 bits.toNat)
  | .map entries => if isTypeKey key then .text (TypeRef.readable entries) else .map entries
  | i => i

mutual

def readable (c : NodeClass) : Item → Item
  | .list items => .list (readableAll c items)
  | .map entries => .map (readableEntries c entries)
  | i => i

def readableAll (c : NodeClass) : List Item → List Item
  | [] => []
  | i :: rest => readable c i :: readableAll c rest

def readableEntries (c : NodeClass) : List (Text × Item) → List (Text × Item)
  | [] => []
  | (key, i) :: rest =>
    let value := match c.child? key with
      | some child => readable child i
      | none => readableScalar c key i
    (key, value) :: readableEntries c rest

end

/-! ### Reading -/

def decimal (t : Text) : Int :=
  match Text.dropStart? "-" t with
  | some digits => -((Text.toNat? digits).getD 0)
  | none => (Text.toNat? t).getD 0

def scalarOfText (c : NodeClass) (key t : Text) : Item :=
  if key = Text.ofString "kind" then .int 1 (((c.kindCode? t).map Int.ofNat).getD (decimal t))
  else if key = Text.ofString "int" || key = Text.ofString "bits" then .int 8 (decimal t)
  else if key = Text.ofString "float" then .float (Text.hexValue t).toUInt64
  else if isTypeKey key then
    .map [("name", .text (t.dropWhile (· == 42))), ("ptr", .int 1 (t.takeWhile (· == 42)).length)]
  else .text t

mutual

def ofReadable (c : NodeClass) : Item → Item
  | .list items => .list (ofReadableAll c items)
  | .map entries => .map (ofReadableEntries c entries)
  | i => i

def ofReadableAll (c : NodeClass) : List Item → List Item
  | [] => []
  | i :: rest => ofReadable c i :: ofReadableAll c rest

def ofReadableEntries (c : NodeClass) : List (Text × Item) → List (Text × Item)
  | [] => []
  | (key, i) :: rest =>
    let value := match c.child? key, i with
      | some child, i => ofReadable child i
      | none, .text t => scalarOfText c key t
      | none, i => i
    (key, value) :: ofReadableEntries c rest

end

def readableDepth : Nat := 1000000

def node? {α : Type} (c : NodeClass) (read : Option α → Item → Option (Option α)) (i : Item) :
    Option α := (read none (ofReadable c i)).join

namespace TypeRef

def ofReadable? : Item → Option TypeRef
  | .text t =>
    some { name := t.dropWhile (· == 42), depth := (t.takeWhile (· == 42)).length.toUInt8 }
  | _ => none

end TypeRef

namespace Expr

def ofReadable? (i : Item) : Option Expr := node? .expr (readExpr readableDepth) i

def toReadable (e : Expr) : Item := readable .expr (e.toItem true)

end Expr

namespace Stmt

def ofReadable? (i : Item) : Option Stmt :=
  node? .stmt (readOptional {} (Stmt.read readableDepth)) i

def toReadable (s : Stmt) : Item := readable .stmt (s.toItem true)

end Stmt

namespace Param

def ofReadable? (i : Item) : Option Param := node? .param readParam i

def toReadable (p : Param) : Item := readable .param p.toItem

end Param

namespace Field

def ofReadable? (i : Item) : Option Field := node? .field (readField readableDepth) i

end Field

namespace Decl

def toReadable (d : Decl) : Item := readable .decl (d.toItem true)

end Decl

namespace Module

def ofReadable? (i : Item) : Option Module := node? .module (readModule readableDepth) i

def toReadable (m : Module) : Item := readable .module (m.toItem true)

end Module

end Arbor.Tree
