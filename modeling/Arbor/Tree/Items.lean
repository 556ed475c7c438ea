import Arbor.Msgpack.Item
import Arbor.Tree.Basic

/-! Trees as MessagePack items. A node is a map from field names to values in which fields of no
content are left out; `keep` says whether a list without nodes counts as content. Reading is
lenient: a node may also be a list of all its fields in order, integers wrap to the width of their
field, unknown fields are skipped, and a field that comes twice is read on top of what it held. -/

namespace Arbor.Tree

open Msgpack

/-! ## Writing -/

def textEntry (key : String) (t : Text) : List (Text × Item) :=
  if t.isEmpty then [] else [(key, .text t)]

def byteEntry (key : String) (n : UInt8) : List (Text × Item) :=
  if n = 0 then [] else [(key, .int 1 n.toNat)]

def boolEntry (key : String) (b : Bool) : List (Text × Item) :=
  if b then [(key, .bool true)] else []

def wordEntry (key : String) (n : UInt64) : List (Text × Item) :=
  if n = 0 then [] else [(key, .int 8 n.toNat)]

def floatEntry (key : String) (bits : UInt64) : List (Text × Item) :=
  if bits &&& 0x7FFFFFFFFFFFFFFF = 0 then [] else [(key, .float bits)]

def nodeEntry (key : String) : Option Item → List (Text × Item)
  | none => []
  | some i => [(key, i)]

def listEntry (keep : Bool) (key : String) : Option (List Item) → List (Text × Item)
  | none => []
  | some l => if l.isEmpty && !keep then [] else [(key, .list l)]

def TypeRef.toItem (t : TypeRef) : Item :=
  .map (textEntry "name" t.name ++ byteEntry "ptr" t.depth)

def Import.toItem (i : Import) : Item :=
  .map (textEntry "name" i.name ++ textEntry "target" i.target)

mutual

def Expr.toItem (keep : Bool) : Expr → Item
  | { kind := kind, int := int, bits := bits, float := float, bool := bool, str := str,
      name := name, op := op, x := x, y := y, cond := cond, args := args, type := type,
      count := count } =>
    .map (byteEntry "kind" kind ++ wordEntry "int" int ++ byteEntry "bits" bits
      ++ floatEntry "float" float ++ boolEntry "bool" bool ++ textEntry "str" str
      ++ textEntry "name" name ++ textEntry "op" op ++ nodeEntry "x" (exprItem keep x)
      ++ nodeEntry "y" (exprItem keep y) ++ nodeEntry "cond" (exprItem keep cond)
      ++ listEntry keep "args" (exprItemsIn keep args) ++ nodeEntry "type" (type.map TypeRef.toItem)
      ++ nodeEntry "count" (exprItem keep count))

def exprItem (keep : Bool) : Option Expr → Option Item
  | some e => some (e.toItem keep)
  | none => none

def exprItemsIn (keep : Bool) : Option (List (Option Expr)) → Option (List Item)
  | some l => some (exprItems keep l)
  | none => none

def exprItems (keep : Bool) : List (Option Expr) → List Item
  | [] => []
  | none :: rest => .nil :: exprItems keep rest
  | some e :: rest => e.toItem keep :: exprItems keep rest

end

mutual

def Stmt.toItem (keep : Bool) : Stmt → Item
  | { kind := kind, list := list, name := name, type := type, target := target, value := value,
      cond := cond, yes := yes, no := no, init := init, step := step, body := body } =>
    .map (byteEntry "kind" kind ++ listEntry keep "list" (stmtItemsIn keep list)
      ++ textEntry "name" name ++ nodeEntry "type" (type.map TypeRef.toItem)
      ++ nodeEntry "target" (target.map (Expr.toItem keep))
      ++ nodeEntry "value" (value.map (Expr.toItem keep))
      ++ nodeEntry "cond" (cond.map (Expr.toItem keep)) ++ nodeEntry "then" (stmtItem keep yes)
      ++ nodeEntry "else" (stmtItem keep no) ++ nodeEntry "init" (stmtItem keep init)
      ++ nodeEntry "step" (stmtItem keep step) ++ nodeEntry "body" (stmtItem keep body))

def stmtItem (keep : Bool) : Option Stmt → Option Item
  | some s => some (s.toItem keep)
  | none => none

def stmtItemsIn (keep : Bool) : Option (List (Option Stmt)) → Option (List Item)
  | some l => some (stmtItems keep l)
  | none => none

def stmtItems (keep : Bool) : List (Option Stmt) → List Item
  | [] => []
  | none :: rest => .nil :: stmtItems keep rest
  | some s :: rest => s.toItem keep :: stmtItems keep rest

end

def Param.toItem (p : Param) : Item :=
  .map (textEntry "name" p.name ++ nodeEntry "type" (p.type.map TypeRef.toItem))

def Field.toItem (keep : Bool) (f : Field) : Item :=
  .map (textEntry "name" f.name ++ nodeEntry "type" (f.type.map TypeRef.toItem)
    ++ nodeEntry "init" (f.init.map (Expr.toItem keep)))

def nodeItems {α : Type} (f : α → Item) (l : Nodes α) : Option (List Item) :=
  l.map fun l => l.map fun n => n.elim .nil f

def Decl.toItem (keep : Bool) (d : Decl) : Item :=
  .map (byteEntry "kind" d.kind ++ textEntry "name" d.name
    ++ listEntry keep "params" (nodeItems Param.toItem d.params)
    ++ nodeEntry "ret" (d.ret.map TypeRef.toItem) ++ boolEntry "variadic" d.variadic
    ++ nodeEntry "body" (d.body.map (Stmt.toItem keep)) ++ textEntry "base" d.base
    ++ listEntry keep "fields" (nodeItems (Field.toItem keep) d.fields)
    ++ nodeEntry "type" (d.type.map TypeRef.toItem)
    ++ nodeEntry "init" (d.init.map (Expr.toItem keep))
    ++ listEntry keep "names" (d.names.map fun l => l.map Item.text))

def Module.toItem (keep : Bool) (m : Module) : Item :=
  .map (textEntry "name" m.name ++ textEntry "path" m.path
    ++ listEntry keep "imports" (nodeItems Import.toItem m.imports)
    ++ listEntry keep "decls" (nodeItems (Decl.toItem keep) m.decls))

/-! ## Reading -/

def readWord : Item → Option UInt64
  | .nil => some 0
  | .int _ n => some (n % 0x10000000000000000).toNat.toUInt64
  | _ => none

def readByte (i : Item) : Option UInt8 := (readWord i).map UInt64.toUInt8

def readBool : Item → Option Bool
  | .nil => some false
  | .bool b => some b
  | _ => none

def readText : Item → Option Text
  | .nil => some []
  | .text t => some t
  | _ => none

def readFloat : Item → Option UInt64
  | .float bits => some bits
  | i => (readWord i).map fun n => n.toInt64.toFloat.toBits

def readNames (old : Option (List Text)) : Item → Option (Option (List Text))
  | .nil => some old
  | .list l => (l.mapM readText).map some
  | _ => none

/-- The entries of a node: those of a map, or all fields in order from a list of just so many. An
empty list and nil have none, and clear the node. -/
def entriesOf (fields : List String) : Item → Option (Bool × List (Text × Item))
  | .nil => some (true, [])
  | .map entries => some (false, entries)
  | .list [] => some (true, [])
  | .list l =>
    if l.length = fields.length then some (false, (fields.map Text.ofString).zip l) else none
  | _ => none

def readNode {α : Type} (fields : List String) (blank : α) (set : α → Text → Item → Option α)
    (old : α) (i : Item) : Option α := do
  let (cleared, entries) ← entriesOf fields i
  entries.foldlM (fun a (key, v) => set a key v) (if cleared then blank else old)

def readOptional {α : Type} (blank : α) (read : α → Item → Option α) (old : Option α) :
    Item → Option (Option α)
  | .nil => some none
  | i => (read (old.getD blank) i).map some

def readOver {α : Type} (read : Option α → Item → Option (Option α)) :
    List (Option α) → List Item → Option (List (Option α))
  | _, [] => some []
  | [], i :: rest => do
    let n ← read none i
    let ns ← readOver read [] rest
    pure (n :: ns)
  | old :: olds, i :: rest => do
    let n ← read old i
    let ns ← readOver read olds rest
    pure (n :: ns)

def readNodes {α : Type} (read : Option α → Item → Option (Option α)) (old : Nodes α) :
    Item → Option (Nodes α)
  | .nil => some none
  | .list l => (readOver read old.items l).map some
  | _ => none

def TypeRef.set (t : TypeRef) (key : Text) (i : Item) : Option TypeRef :=
  if key = Text.ofString "name" then (readText i).map fun name => { t with name }
  else if key = Text.ofString "ptr" then (readByte i).map fun depth => { t with depth }
  else some t

def readType : Option TypeRef → Item → Option (Option TypeRef) :=
  readOptional {} (readNode ["name", "ptr"] {} TypeRef.set)

def Import.set (t : Import) (key : Text) (i : Item) : Option Import :=
  if key = Text.ofString "name" then (readText i).map fun name => { t with name }
  else if key = Text.ofString "target" then (readText i).map fun target => { t with target }
  else some t

def exprFields : List String :=
  ["kind", "int", "bits", "float", "bool", "str", "name", "op", "x", "y", "cond", "args", "type",
   "count"]

def stmtFields : List String :=
  ["kind", "list", "name", "type", "target", "value", "cond", "then", "else", "init", "step",
   "body"]

def Expr.setPlain (e : Expr) (key : Text) (i : Item) : Option Expr :=
  if key = Text.ofString "kind" then (readByte i).map fun kind => { e with kind }
  else if key = Text.ofString "int" then (readWord i).map fun int => { e with int }
  else if key = Text.ofString "bits" then (readByte i).map fun bits => { e with bits }
  else if key = Text.ofString "float" then (readFloat i).map fun float => { e with float }
  else if key = Text.ofString "bool" then (readBool i).map fun bool => { e with bool }
  else if key = Text.ofString "str" then (readText i).map fun str => { e with str }
  else if key = Text.ofString "name" then (readText i).map fun name => { e with name }
  else if key = Text.ofString "op" then (readText i).map fun op => { e with op }
  else if key = Text.ofString "type" then (readType e.type i).map fun type => { e with type }
  else some e

def Expr.set (inner : Option Expr → Item → Option (Option Expr)) (e : Expr) (key : Text) (i : Item) :
    Option Expr :=
  if key = Text.ofString "x" then (inner e.x i).map fun x => { e with x }
  else if key = Text.ofString "y" then (inner e.y i).map fun y => { e with y }
  else if key = Text.ofString "cond" then (inner e.cond i).map fun cond => { e with cond }
  else if key = Text.ofString "count" then (inner e.count i).map fun count => { e with count }
  else if key = Text.ofString "args" then
    (readNodes inner e.args i).map fun args => { e with args }
  else e.setPlain key i

def Expr.read : Nat → Expr → Item → Option Expr
  | 0, _, _ => none
  | depth + 1, old, i =>
    readNode exprFields {} (Expr.set (readOptional {} (Expr.read depth))) old i

def readExpr (depth : Nat) : Option Expr → Item → Option (Option Expr) :=
  readOptional {} (Expr.read depth)

def Stmt.setPlain (depth : Nat) (s : Stmt) (key : Text) (i : Item) : Option Stmt :=
  if key = Text.ofString "kind" then (readByte i).map fun kind => { s with kind }
  else if key = Text.ofString "name" then (readText i).map fun name => { s with name }
  else if key = Text.ofString "type" then (readType s.type i).map fun type => { s with type }
  else if key = Text.ofString "target" then
    (readExpr depth s.target i).map fun target => { s with target }
  else if key = Text.ofString "value" then
    (readExpr depth s.value i).map fun value => { s with value }
  else if key = Text.ofString "cond" then (readExpr depth s.cond i).map fun cond => { s with cond }
  else some s

/-- Reads a field of a statement on top of the statement; `inner` reads the statements in it, and
`depth` bounds the nesting of its expressions. -/
def Stmt.set (depth : Nat) (inner : Option Stmt → Item → Option (Option Stmt)) (s : Stmt) (key : Text)
    (i : Item) : Option Stmt :=
  if key = Text.ofString "then" then (inner s.yes i).map fun yes => { s with yes }
  else if key = Text.ofString "else" then (inner s.no i).map fun no => { s with no }
  else if key = Text.ofString "init" then (inner s.init i).map fun init => { s with init }
  else if key = Text.ofString "step" then (inner s.step i).map fun step => { s with step }
  else if key = Text.ofString "body" then (inner s.body i).map fun body => { s with body }
  else if key = Text.ofString "list" then
    (readNodes inner s.list i).map fun list => { s with list }
  else s.setPlain depth key i

def Stmt.read : Nat → Stmt → Item → Option Stmt
  | 0, _, _ => none
  | depth + 1, old, i =>
    readNode stmtFields {} (Stmt.set depth (readOptional {} (Stmt.read depth))) old i

def Param.set (p : Param) (key : Text) (i : Item) : Option Param :=
  if key = Text.ofString "name" then (readText i).map fun name => { p with name }
  else if key = Text.ofString "type" then (readType p.type i).map fun type => { p with type }
  else some p

def Field.set (depth : Nat) (f : Field) (key : Text) (i : Item) : Option Field :=
  if key = Text.ofString "name" then (readText i).map fun name => { f with name }
  else if key = Text.ofString "type" then (readType f.type i).map fun type => { f with type }
  else if key = Text.ofString "init" then (readExpr depth f.init i).map fun init => { f with init }
  else some f

def readParam : Option Param → Item → Option (Option Param) :=
  readOptional {} (readNode ["name", "type"] {} Param.set)

def readField (depth : Nat) : Option Field → Item → Option (Option Field) :=
  readOptional {} (readNode ["name", "type", "init"] {} (Field.set depth))

def Decl.set (depth : Nat) (d : Decl) (key : Text) (i : Item) : Option Decl :=
  if key = Text.ofString "kind" then (readByte i).map fun kind => { d with kind }
  else if key = Text.ofString "name" then (readText i).map fun name => { d with name }
  else if key = Text.ofString "params" then
    (readNodes readParam d.params i).map fun params => { d with params }
  else if key = Text.ofString "ret" then (readType d.ret i).map fun ret => { d with ret }
  else if key = Text.ofString "variadic" then
    (readBool i).map fun variadic => { d with variadic }
  else if key = Text.ofString "body" then
    (readOptional {} (Stmt.read depth) d.body i).map fun body => { d with body }
  else if key = Text.ofString "base" then (readText i).map fun base => { d with base }
  else if key = Text.ofString "fields" then
    (readNodes (readField depth) d.fields i).map fun fields => { d with fields }
  else if key = Text.ofString "type" then (readType d.type i).map fun type => { d with type }
  else if key = Text.ofString "init" then (readExpr depth d.init i).map fun init => { d with init }
  else if key = Text.ofString "names" then (readNames d.names i).map fun names => { d with names }
  else some d

def declFields : List String :=
  ["kind", "name", "params", "ret", "variadic", "body", "base", "fields", "type", "init", "names"]

def readDecl (depth : Nat) : Option Decl → Item → Option (Option Decl) :=
  readOptional {} (readNode declFields {} (Decl.set depth))

def readImport : Option Import → Item → Option (Option Import) :=
  readOptional {} (readNode ["name", "target"] {} Import.set)

def Module.set (depth : Nat) (m : Module) (key : Text) (i : Item) : Option Module :=
  if key = Text.ofString "name" then (readText i).map fun name => { m with name }
  else if key = Text.ofString "path" then (readText i).map fun path => { m with path }
  else if key = Text.ofString "imports" then
    (readNodes readImport m.imports i).map fun imports => { m with imports }
  else if key = Text.ofString "decls" then
    (readNodes (readDecl depth) m.decls i).map fun decls => { m with decls }
  else some m

def readModule (depth : Nat) : Option Module → Item → Option (Option Module) :=
  readOptional {} (readNode ["name", "path", "imports", "decls"] {} (Module.set depth))

end Arbor.Tree
