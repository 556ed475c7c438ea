import Arbor.Tree.Basic
import Arbor.Number.Notation
import Arbor.Text.Quoted
import Arbor.Json

/-! A module drawn as an outline: one labelled line to a node, as text with branches or as nested
JSON. Drawing needs the nodes that a checked module has; where one of them is absent there is no
outline. -/

namespace Arbor.Tree

/-- A labelled node with what is below it. -/
inductive Outline where
  | node (label : Text) (children : List Outline)

namespace Outline

def leaf (label : Text) : Outline := .node label []

end Outline

mutual

def Expr.inline : Expr → Text
  | { kind := kind, int := int, bits := bits, float := float, bool := bool, str := str,
      name := name, op := op, x := x, y := y, cond := cond, args := args, type := type,
      count := count } =>
    match ExprKind.ofCode? kind with
    | some .int => Text.ofNat int.toNat ++ Text.when (bits ≠ 0) ("i" ++ Text.ofNat bits.toNat)
    | some .float => Double.shortText float
    | some .bool => if bool then "true" else "false"
    | some .string => str.quoted
    | some .ident => name
    | some .unary => op ++ inlineIn x
    | some .binary => "(" ++ inlineIn x ++ " " ++ op ++ " " ++ inlineIn y ++ ")"
    | some .call =>
      name ++ "(" ++ Text.join ", " (match args with | some l => inlineAll l | none => []) ++ ")"
    | some .ternary =>
      "(" ++ inlineIn cond ++ " ? " ++ inlineIn x ++ " : " ++ inlineIn y ++ ")"
    | some .make =>
      "make " ++ TypeRef.writtenOr type
        ++ (match count with | some e => "[" ++ e.inline ++ "]" | none => [])
    | some .cast => TypeRef.writtenOr type ++ "(" ++ inlineIn x ++ ")"
    | none => ExprKind.nameOf kind

def inlineIn : Option Expr → Text
  | none => "<none>"
  | some e => e.inline

def inlineAll : List (Option Expr) → List Text
  | [] => []
  | none :: rest => Text.ofString "<none>" :: inlineAll rest
  | some e :: rest => e.inline :: inlineAll rest

end

def exprLines (label : Text) : Option Expr → List Outline
  | none => []
  | some e => [.leaf (label ++ ": " ++ e.inline)]

mutual

def Stmt.outline : Stmt → Outline
  | { kind := kind, list := list, name := name, type := type, target := target, value := value,
      cond := cond, yes := yes, no := no, init := init, step := step, body := body } =>
    .node ("Stmt " ++ StmtKind.nameOf kind ++ Text.when (!name.isEmpty) (": " ++ name))
      (match StmtKind.ofCode? kind with
      | some .block => match list with | some l => stmtOutlines l | none => []
      | some .bind =>
        (type.elim [] fun t => [Outline.leaf ("Type: " ++ t.written)]) ++ exprLines "Value" value
      | some .assign => exprLines "Target" target ++ exprLines "Value" value
      | some .ret | some .eval | some .drop => exprLines "Value" value
      | some .cond =>
        exprLines "Cond" cond
          ++ (match yes with | some s => [.node "Then" [s.outline]] | none => [])
          ++ (match no with | some s => [.node "Else" [s.outline]] | none => [])
      | some .loop =>
        (match init with | some s => [.node "Init" [s.outline]] | none => [])
          ++ exprLines "Cond" cond
          ++ (match step with | some s => [.node "Step" [s.outline]] | none => [])
          ++ (match body with | some s => [.node "Body" [s.outline]] | none => [])
      | _ => [])

def stmtOutlines : List (Option Stmt) → List Outline
  | [] => []
  | none :: rest => stmtOutlines rest
  | some s :: rest => s.outline :: stmtOutlines rest

end

def Decl.signature (d : Decl) : Option Text := do
  let params ← d.params.items.mapM fun p => do
    let p ← p
    pure (p.name ++ " " ++ TypeRef.writtenOr p.type)
  pure ("(" ++ Text.join ", " params ++ Text.when d.variadic ", ..." ++ ") "
    ++ TypeRef.writtenOr d.ret)

def Field.outline (f : Field) : Outline :=
  let type : Text := match f.type with
    | some t => " " ++ t.written
    | none => []
  .node ("Field: " ++ f.name ++ type) (exprLines "Init" f.init)

def Decl.outline (d : Decl) : Option Outline := do
  let label := "Decl " ++ DeclKind.nameOf d.kind ++ ": "
  match d.kind? with
  | some .func | some .foreign =>
    let signature ← d.signature
    pure (.node (label ++ d.name)
      (.leaf ("Signature: " ++ signature) :: d.body.elim [] fun s => [s.outline]))
  | some .struct =>
    let fields ← d.fields.items.mapM fun f => f.map Field.outline
    pure (.node (label ++ d.name)
      ((if d.base.isEmpty then [] else [.leaf ("Base: " ++ d.base)]) ++ fields))
  | some .bind =>
    pure (.node (label ++ d.name)
      (.leaf ("Type: " ++ TypeRef.writtenOr d.type) :: exprLines "Value" d.init))
  | some .publish => pure (.leaf (label ++ Text.join ", " d.nameList))
  | none => pure (.leaf (label ++ d.name))

def declOutlines : Nat → List (Option Decl) → Option (List Outline)
  | _, [] => some []
  | index, none :: rest => do
    let below ← declOutlines (index + 1) rest
    pure (.leaf ("Decl[" ++ Text.ofNat index ++ "]: <nil>") :: below)
  | index, some d :: rest => do
    let first ← d.outline
    let below ← declOutlines (index + 1) rest
    pure (first :: below)

def Import.outline (i : Import) : Outline :=
  .leaf ("Import: " ++ i.target
    ++ Text.when (!i.name.isEmpty && i.name ≠ i.target) (" as " ++ i.name))

def Module.outline (m : Module) : Option Outline := do
  let imports ← m.imports.items.mapM fun i => i.map Import.outline
  let decls ← declOutlines 0 m.decls.items
  pure (.node ("Module: " ++ m.name)
    ((if m.path.isEmpty then [] else [.leaf ("Path: " ++ m.path)])
      ++ (if imports.isEmpty then []
          else [.node ("Imports: " ++ Text.ofNat imports.length) imports])
      ++ decls))

namespace Outline

mutual

def branches (lead : Text) : List Outline → Text
  | [] => []
  | [o] => o.branch lead "└─ " "   "
  | o :: next :: rest => o.branch lead "├─ " "│  " ++ branches lead (next :: rest)

def branch (lead mark below : Text) : Outline → Text
  | .node label children => lead ++ mark ++ label ++ "\n" ++ branches (lead ++ below) children

end

def draw : Outline → Text
  | .node label children => label ++ "\n" ++ branches [] children

mutual

def toJson : Outline → Json
  | .node label children =>
    let (head, text) := (Text.cut ": " label).getD (label, [])
    let (type, kind) := (Text.cut " " head).getD (head, [])
    .object ([(Text.ofString "type", .text type)] ++ Json.textField "kind" kind
      ++ Json.textField "text" text
      ++ (match children with
        | [] => []
        | _ :: _ => [(Text.ofString "children", .list (toJsons children))]))

def toJsons : List Outline → List Json
  | [] => []
  | o :: rest => o.toJson :: toJsons rest

end

end Outline

end Arbor.Tree
