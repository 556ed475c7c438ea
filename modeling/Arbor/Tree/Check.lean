import Arbor.Tree.Basic
import Arbor.Diag.Fault

/-! The shape check of a tree: every node carries the fields that its kind needs. Names are not
looked up here. The first problem in reading order is the one reported. -/

namespace Arbor.Tree

open Diag

/-- What can be wrong with the shape of a module. -/
inductive Problem where
  | noTarget (index : Nat)
  | absentDecl (index : Nat)
  | unnamed (kind : DeclKind) (index : Nat)
  | untypedParam (kind : DeclKind) (name : Text)
  | bodyNotBlock (name : Text)
  | malformedField (name : Text)
  | bareBinding (index : Nat)
  | emptyExport (index : Nat)
  | unknownDecl (index : Nat) (kind : UInt8)
  | absentStmt
  | bareLet
  | bareAssign
  | bareIf
  | bareLoop
  | noValue (kind : StmtKind)
  | unknownStmt (kind : UInt8)
  | intWidth (bits : UInt8)
  | unnamedIdent
  | bareUnary
  | bareBinary
  | unnamedCall
  | absentArg (name : Text)
  | bareTernary
  | bareMake
  | bareCast
  | unknownExpr (kind : UInt8)
deriving DecidableEq

namespace Problem

def message : Problem → Text
  | .noTarget i => "import #" ++ Text.ofNat i ++ " has no target"
  | .absentDecl i => "declaration #" ++ Text.ofNat i ++ " is nil"
  | .unnamed kind i => kind.name ++ " #" ++ Text.ofNat i ++ " has no name"
  | .untypedParam kind name => kind.name ++ " " ++ name ++ ": parameter without type"
  | .bodyNotBlock name => "func " ++ name ++ ": body must be a block"
  | .malformedField name => "struct " ++ name ++ ": malformed field"
  | .bareBinding i => "let #" ++ Text.ofNat i ++ " needs a name and an initializer"
  | .emptyExport i => "export #" ++ Text.ofNat i ++ " lists no names"
  | .unknownDecl i kind =>
    "declaration #" ++ Text.ofNat i ++ " has unknown kind " ++ Text.ofNat kind.toNat
  | .absentStmt => "nil statement in block"
  | .bareLet => "let needs a name and a type or value"
  | .bareAssign => "assignment needs a target and a value"
  | .bareIf => "if needs a condition and a body"
  | .bareLoop => "loop needs a body"
  | .noValue kind => kind.name ++ " needs a value"
  | .unknownStmt kind => "statement has unknown kind " ++ Text.ofNat kind.toNat
  | .intWidth bits => "integer literal with " ++ Text.ofNat bits.toNat ++ " bits"
  | .unnamedIdent => "identifier without a name"
  | .bareUnary => "unary expression needs an operator and an operand"
  | .bareBinary => "binary expression needs an operator and two operands"
  | .unnamedCall => "call without a callee"
  | .absentArg name => "call " ++ name ++ ": nil argument"
  | .bareTernary => "ternary needs three operands"
  | .bareMake => "make without a type"
  | .bareCast => "cast needs a type and an operand"
  | .unknownExpr kind => "expression has unknown kind " ++ Text.ofNat kind.toNat

end Problem

abbrev Finding := Option Problem

namespace Finding

def when (bad : Bool) (p : Problem) : Finding := if bad then some p else none

end Finding

def intWidths : List UInt8 := [0, 8, 16, 32, 64]

mutual

def Expr.problem? : Expr → Finding
  | { kind := kind, bits := bits, name := name, op := op, x := x, y := y, cond := cond,
      args := args, type := type, count := count, .. } =>
    match ExprKind.ofCode? kind with
    | some .int => Finding.when (!intWidths.contains bits) (.intWidth bits)
    | some .float | some .bool | some .string => none
    | some .ident => Finding.when name.isEmpty .unnamedIdent
    | some .unary => Finding.when (op.isEmpty || x.isNone) .bareUnary <|> Expr.problemIn? x
    | some .binary =>
      Finding.when (op.isEmpty || x.isNone || y.isNone) .bareBinary
        <|> Expr.problemIn? x <|> Expr.problemIn? y
    | some .call => Finding.when name.isEmpty .unnamedCall <|> argsProblemIn? name args
    | some .ternary =>
      Finding.when (cond.isNone || x.isNone || y.isNone) .bareTernary
        <|> Expr.problemIn? cond <|> Expr.problemIn? x <|> Expr.problemIn? y
    | some .make => Finding.when type.isNone .bareMake <|> Expr.problemIn? count
    | some .cast => Finding.when (type.isNone || x.isNone) .bareCast <|> Expr.problemIn? x
    | none => some (.unknownExpr kind)

def Expr.problemIn? : Option Expr → Finding
  | some e => e.problem?
  | none => none

def argsProblemIn? (callee : Text) : Option (List (Option Expr)) → Finding
  | some l => argsProblem? callee l
  | none => none

def argsProblem? (callee : Text) : List (Option Expr) → Finding
  | [] => none
  | none :: _ => some (.absentArg callee)
  | some e :: rest => e.problem? <|> argsProblem? callee rest

end

mutual

def Stmt.problem? : Stmt → Finding
  | { kind := kind, list := list, name := name, type := type, target := target, value := value,
      cond := cond, yes := yes, no := no, init := init, step := step, body := body } =>
    match StmtKind.ofCode? kind with
    | some .block => listProblemIn? list
    | some .bind =>
      Finding.when (name.isEmpty || (type.isNone && value.isNone)) .bareLet
        <|> Expr.problemIn? value
    | some .assign =>
      Finding.when (target.isNone || value.isNone) .bareAssign
        <|> Expr.problemIn? target <|> Expr.problemIn? value
    | some .ret => Expr.problemIn? value
    | some .cond =>
      Finding.when (cond.isNone || yes.isNone) .bareIf
        <|> Expr.problemIn? cond <|> Stmt.problemIn? yes <|> Stmt.problemIn? no
    | some .loop =>
      Finding.when body.isNone .bareLoop
        <|> Stmt.problemIn? init <|> Expr.problemIn? cond <|> Stmt.problemIn? step
        <|> Stmt.problemIn? body
    | some .leave | some .next => none
    | some .eval => Finding.when value.isNone (.noValue .eval) <|> Expr.problemIn? value
    | some .drop => Finding.when value.isNone (.noValue .drop) <|> Expr.problemIn? value
    | none => some (.unknownStmt kind)

def Stmt.problemIn? : Option Stmt → Finding
  | some s => s.problem?
  | none => none

def listProblemIn? : Option (List (Option Stmt)) → Finding
  | some l => listProblem? l
  | none => none

def listProblem? : List (Option Stmt) → Finding
  | [] => none
  | none :: _ => some .absentStmt
  | some s :: rest => s.problem? <|> listProblem? rest

end

def paramsProblem? (kind : DeclKind) (name : Text) (params : List (Option Param)) : Finding :=
  Finding.when
    (params.any fun
      | none => true
      | some p => p.type.isNone)
    (.untypedParam kind name)

def bodyProblem? (name : Text) : Option Stmt → Finding
  | none => some (.bodyNotBlock name)
  | some s => if s.kind? = some .block then s.problem? else some (.bodyNotBlock name)

def fieldsProblem? (name : Text) : List (Option Field) → Finding
  | [] => none
  | none :: _ => some (.malformedField name)
  | some f :: rest =>
    Finding.when (f.name.isEmpty || (f.type.isNone && f.init.isNone)) (.malformedField name)
      <|> Expr.problemIn? f.init <|> fieldsProblem? name rest

def Decl.problem? (index : Nat) (d : Decl) : Finding :=
  match d.kind? with
  | some .func =>
    Finding.when d.name.isEmpty (.unnamed .func index)
      <|> paramsProblem? .func d.name d.params.items <|> bodyProblem? d.name d.body
  | some .foreign =>
    Finding.when d.name.isEmpty (.unnamed .foreign index)
      <|> paramsProblem? .foreign d.name d.params.items
  | some .struct =>
    Finding.when d.name.isEmpty (.unnamed .struct index) <|> fieldsProblem? d.name d.fields.items
  | some .bind =>
    Finding.when (d.name.isEmpty || d.init.isNone) (.bareBinding index)
      <|> Expr.problemIn? d.init
  | some .publish => Finding.when d.nameList.isEmpty (.emptyExport index)
  | none => some (.unknownDecl index d.kind)

def declsProblem? : Nat → List (Option Decl) → Finding
  | _, [] => none
  | index, none :: _ => some (.absentDecl index)
  | index, some d :: rest => d.problem? index <|> declsProblem? (index + 1) rest

def importsProblem? : Nat → List (Option Import) → Finding
  | _, [] => none
  | index, none :: _ => some (.noTarget index)
  | index, some i :: rest =>
    Finding.when i.target.isEmpty (.noTarget index) <|> importsProblem? (index + 1) rest

def Module.problem? (m : Module) : Finding :=
  importsProblem? 0 m.imports.items <|> declsProblem? 0 m.decls.items

def Module.check (m : Module) : Except Fault Unit :=
  if m.name.isEmpty then .error (.error .decodeTree "module has no name")
  else match m.problem? with
    | some p => .error (.wrap .decodeTree (.plain p.message) ("module " ++ m.name))
    | none => .ok ()

end Arbor.Tree
