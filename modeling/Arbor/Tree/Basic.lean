import Arbor.Text

/-! Syntax trees as a parser hands them over. A node is a record with a kind; the kind says which
of its fields mean something. Nodes, kinds and lists may be absent or unknown, because a tree is
read from a file before anyone has checked it. -/

namespace Arbor.Tree

/-- A type by its name, behind `depth` pointers. -/
structure TypeRef where
  name : Text := []
  depth : UInt8 := 0
deriving DecidableEq

namespace TypeRef

def written (t : TypeRef) : Text := List.replicate t.depth.toNat 42 ++ t.name

def writtenOr : Option TypeRef → Text
  | none => "void"
  | some t => t.written

end TypeRef

/-- A dependency: a module name, or a path that starts with a dot. -/
structure Import where
  name : Text := []
  target : Text := []
deriving DecidableEq

namespace Import

def isRelative (i : Import) : Bool := i.target.head? == some 46

end Import

inductive ExprKind where
  | int | float | bool | string | ident | unary | binary | call | ternary | make | cast
deriving DecidableEq

namespace ExprKind

def ofCode? : UInt8 → Option ExprKind
  | 1 => some .int
  | 2 => some .float
  | 3 => some .bool
  | 4 => some .string
  | 5 => some .ident
  | 6 => some .unary
  | 7 => some .binary
  | 8 => some .call
  | 9 => some .ternary
  | 10 => some .make
  | 11 => some .cast
  | _ => none

def code : ExprKind → UInt8
  | .int => 1
  | .float => 2
  | .bool => 3
  | .string => 4
  | .ident => 5
  | .unary => 6
  | .binary => 7
  | .call => 8
  | .ternary => 9
  | .make => 10
  | .cast => 11

def name : ExprKind → String
  | .int => "int"
  | .float => "float"
  | .bool => "bool"
  | .string => "string"
  | .ident => "ident"
  | .unary => "unary"
  | .binary => "binary"
  | .call => "call"
  | .ternary => "ternary"
  | .make => "make"
  | .cast => "cast"

def nameOf (code : UInt8) : Text := ((ofCode? code).map name).getD "invalid"

end ExprKind

inductive StmtKind where
  | block | bind | assign | ret | cond | loop | leave | next | eval | drop
deriving DecidableEq

namespace StmtKind

def ofCode? : UInt8 → Option StmtKind
  | 1 => some .block
  | 2 => some .bind
  | 3 => some .assign
  | 4 => some .ret
  | 5 => some .cond
  | 6 => some .loop
  | 7 => some .leave
  | 8 => some .next
  | 9 => some .eval
  | 10 => some .drop
  | _ => none

def code : StmtKind → UInt8
  | .block => 1
  | .bind => 2
  | .assign => 3
  | .ret => 4
  | .cond => 5
  | .loop => 6
  | .leave => 7
  | .next => 8
  | .eval => 9
  | .drop => 10

def name : StmtKind → String
  | .block => "block"
  | .bind => "let"
  | .assign => "assign"
  | .ret => "return"
  | .cond => "if"
  | .loop => "loop"
  | .leave => "break"
  | .next => "continue"
  | .eval => "expr"
  | .drop => "drop"

def nameOf (code : UInt8) : Text := ((ofCode? code).map name).getD "invalid"

end StmtKind

inductive DeclKind where
  | func | foreign | struct | bind | publish
deriving DecidableEq

namespace DeclKind

def ofCode? : UInt8 → Option DeclKind
  | 1 => some .func
  | 2 => some .foreign
  | 3 => some .struct
  | 4 => some .bind
  | 5 => some .publish
  | _ => none

def code : DeclKind → UInt8
  | .func => 1
  | .foreign => 2
  | .struct => 3
  | .bind => 4
  | .publish => 5

def name : DeclKind → String
  | .func => "func"
  | .foreign => "extern"
  | .struct => "struct"
  | .bind => "let"
  | .publish => "export"

def nameOf (code : UInt8) : Text := ((ofCode? code).map name).getD "invalid"

end DeclKind

abbrev Nodes (α : Type) := Option (List (Option α))

/-- An expression. What its kind uses: `int` its number and width (0 means 32), `float` the bits of
a double, `unary` and `binary` the operator and operands, `call` the name and arguments, `ternary`
the condition and both operands, `make` the type and an optional count, `cast` the type and
operand. -/
structure Expr where
  kind : UInt8 := 0
  int : UInt64 := 0
  bits : UInt8 := 0
  float : UInt64 := 0
  bool : Bool := false
  str : Text := []
  name : Text := []
  op : Text := []
  x : Option Expr := none
  y : Option Expr := none
  cond : Option Expr := none
  args : Option (List (Option Expr)) := none
  type : Option TypeRef := none
  count : Option Expr := none

/-- A statement. What its kind uses: `block` its list, `bind` the name with a type or value,
`assign` target and value, `ret` an optional value, `cond` the condition with one or two arms,
`loop` optional start, condition and step around the body, `eval` and `drop` the value. -/
structure Stmt where
  kind : UInt8 := 0
  list : Option (List (Option Stmt)) := none
  name : Text := []
  type : Option TypeRef := none
  target : Option Expr := none
  value : Option Expr := none
  cond : Option Expr := none
  yes : Option Stmt := none
  no : Option Stmt := none
  init : Option Stmt := none
  step : Option Stmt := none
  body : Option Stmt := none

structure Param where
  name : Text := []
  type : Option TypeRef := none
deriving DecidableEq

/-- A struct member; without a type it takes that of its initial value. -/
structure Field where
  name : Text := []
  type : Option TypeRef := none
  init : Option Expr := none

/-- A declaration at the top of a module. -/
structure Decl where
  kind : UInt8 := 0
  name : Text := []
  params : Nodes Param := none
  ret : Option TypeRef := none
  variadic : Bool := false
  body : Option Stmt := none
  base : Text := []
  fields : Nodes Field := none
  type : Option TypeRef := none
  init : Option Expr := none
  names : Option (List Text) := none

/-- One source unit. -/
structure Module where
  name : Text := []
  path : Text := []
  imports : Nodes Import := none
  decls : Nodes Decl := none

namespace Nodes

def items {α : Type} : Nodes α → List (Option α)
  | none => []
  | some l => l

end Nodes

namespace Expr

def kind? (e : Expr) : Option ExprKind := ExprKind.ofCode? e.kind

def isLiteral (e : Expr) : Bool :=
  match e.kind? with
  | some .int | some .float | some .bool | some .string => true
  | _ => false

end Expr

namespace Stmt

def kind? (s : Stmt) : Option StmtKind := StmtKind.ofCode? s.kind

end Stmt

namespace Decl

def kind? (d : Decl) : Option DeclKind := DeclKind.ofCode? d.kind

def nameList (d : Decl) : List Text := d.names.getD []

end Decl

namespace Module

def exportList (decls : List Decl) : List Text :=
  (decls.filter fun d => d.kind? == some .publish).flatMap Decl.nameList

end Module

def fileExt : Text := ".east"

end Arbor.Tree
