import Arbor.Tree.Basic

/-! Nodes by what they say, for trees that are put together by hand. -/

namespace Arbor.Tree.Construct

def named (name : Text) : TypeRef := { name }

def pointer (name : Text) (depth : UInt8) : TypeRef := { name, depth }

/-! ## Expressions -/

def int (int : UInt64) : Expr := { kind := ExprKind.int.code, int }

def intOf (int : UInt64) (bits : UInt8) : Expr := { kind := ExprKind.int.code, int, bits }

def float (float : UInt64) : Expr := { kind := ExprKind.float.code, float }

def bool (bool : Bool) : Expr := { kind := ExprKind.bool.code, bool }

def text (str : Text) : Expr := { kind := ExprKind.string.code, str }

def ident (name : Text) : Expr := { kind := ExprKind.ident.code, name }

def unary (op : Text) (x : Option Expr) : Expr := { kind := ExprKind.unary.code, op, x }

def binary (op : Text) (x y : Option Expr) : Expr := { kind := ExprKind.binary.code, op, x, y }

def call (name : Text) (args : Nodes Expr) : Expr := { kind := ExprKind.call.code, name, args }

def ternary (cond x y : Option Expr) : Expr := { kind := ExprKind.ternary.code, cond, x, y }

def make (type : Option TypeRef) (count : Option Expr) : Expr :=
  { kind := ExprKind.make.code, type, count }

def cast (type : Option TypeRef) (x : Option Expr) : Expr := { kind := ExprKind.cast.code, type, x }

/-! ## Statements -/

def block (list : Nodes Stmt) : Stmt := { kind := StmtKind.block.code, list }

def bind (name : Text) (type : Option TypeRef) (value : Option Expr) : Stmt :=
  { kind := StmtKind.bind.code, name, type, value }

def assign (target value : Option Expr) : Stmt := { kind := StmtKind.assign.code, target, value }

def ret (value : Option Expr) : Stmt := { kind := StmtKind.ret.code, value }

def leave : Stmt := { kind := StmtKind.leave.code }

def next : Stmt := { kind := StmtKind.next.code }

def eval (value : Option Expr) : Stmt := { kind := StmtKind.eval.code, value }

def drop (value : Option Expr) : Stmt := { kind := StmtKind.drop.code, value }

def branch (cond : Option Expr) (yes no : Option Stmt) : Stmt :=
  { kind := StmtKind.cond.code, cond, yes, no }

def loop (init : Option Stmt) (cond : Option Expr) (step body : Option Stmt) : Stmt :=
  { kind := StmtKind.loop.code, init, cond, step, body }

def loopWhile (cond : Option Expr) (body : Option Stmt) : Stmt := loop none cond none body

/-! ## Declarations -/

def param (name : Text) (type : Option TypeRef) : Param := { name, type }

def func (name : Text) (ret : Option TypeRef) (params : Nodes Param) (body : Option Stmt) : Decl :=
  { kind := DeclKind.func.code, name, ret, params, body }

def foreign (name : Text) (ret : Option TypeRef) (params : Nodes Param) (variadic : Bool) : Decl :=
  { kind := DeclKind.foreign.code, name, ret, params, variadic }

def struct (name base : Text) (fields : Nodes Field) : Decl :=
  { kind := DeclKind.struct.code, name, base, fields }

def global (name : Text) (type : Option TypeRef) (init : Option Expr) : Decl :=
  { kind := DeclKind.bind.code, name, type, init }

def publish (names : List Text) : Decl := { kind := DeclKind.publish.code, names := some names }

end Arbor.Tree.Construct
