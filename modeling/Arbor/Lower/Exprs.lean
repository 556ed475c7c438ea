import Arbor.Build.Heap
import Arbor.Tree.Basic

/-! Lowering of types and expressions. -/

namespace Arbor.Lower

open IR Diag Build Arbor.Tree

variable {σ : Type}

def unaryOps : List (String × Op) := [("-", .neg), ("!", .not), ("~", .flip)]

def binaryOps : List (String × Op) :=
  [("+", .add), ("-", .sub), ("*", .mul), ("/", .div), ("%", .mod), ("==", .eq), ("!=", .ne),
   (">", .gt), (">=", .ge), ("<", .lt), ("<=", .le), ("&&", .and), ("||", .or), ("&", .bitAnd),
   ("|", .bitOr), ("^", .bitXor), ("<<", .shl), (">>", .shr)]

def operator? (ops : List (String × Op)) (t : Text) : Option Op :=
  (ops.find? fun (s, _) => Text.ofString s = t).map Prod.snd

def pointers (ref : TypeRef) : Nat → TypeId → Act σ TypeId
  | 0, t => pure t
  | n + 1, t => do
    if (← Act.typeKind t) = .void then
      Act.raise (.error .voidBinding ("pointer to void in " ++ ref.written))
    let t ← Act.pointerTo t
    pointers ref n t

def typeOf (m : Handle) : Option TypeRef → Act σ TypeId
  | none => Act.prim m .void
  | some ref => do
    let t ← if ref.name = Text.ofString "void" then Act.prim m .void
      else Act.resolveType m ref.name
    pointers ref ref.depth.toNat t

def literal (m : Handle) (e : Expr) : Act σ ValueId :=
  match e.kind? with
  | some .int => Act.intConst m e.int (if e.bits = 0 then 32 else e.bits.toNat)
  | some .float => Act.floatConst m e.float
  | some .bool => Act.boolConst m e.bool
  | some .string => Act.textConst m e.str
  | _ => Act.raise (.error .semantic (ExprKind.nameOf e.kind ++ " is not a literal"))

def unify (m : Handle) (x y : ValueId) : Act σ (ValueId × ValueId) := do
  let tx ← Act.typeOf x
  let ty ← Act.typeOf y
  if Act.sameType tx ty then pure (x, y)
  else if ← Act.canCast tx ty then
    let x ← Act.coerce m x ty
    pure (x, y)
  else if ← Act.canCast ty tx then
    let y ← Act.coerce m y tx
    pure (x, y)
  else pure (x, y)

def castTo (m : Handle) (x : ValueId) (t : TypeId) : Act σ ValueId := do
  let source ← Act.typeKind (← Act.typeOf x)
  let target ← Act.typeKind t
  if source.isPointer && target.isPointer then Act.bitcast m x t else Act.coerce m x t

/-- What lowering does where it needs a node that the tree does not have. -/
class Absent (σ : Type) where
  node {α : Type} : Act σ α

instance : Absent σ where
  node := throw .missing

def present [Absent σ] {α : Type} : Option α → Act σ α
  | some x => pure x
  | none => Absent.node

/-- What lowers the parts of an expression. An absent part fails when it is needed. -/
structure Parts (σ : Type) where
  x : Act σ ValueId
  y : Act σ ValueId
  cond : Act σ ValueId
  args : Act σ (List ValueId)
  count : Act σ ValueId

def exprFrom (m : Handle) (e : Expr) (p : Parts σ) : Act σ ValueId := do
  match e.kind? with
  | some .int | some .float | some .bool | some .string => literal m e
  | some .ident => Act.resolveValue m e.name
  | some .unary =>
    match operator? unaryOps e.op with
    | none => Act.raise (.error .semantic ("unknown unary operator " ++ e.op.quoted))
    | some o =>
      let v ← p.x
      let v ← Act.ptrVal m v
      Act.unary m o v
  | some .binary =>
    match operator? binaryOps e.op with
    | none => Act.raise (.error .semantic ("unknown binary operator " ++ e.op.quoted))
    | some o =>
      let v ← p.x
      let v ← Act.ptrVal m v
      let w ← p.y
      let w ← Act.ptrVal m w
      let (v, w) ← unify m v w
      Act.binary m o v w
  | some .call =>
    let vs ← p.args
    Act.callNamed m e.name vs
  | some .ternary =>
    Act.exprBranch m (some (some <$> p.cond)) (some (some <$> p.x)) (some (some <$> p.y))
  | some .make =>
    let t ← typeOf m e.type
    if e.count.isNone then Act.make m t
    else
      let n ← p.count
      let n ← Act.ptrVal m n
      Act.makeMany m t n
  | some .cast =>
    let t ← typeOf m e.type
    let v ← p.x
    let v ← Act.ptrVal m v
    castTo m v t
  | none => Act.raise (.error .semantic ("unsupported expression " ++ ExprKind.nameOf e.kind))

section

variable [Absent σ]

mutual

def expr (m : Handle) (e : Expr) : Act σ ValueId :=
  match e with
  | { x := x, y := y, cond := cond, args := args, count := count, .. } =>
    exprFrom m e
      { x := exprIn m x, y := exprIn m y, cond := exprIn m cond, args := argsIn m args,
        count := exprIn m count }

def exprIn (m : Handle) : Option Expr → Act σ ValueId
  | some e => expr m e
  | none => Absent.node

def argsIn (m : Handle) : Option (List (Option Expr)) → Act σ (List ValueId)
  | some l => exprs m l
  | none => pure []

def exprs (m : Handle) : List (Option Expr) → Act σ (List ValueId)
  | [] => pure []
  | e :: rest => do
    let v ← exprIn m e
    let v ← Act.ptrVal m v
    let vs ← exprs m rest
    pure (v :: vs)

end

def exprPart (m : Handle) (e : Option Expr) : Act σ (Option ValueId) := some <$> exprIn m e

def optionalExpr (m : Handle) (e : Option Expr) : Option (Act σ (Option ValueId)) :=
  e.map fun e => some <$> expr m e

end

end Arbor.Lower
