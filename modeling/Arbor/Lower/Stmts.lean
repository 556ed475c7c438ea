import Arbor.Lower.Exprs

/-! Lowering of statements. -/

namespace Arbor.Lower

open IR Diag Build Arbor.Tree

variable {σ : Type}

/-- What lowers the parts of a statement. An absent part fails when it is needed. -/
structure StmtParts (σ : Type) where
  list : Act σ Unit
  yes : Act σ Unit
  no : Act σ Unit
  init : Act σ Unit
  step : Act σ Unit
  body : Act σ Unit

section

variable [Absent σ]

def stmtFrom (m : Handle) (s : Stmt) (p : StmtParts σ) : Act σ Unit := do
  match s.kind? with
  | some .block => Act.stmtBlock m (some p.list)
  | some .bind =>
    let t ← match s.type with
      | none => pure none
      | some _ => some <$> typeOf m s.type
    Act.stmtDef m s.name t (optionalExpr m s.value)
  | some .assign => Act.stmtAssign m (some (exprPart m s.target)) (some (exprPart m s.value))
  | some .ret => Act.stmtReturn m (optionalExpr m s.value)
  | some .cond => Act.stmtBranch m (some (exprPart m s.cond)) (some p.yes) (s.no.map fun _ => p.no)
  | some .loop =>
    Act.stmtLoop m (s.init.map fun _ => p.init) (optionalExpr m s.cond) (s.step.map fun _ => p.step)
      (some p.body)
  | some .leave => Act.stmtBreak m
  | some .next => Act.stmtContinue m
  | some .eval =>
    let _ ← exprPart m s.value
  | some .drop =>
    match ← exprPart m s.value with
    | some v => Act.drop m v
    | none => throw .missing
  | none => Act.raise (.error .semantic ("unsupported statement " ++ StmtKind.nameOf s.kind))

mutual

def stmt (m : Handle) (s : Stmt) : Act σ Unit :=
  match s with
  | { list := list, yes := yes, no := no, init := init, step := step, body := body, .. } =>
    stmtFrom m s
      { list := blockIn m list, yes := stmtIn m yes, no := stmtIn m no, init := stmtIn m init,
        step := stmtIn m step, body := stmtIn m body }

def stmtIn (m : Handle) : Option Stmt → Act σ Unit
  | some s => stmt m s
  | none => Absent.node

def blockIn (m : Handle) : Option (List (Option Stmt)) → Act σ Unit
  | some l => stmts m l
  | none => pure ()

def stmts (m : Handle) : List (Option Stmt) → Act σ Unit
  | [] => pure ()
  | s :: rest => do
    if ← Act.isTerminated m none then pure ()
    else
      stmtIn m s
      stmts m rest

end

end

end Arbor.Lower
