import Arbor.Project.Run

/-! The entry of a program: which module it starts in and that it can be run. -/

namespace Arbor.Pipeline

open Diag IR Build Project

variable {σ : Type}

def entryName : Text := "main"

/-- The module to start in when none is named: the only one that no other imports, else the one
called like the entry function. -/
def defaultEntry (o : Outcome) : Text :=
  let imported := (o.modules.filter fun j => j.built.isSome).flatMap Job.imports
  match o.order.filter (!imported.contains ·) with
  | [only] => only
  | _ => if (o.module? entryName).any fun j => j.built.isSome then entryName else []

def noEntry {α : Type} (message : Text) : Act σ α := Act.raise (.error .noEntry message)

def entryModule (name : Text) : Act σ Handle := do
  if name.isEmpty then noEntry "no entry module"
  match ← Act.loaded? name with
  | none => noEntry ("entry module " ++ name.quoted ++ " was not built")
  | some m =>
    let info ← Act.module m
    match (info.scopes.lookupValue rootScope entryName false).bind Symbol.value with
    | none => noEntry ("no " ++ entryName ++ " function found in module " ++ name.quoted)
    | some fn =>
      match ← Act.funcRetType m (some fn) with
      | none => noEntry (name ++ "::" ++ entryName ++ " is not a function")
      | some ret =>
        let kind ← Act.typeKind ret
        if kind ≠ .void && !kind.isInteger then
          noEntry (name ++ "::" ++ entryName ++ " must return an integer, not "
            ++ (← Act.typeName ret))
        pure m

end Arbor.Pipeline
