import Arbor.Lower.Stmts
import Arbor.Build.Prelude

/-! Lowering of modules. The passes over the declarations are imports, struct layouts, function
signatures, bindings, function bodies and exports; each sees what the ones before it declared, so
declarations may come in any order. -/

namespace Arbor.Lower

open IR Diag Build Arbor.Tree

variable {σ : Type}

def importName (i : Import) : Text :=
  if i.name.isEmpty then Text.trimTail Tree.fileExt (Path.base i.target) else i.name

def useImports [Absent σ] (m : Handle) (src : Tree.Module) : Act σ Unit := do
  let imports ← src.imports.items.mapM present
  let named := imports.map importName
  [cstdName, coreName].forM fun name => do
    if !named.contains name && name ≠ src.name && (← Act.loaded? name).isSome then
      Act.useModule m name
  named.forM (Act.useModule m)

def constant [Absent σ] (m : Handle) : Option Expr → Act σ ValueId
  | none => Absent.node
  | some e =>
    if e.isLiteral then literal m e
    else Act.raise (.error .semantic (ExprKind.nameOf e.kind ++ " expression is not a constant"))

def layoutField [Absent σ] (m : Handle) (owner : Text) (t : TypeId) (f : Field) : Act σ Unit := do
  let type ← match f.type with
    | none => pure none
    | some _ => some <$> typeOf m f.type
  let value ← match f.init with
    | none => pure none
    | some _ => some <$> constant m f.init
  match value, type with
  | some v, some want =>
    let got ← Act.typeOf v
    if !Act.sameType got want then
      Act.raise (.error .typeMismatch
        ("field " ++ owner ++ "." ++ f.name ++ ": initializer is " ++ (← Act.typeName got)
          ++ ", want " ++ (← Act.typeName want)))
  | _, _ => pure ()
  let _ ← Act.addMember t f.name type value

/-- Lays out the struct of a declaration after its base. `done` are the structs laid out already,
`visiting` those whose bases led here. -/
def layout [Absent σ] (m : Handle) (structs : List (Text × Decl)) :
    Nat → List Text → List Text → Decl → Act σ (List Text)
  | 0, _, _, _ => throw .endless
  | fuel + 1, visiting, done, d => do
    if done.contains d.name then pure done
    else
      if visiting.contains d.name then
        Act.raise (.error .semantic ("struct " ++ d.name ++ " inherits from itself"))
      let t ← Act.resolveType m d.name
      let done ← if d.base.isEmpty then pure done else do
        let done ← match structs.lookup d.base with
          | some base => layout m structs fuel (d.name :: visiting) done base
          | none => pure done
        Act.extendNamed t d.base
        pure done
      d.fields.items.forM fun f => do
        let f ← present f
        layoutField m d.name t f
      pure (d.name :: done)

def declareStruct (m : Handle) (d : Decl) : Act σ Unit := do
  if d.kind? = some .struct then
    let t ← Act.newStruct m d.name
    Act.addTypeSymbol m d.name (some t)

def declareStructs [Absent σ] (m : Handle) (src : Tree.Module) : Act σ (List Decl) := do
  let decls ← src.decls.items.mapM fun d => do
    let d ← present d
    declareStruct m d
    pure d
  let structs := decls.filter fun d => d.kind? = some .struct
  let byName := structs.map fun d => (d.name, d)
  let _ ← structs.foldlM (fun done d => layout m byName (structs.length + 1) [] done d) []
  pure decls

def paramTypes [Absent σ] (m : Handle) (func : Text) (params : List (Option Param)) : Act σ (List TypeId) :=
  params.mapM fun p => do
    let p ← present p
    let t ← typeOf m p.type
    if (← Act.typeKind t) = .void then
      Act.raise (.error .voidBinding ("func " ++ func ++ ": parameter " ++ p.name ++ " is void"))
    pure t

def declareFunc [Absent σ] (m : Handle) (d : Decl) : Act σ ValueId := do
  let ret ← typeOf m d.ret
  let args ← paramTypes m d.name d.params.items
  let fn ← Act.declareFunc m d.name (some ret) args (d.kind? = some .foreign && d.variadic)
  Act.addValueSymbol m d.name (some fn)
  pure fn

def declareFuncs [Absent σ] (m : Handle) (decls : List Decl) : Act σ (List (Decl × ValueId)) :=
  decls.filterMapM fun d => do
    match d.kind? with
    | some .func => do
      let fn ← declareFunc m d
      pure (some (d, fn))
    | some .foreign => do
      let _ ← declareFunc m d
      pure none
    | _ => pure none

def declareLets [Absent σ] (m : Handle) (decls : List Decl) : Act σ Unit :=
  (decls.filter fun d => d.kind? = some .bind).forM fun d => do
    let v ← constant m d.init
    match d.type with
    | none => pure ()
    | some _ =>
      let want ← typeOf m d.type
      let got ← Act.typeOf v
      if !Act.sameType got want then
        Act.raise (.error .typeMismatch
          ("let " ++ d.name ++ ": initializer is " ++ (← Act.typeName got) ++ ", want "
            ++ (← Act.typeName want)))
    Act.addValueSymbol m d.name (some v)

def bindParams (m : Handle) (fn : ValueId) : Nat → List Param → Act σ Unit
  | _, [] => pure ()
  | index, p :: rest => do
    let arg ← Act.funcArg m fn index
    let t ← Act.typeOf arg
    Act.stmtDef m p.name (some t) (some (pure (some arg)))
    bindParams m fn (index + 1) rest

def function [Absent σ] (m : Handle) (d : Decl) (fn : ValueId) : Act σ Unit := do
  let _ ← Act.pushScope m (some fn)
  let entry ← Act.createBlock m "entry"
  Act.setActiveBlock m (some entry)
  let params ← d.params.items.mapM present
  bindParams m fn 0 params
  let body ← present d.body
  stmts m (body.list.getD [])
  Act.ensureTailRet m (some fn)
  Act.setActiveBlock m none
  Act.popScope m

def checkpoint (cancelled : Act σ Bool) : Act σ Unit := do
  if ← cancelled then Act.raise .cancelled

def bodies [Absent σ] (m : Handle) (cancelled : Act σ Bool) (funcs : List (Decl × ValueId)) : Act σ Unit :=
  funcs.forM fun (d, fn) => do
    checkpoint cancelled
    match ← Act.attempt (function m d fn) with
    | .ok () => pure ()
    | .error f => Act.raise (.context ("func " ++ d.name) f)

def exportNames (m : Handle) (decls : List Decl) : Act σ Unit := do
  let listed := Tree.Module.exportList decls
  let names := if listed.isEmpty then
      (decls.filter fun d => d.kind? ≠ some .publish && !d.name.isEmpty).map Decl.name
    else listed
  names.forM (Act.exportName m)

def pass {α : Type} (m : Handle) (src : Tree.Module) (cancelled : Act σ Bool) (name : Text)
    (body : Act σ α) : Act σ α := do
  checkpoint cancelled
  let info ← Act.module m
  let span ← Act.beginSpan .node src.name name info.span
  match ← Act.attempt body with
  | .ok x =>
    Act.endSpan span []
    pure x
  | .error f =>
    Act.endSpan (span.withExtra "status" "failed") f.text
    Act.raise f

def passes [Absent σ] (m : Handle) (src : Tree.Module) (cancelled : Act σ Bool) : Act σ Unit := do
  pass m src cancelled "imports" (useImports m src)
  let decls ← pass m src cancelled "structs" (declareStructs m src)
  let funcs ← pass m src cancelled "signatures" (declareFuncs m decls)
  pass m src cancelled "lets" (declareLets m decls)
  pass m src cancelled "bodies" (bodies m cancelled funcs)
  pass m src cancelled "exports" (exportNames m decls)

def build [Absent σ] (cancelled : Act σ Bool) (src : Tree.Module) : Act σ Act.Built :=
  Act.building src.name fun m => passes m src cancelled

end Arbor.Lower
