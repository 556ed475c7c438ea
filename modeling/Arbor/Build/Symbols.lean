import Arbor.Build.Types

/-! Names in modules: binding, lookup, use of other modules and export. -/

namespace Arbor.Build

open IR Diag

variable {σ : Type}

namespace Act

def rescope (m : Handle) (f : Scopes → Except Fault Scopes) : Act σ Unit := do
  let info ← module m
  match f info.scopes with
  | .ok scopes => update m fun i => { i with scopes }
  | .error e => raise e

def rescopeTraced (m : Handle) (f : Scopes → Except Fault Scopes) : Act σ Unit := do
  match ← attempt (rescope m f) with
  | .ok () => pure ()
  | .error e =>
    report m e
    raise e

def valueType? (v : Option ValueId) : Act σ (Option TypeId) :=
  match v with
  | none => pure none
  | some v => do
    let info ← module v.module
    pure (info.values[v.handle]?.join)

def addScope (m : Handle) (parent : ScopeId) (func : Option ValueId) : Act σ ScopeId := do
  let (id, scopes) := (← module m).scopes.addChild parent func
  update m fun i => { i with scopes }
  pure id

def addTypeIn (m : Handle) (id : ScopeId) (name : Text) (t : Option TypeId) : Act σ Unit :=
  rescope m fun s => s.addType id name t

def addValueIn (m : Handle) (id : ScopeId) (name : Text) (v : Option ValueId) : Act σ Unit := do
  let t ← valueType? v
  rescope m fun s => s.addValue id name t v

def addTypeSymbol (m : Handle) (name : Text) (t : Option TypeId) : Act σ Unit := do
  let info ← module m
  rescopeTraced m fun s => s.addType info.current name t

def addValueSymbol (m : Handle) (name : Text) (v : Option ValueId) : Act σ Unit := do
  let info ← module m
  let t ← valueType? v
  rescopeTraced m fun s => s.addValue info.current name t v

def typeSymbol (m : Handle) (name : Text) (outward : Bool) : Act σ (Option Symbol) := do
  let info ← module m
  pure (info.scopes.lookupType info.current name outward
    <|> info.scopes.lookupType importScope name false)

def valueSymbol (m : Handle) (name : Text) (outward : Bool) : Act σ (Option Symbol) := do
  let info ← module m
  pure (info.scopes.lookupValue info.current name outward
    <|> info.scopes.lookupValue importScope name false)

def resolveType (m : Handle) (name : Text) : Act σ TypeId := do
  match (← typeSymbol m name true).bind Symbol.type with
  | some t => pure t
  | none => fail m .unresolvedType ("unknown type " ++ name.quoted)

def resolveValue (m : Handle) (name : Text) : Act σ ValueId := do
  match (← valueSymbol m name true).bind Symbol.value with
  | some v => pure v
  | none => fail m .unresolvedSymbol ("unknown symbol " ++ name.quoted)

def loaded? (name : Text) : Act σ (Option Handle) := do pure ((← get).registry.lookup name)

def importTypes (m : Handle) (source : Text) : List Symbol → Act σ Unit
  | [] => pure ()
  | sym :: rest => do
    if (← typeSymbol m sym.name true).isSome then
      fail m .importCollision
        ("type " ++ sym.name.quoted ++ " imported from " ++ source
          ++ " collides with an existing name")
    let t ← sym.type.mapM (ownType m)
    rescope m fun s => s.addType importScope sym.name t
    importTypes m source rest

def importValues (m : Handle) (source : Text) : List Symbol → Act σ Unit
  | [] => pure ()
  | sym :: rest => do
    if (← valueSymbol m sym.name true).isSome then
      fail m .importCollision
        (sym.name.quoted ++ " imported from " ++ source ++ " collides with an existing name")
    let v ← ownValue m sym.value
    let t ← valueType? v
    rescope m fun s => s.addValue importScope sym.name t v
    importValues m source rest

/-- Makes a loaded module a dependency and imports what it exports. What was imported before a
collision stays imported. -/
def useModule (m : Handle) (name : Text) : Act σ Unit := do
  let info ← module m
  match ← loaded? name with
  | none => fail m .moduleNotFound ("module " ++ name.quoted ++ " is not loaded")
  | some dep =>
    if info.deps.contains name then
      fail m .duplicateDependency ("module " ++ name.quoted ++ " is already used")
    if dep = m then
      fail m .duplicateDependency ("module " ++ name.quoted ++ " cannot use itself")
    update m fun i => { i with deps := i.deps ++ [name] }
    let span ← beginSpan .module info.name ("use " ++ name) info.span
    ensuring
      (do
        importTypes m name ((← module dep).scopes.types exportScope)
        importValues m name ((← module dep).scopes.values exportScope))
      (endSpan span [])

def exportName (m : Handle) (name : Text) : Act σ Unit := do
  let info ← module m
  let t := info.scopes.lookupType info.current name true
  let v := info.scopes.lookupValue info.current name true
  if t.isNone && v.isNone then
    fail m .unresolvedSymbol ("cannot export unknown symbol " ++ name.quoted)
  match t with
  | none => pure ()
  | some sym => rescope m fun s => s.addType exportScope sym.name sym.type
  match v with
  | none => pure ()
  | some sym => do
    let t ← valueType? sym.value
    rescope m fun s => s.addValue exportScope sym.name t sym.value

def exportAll (m : Handle) : Act σ Unit := do
  let info ← module m
  (info.scopes.types rootScope).forM fun sym => do
    let now := (← module m).scopes
    if (now.lookupType exportScope sym.name false).isNone then
      rescope m fun s => s.addType exportScope sym.name sym.type
  (info.scopes.values rootScope).forM fun sym => do
    let now := (← module m).scopes
    if (now.lookupValue exportScope sym.name false).isNone then
      let t ← valueType? sym.value
      rescope m fun s => s.addValue exportScope sym.name t sym.value

def pushScope (m : Handle) (func : Option ValueId) : Act σ ScopeId := do
  let info ← module m
  let (id, scopes) := info.scopes.addChild info.current func
  update m fun i => { i with scopes, current := id }
  pure id

def popScope (m : Handle) : Act σ Unit := do
  let info ← module m
  let parent := info.scopes.parent info.current
  if parent = 0 then fail m .semantic ("cannot pop the root scope of " ++ info.name)
  update m fun i => { i with current := parent }

def enclosingFunc (m : Handle) : Act σ (Option ValueId) := do
  let info ← module m
  pure (info.scopes.func info.current)

end Act

end Arbor.Build
