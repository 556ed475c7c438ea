import Arbor.IR.Values

/-! Modules and blocks of the store. -/

namespace Arbor.IR

namespace Emit

def makeModule (name : Text) : Emit Handle :=
  if name.isEmpty then throw .unnamedModule else push (.module { name })

def moduleOfBlock (s : Store) (block : Handle) : Handle :=
  (do
    let b ← s.block? block
    let f ← s.func? b.func
    pure f.module).getD noHandle

def dropModule (module : Handle) : Emit Unit := do
  match (← get).module? module with
  | none => pure ()
  | some m =>
    if m.dropped then pure ()
    else
      modify (·.setModule module { m with dropped := true })
      modify fun s =>
        { s with active := s.active.filter fun b => moduleOfBlock s b ≠ module }

def createBlock (func : Handle) (name : Text) : Emit Handle := do
  let f ← funcOf func
  match (← get).module? f.module with
  | some m => if m.dropped then throw (.dropped m.name)
  | none => pure ()
  let unique ← localName func name
  let h ← push (.block { ident := { name := unique }, func })
  match (← get).func? func with
  | none => pure h
  | some f =>
    modify (·.setFunc func { f with blocks := f.blocks.push h })
    pure h

def setActiveBlock (block : Handle) : Emit Unit := do
  if block = noHandle then modify fun s => { s with active := none }
  else
    let _ ← blockOf block
    modify fun s => { s with active := some block }

def describeBlock (s : Store) (block : Handle) : Text :=
  match s.block? block with
  | none => []
  | some b =>
    match s.func? b.func with
    | none => b.ident.spoken
    | some f => f.ident.spoken ++ "/" ++ b.ident.spoken

def cursor : Emit Handle := do
  match (← get).active with
  | none => throw .noActiveBlock
  | some h =>
    let b ← blockOf h
    match b.ending with
    | none => pure h
    | some _ =>
      let place := describeBlock (← get) h
      modify fun s =>
        { s with violations := s.violations.push ⟨moduleOfBlock s h, place⟩ }
      throw (.terminated place)

end Emit

namespace Store

def activeBlock (s : Store) : Handle := s.active.getD noHandle

def blockTail (s : Store) (block : Handle) : Handle :=
  match s.block? block with
  | none => noHandle
  | some b =>
    match b.ending with
    | some e => e.handle
    | none => (b.insts.back?).getD noHandle

def isTerminator (s : Store) (h : Handle) : Bool :=
  match s.entry h with
  | .ending _ => true
  | _ => false

/-- What verification finds in a module: blocks without an end, and instructions after one. -/
inductive Defect where
  | openBlock (func block : Text)
  | violation (v : Violation)

namespace Defect

def message : Defect → Text
  | .openBlock f b => "function " ++ f ++ ": block " ++ b ++ " has no terminator"
  | .violation v => v.message

end Defect

def openBlocks (s : Store) (f : FuncInfo) : List Defect :=
  f.blocks.toList.filterMap fun h => do
    let b ← s.block? h
    if b.ending.isNone then some (.openBlock f.ident.spoken b.ident.spoken) else none

def defects (s : Store) (module : Handle) (m : ModuleInfo) : List Defect :=
  (m.funcs.toList.filterMap s.func?).flatMap s.openBlocks
    ++ (s.violations.toList.filter (·.module = module)).map .violation

end Store

end Arbor.IR
