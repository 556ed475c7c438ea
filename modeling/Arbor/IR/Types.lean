import Arbor.IR.Spelling

/-! Making types. Every type has one handle, given when it is first asked for and found by the handles of its parts. -/

namespace Arbor.IR

namespace Emit

def internKey (key : TypeKey) (t : Ty) : Emit Handle := do
  match (← get).types[key.text]? with
  | some h => pure h
  | none =>
    let h ← push (.type t)
    modify fun s => { s with types := s.types.insert key.text h }
    pure h

mutual

def internType : Ty → Emit Handle
  | .ptr e => do
    let elem ← internType e
    internKey (.ptr elem) (.ptr e)
  | .func r ps v => do
    let ret ← internType r
    let params ← internTypes ps
    internKey (.func ret params v) (.func r ps v)
  | .array n e => do
    let elem ← internType e
    internKey (.array n elem) (.array n e)
  | .struct h => pure h
  | .void => internKey .void .void
  | .label => internKey .label .label
  | .int w => internKey (.int w) (.int w)
  | .float p => internKey (.float p) (.float p)

def internTypes : List Ty → Emit (List Handle)
  | [] => pure []
  | t :: ts => do
    let h ← internType t
    let hs ← internTypes ts
    pure (h :: hs)

end

def pointer (elem : Handle) : Emit Handle := do
  let t ← typeOf elem
  match t with
  | .void | .label => throw (.pointerTo t.kind)
  | _ => internKey (.ptr elem) (.ptr t)

def paramTypes : Nat → List Handle → Emit (List Ty)
  | _, [] => pure []
  | index, h :: rest => do
    match (← get).type? h with
    | none => throw (.parameter index (.notType h))
    | some .void => throw (.voidParameter index)
    | some t =>
      let ts ← paramTypes (index + 1) rest
      pure (t :: ts)

def func (ret : Handle) (params : List Handle) (variadic : Bool) : Emit Handle := do
  match (← get).type? ret with
  | none => throw (.returnType (.notType ret))
  | some r =>
    match (← get).types[(TypeKey.func ret params variadic).text]? with
    | some h => pure h
    | none =>
      let ps ← paramTypes 0 params
      internKey (.func ret params variadic) (.func r ps variadic)

def struct (module : Handle) (name : Text) : Emit Handle := do
  let m ← moduleOf module
  let (label, labels) := freshName m.labels name
  let h ← push (.struct { name, label, module })
  modify (·.setModule module { m with labels, structs := m.structs.push h })
  pure h

def fieldTypes : Nat → List Handle → Emit (List Ty)
  | _, [] => pure []
  | index, h :: rest => do
    match (← get).type? h with
    | none => throw (.field index (.notType h))
    | some t =>
      let ts ← fieldTypes (index + 1) rest
      pure ((match t with | .func .. => .ptr t | _ => t) :: ts)

def setStructBody (type : Handle) (fields : List Handle) : Emit Unit := do
  let t ← typeOf type
  match (← get).struct? type with
  | none => throw (.notStruct ((← get).tyName t))
  | some i =>
    let ts ← fieldTypes 0 fields
    modify (·.setStruct type { i with fields := some ts })

end Emit

namespace Store

def canCast (s : Store) (source target : Handle) : Bool :=
  let a := s.typeKind source
  let b := s.typeKind target
  source == target
    || (a == .bool && b.isInteger)
    || (a.isInteger && b.isInteger && a.bits < b.bits)
    || (a == .f32 && b == .f64)
    || (a.isInteger && b == .f32 && a.bits ≤ 16)
    || (a.isInteger && b == .f64 && a.bits ≤ 32)
    || (a == .pointer && b == .bytes)

def funcParts? (s : Store) (type : Handle) : Option (Ty × List Ty × Bool) :=
  match s.type? type with
  | some (.func r ps v) => some (r, ps, v)
  | some (.ptr (.func r ps v)) => some (r, ps, v)
  | _ => none

def funcArgCount (s : Store) (type : Handle) : Nat :=
  ((s.funcParts? type).map fun (_, ps, _) => ps.length).getD 0

def isVariadic (s : Store) (type : Handle) : Bool :=
  ((s.funcParts? type).map fun (_, _, v) => v).getD false

end Store

namespace Emit

def funcParts (type : Handle) : Emit (Ty × List Ty × Bool) := do
  let t ← typeOf type
  match (← get).funcParts? type with
  | some parts => pure parts
  | none => throw (.notFuncType ((← get).tyName t))

def funcRetType (type : Handle) : Emit Handle := do
  match (← get).funcParts? type with
  | some (r, _, _) => internType r
  | none => pure noHandle

def funcArgType (type : Handle) (index : Nat) : Emit Handle := do
  match (← get).funcParts? type with
  | some (_, ps, _) =>
    match ps[index]? with
    | some t => internType t
    | none => pure noHandle
  | none => pure noHandle

end Emit

end Arbor.IR
