import Arbor.IR.Layout

/-! Constants, functions and the names of values. -/

namespace Arbor.IR

def canonicalBits (bits : UInt64) : UInt64 :=
  let isNaN := bits &&& 0x7FFFFFFFFFFFFFFF > 0x7FF0000000000000
  if isNaN then
    if bits &&& 0x8000000000000000 == 0 then 0x7FF8000000000000 else 0xFFF8000000000000
  else bits

namespace Emit

def constant (c : Const) : Emit Handle := do
  let _ ← internType c.ty
  valueHandle (.const c) (.const c)

def boolConst (b : Bool) : Emit Handle := constant (.bool b)

def int (value : UInt64) (bits : Nat) : Emit Handle :=
  match Width.ofBits? bits with
  | none => throw (.intWidth bits)
  | some .w1 => boolConst (value != 0)
  | some w => constant (.int w value.toInt64)

def float (bits : UInt64) : Emit Handle := constant (.float .double (canonicalBits bits))

def text (module : Handle) (t : Text) : Emit Handle := do
  let m ← moduleOf module
  match m.texts.toList.idxOf? t with
  | some i => valueHandle (.const (.text module i)) (.const (.text module i))
  | none =>
    let c : Const := .text module m.texts.size
    modify (·.setModule module { m with texts := m.texts.push t })
    valueHandle (.const c) (.const c)

def defaultValue (type : Handle) : Emit Handle := do
  let t ← typeOf type
  match t with
  | .int .w1 => boolConst false
  | .int w => int 0 w.bits
  | .float p => constant (.float p 0)
  | .ptr _ => constant (.null t)
  | .struct _ | .array .. => constant (.zero t)
  | _ => throw (.noDefault ((← get).tyName t))

def typeSize (type : Handle) : Emit Handle := do
  let t ← typeOf type
  match (← get).extent t with
  | .ok x => int x.size.toUInt64 64
  | .error e => throw (.sizeOf ((← get).tyName t) e)

def newFunc (module : Handle) (name : Text) (ret : Ty) (params : List Ty) (variadic : Bool) :
    Emit Handle := do
  let h ← push (.func
    { ident := { name }, module, ret, variadic,
      params := (params.map fun ty => ({ ty } : ParamInfo)).toArray })
  match (← get).module? module with
  | none => pure h
  | some m =>
    modify (·.setModule module
      { m with funcs := m.funcs.push h, declared := m.declared ++ [(name, h)] })
    pure h

def declareFunc (module : Handle) (name : Text) (type : Handle) : Emit Handle := do
  let m ← moduleOf module
  let (r, ps, v) ← funcParts type
  match m.declared.lookup name with
  | none => newFunc module name r ps v
  | some h =>
    match (← get).func? h with
    | none => throw (.redeclared name)
    | some f =>
      let existing ← internType f.signature
      if existing = type then pure h else throw (.redeclared name)

def valueType (value : Handle) : Emit Handle := do
  match (← get).operand? value with
  | none => pure noHandle
  | some (.func h) =>
    match (← get).func? h with
    | some f => internType f.signature
    | none => pure noHandle
  | some v => internType ((← get).tyOf v)

def ownerOf (s : Store) : Operand → Option Handle
  | .param f _ => some f
  | .inst h => do
    let i ← s.inst? h
    let b ← s.block? i.block
    pure b.func
  | .block h => (s.block? h).map BlockInfo.func
  | _ => none

def setValueName (value : Handle) (name : Text) : Emit Unit := do
  match (← get).operand? value with
  | none => pure ()
  | some (.const _) => pure ()
  | some v =>
    let unique ← match ownerOf (← get) v with
      | some f => localName f name
      | none => pure name
    let ident : Ident := { name := unique }
    match v with
    | .const _ => pure ()
    | .param f i =>
      match (← get).func? f with
      | none => pure ()
      | some info =>
        modify (·.setFunc f { info with params := info.params.modify i ({ · with ident }) })
    | .func h =>
      match (← get).func? h with
      | none => pure ()
      | some info => modify (·.setFunc h { info with ident })
    | .inst h =>
      match (← get).inst? h with
      | none => pure ()
      | some info => modify (·.setInst h { info with ident })
    | .block h =>
      match (← get).block? h with
      | none => pure ()
      | some info => modify (·.setBlock h { info with ident })

def funcOf (h : Handle) : Emit FuncInfo := do
  match ← operandOf h with
  | .func _ =>
    match (← get).func? h with
    | some f => pure f
    | none => throw (.notFunction h)
  | _ => throw (.notFunction h)

def funcArg (func : Handle) (index : Nat) : Emit Handle := do
  let f ← funcOf func
  if index < f.params.size then valueHandle (.param func index) (.param func index)
  else throw (.noParameter f.ident.spoken index)

end Emit

end Arbor.IR
