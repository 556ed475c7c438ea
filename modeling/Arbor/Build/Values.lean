import Arbor.Build.Structs

/-! Constants, functions and instructions as modules build them. -/

namespace Arbor.Build

open IR Diag

variable {σ : Type}

namespace Act

def valueFor (m : Handle) (h : Handle) : Act σ ValueId := do need (← valueAt m h)

def valueWith (m : Handle) (t : Option TypeId) (h : Handle) : Act σ ValueId := do
  need (← valueOf m t h)

def intConst (m : Handle) (value : UInt64) (bits : Nat) : Act σ ValueId := do
  let h ← backend m "integer constant" (Emit.int value bits)
  valueFor m h

def floatConst (m : Handle) (bits : UInt64) : Act σ ValueId := do
  valueFor m (← emitQuiet (Emit.float bits))

def boolConst (m : Handle) (b : Bool) : Act σ ValueId := do
  valueFor m (← emitQuiet (Emit.boolConst b))

def textConst (m : Handle) (t : Text) : Act σ ValueId := do
  let h ← backend m "string constant" (Emit.text m t)
  valueWith m (some (← prim m .bytes)) h

def declareFunc (m : Handle) (name : Text) (ret : Option TypeId) (args : List TypeId)
    (variadic : Bool) : Act σ ValueId := do
  let ft ← funcType m ret args variadic
  match ← emit (Emit.declareFunc m name ft.handle) with
  | .ok h => valueWith m (some ft) h
  | .error r => fail m .redefinition ("function " ++ name ++ ": " ++ r.message)

def signatureOf (m : Handle) (fn : Option ValueId) : Act σ TypeId := do
  match fn with
  | none => fail m .noFunction "no function"
  | some fn =>
    let t ← typeOf fn
    let v ← view t
    let inner ← match v.elem with
      | some e => do
        if v.kind.isPointer && (← typeKind e) = .func then pure e else pure t
      | none => pure t
    if (← typeKind inner) = .func then pure inner
    else fail m .notCallable ("value of type " ++ v.name ++ " is not a function")

def funcRetType (m : Handle) (fn : Option ValueId) : Act σ (Option TypeId) := do
  match ← attempt (signatureOf m fn) with
  | .ok ft => typeAt m (← emitQuiet (Emit.funcRetType ft.handle))
  | .error _ => pure none

def funcArgCount (m : Handle) (fn : Option ValueId) : Act σ Nat := do
  match ← attempt (signatureOf m fn) with
  | .ok ft => pure ((← store).funcArgCount ft.handle)
  | .error _ => pure 0

def funcArgType (m : Handle) (fn : Option ValueId) (index : Nat) : Act σ (Option TypeId) := do
  match ← attempt (signatureOf m fn) with
  | .ok ft => typeAt m (← emitQuiet (Emit.funcArgType ft.handle index))
  | .error _ => pure none

def funcArg (m : Handle) (fn : ValueId) (index : Nat) : Act σ ValueId := do
  let h ← backend m ("argument " ++ Text.ofNat index) (Emit.funcArg fn.handle index)
  valueWith m (← funcArgType m (some fn) index) h

def typeSize (m : Handle) (t : TypeId) : Act σ ValueId := do
  let h ← backend m ("size of " ++ (← typeName t)) (Emit.typeSize t.handle)
  valueFor m h

def defaultValue (m : Handle) (t : TypeId) : Act σ ValueId := do
  let h ← backend m ("default of " ++ (← typeName t)) (Emit.defaultValue t.handle)
  valueWith m (some t) h

def setValueName (v : ValueId) (name : Text) : Act σ Unit := do
  let _ ← emit (Emit.setValueName v.handle name)

def alloc (m : Handle) (name : Text) (t : Option TypeId) : Act σ ValueId := do
  let refuse : Act σ ValueId :=
    fail m .voidBinding ("cannot allocate " ++ name.quoted ++ " of type void")
  match t with
  | none => refuse
  | some t =>
    let kind ← typeKind t
    if kind = .void then refuse
    else
      let slot ← if kind = .func then pointerTo t else pure t
      let pt ← pointerTo slot
      let h ← backend m ("alloc " ++ name.quoted) (Emit.alloc t.handle name)
      valueWith m (some pt) h

def load (m : Handle) (ptr : ValueId) : Act σ ValueId := do
  let v ← view (← typeOf ptr)
  if !v.kind.isPointer then fail m .typeMismatch ("cannot load from " ++ v.name)
  let h ← backend m "load" (Emit.load ptr.handle)
  let t ← emitQuiet (Emit.valueType h)
  valueWith m (← typeAt m t) h

def storeTo (m : Handle) (ptr value : ValueId) : Act σ Handle := do
  let pt ← typeOf ptr
  let p ← view pt
  if !p.kind.isPointer then fail m .notAddressable ("cannot store through " ++ p.name)
  match ← elem pt with
  | none => pure ()
  | some e =>
    let vt ← typeOf value
    let v ← view vt
    if !sameType e vt && !((← typeKind e).isPointer && v.kind = .func) then
      fail m .typeMismatch ("cannot store " ++ v.name ++ " into " ++ p.name)
  backend m "store" (Emit.store ptr.handle value.handle)

def allocInit (m : Handle) (name : Text) (t : Option TypeId) (init : Option ValueId) :
    Act σ ValueId := do
  let slot ← alloc m name t
  match init with
  | none => pure slot
  | some v =>
    let _ ← storeTo m slot v
    pure slot

def bitcast (m : Handle) (v : ValueId) (t : TypeId) : Act σ ValueId := do
  let source ← typeName (← typeOf v)
  let target ← typeName t
  let h ← backend m ("bitcast " ++ source ++ " to " ++ target) (Emit.bitcast v.handle t.handle)
  valueWith m (some t) h

def coerce (m : Handle) (v : ValueId) (t : TypeId) : Act σ ValueId := do
  let vt ← typeOf v
  if sameType vt t then pure v
  else
    let source ← typeName vt
    let target ← typeName t
    let h ← backend m ("convert " ++ source ++ " to " ++ target) (Emit.coerce v.handle t.handle)
    valueWith m (some t) h

def convert (m : Handle) (v : ValueId) (t : TypeId) (code : Code) (what : Text) :
    Act σ ValueId := do
  let vt ← typeOf v
  if sameType vt t then pure v
  else
    if !(← canCast vt t) then
      fail m code
        (what ++ ": cannot use " ++ (← typeName vt) ++ " as " ++ (← typeName t))
    coerce m v t

def ptrVal (m : Handle) (v : ValueId) : Act σ ValueId := do
  let h ← backend m "dereference" (Emit.ptrVal v.handle)
  if h = v.handle then pure v else valueFor m h

def ptrRef (m : Handle) (v : ValueId) : Act σ ValueId := do
  match ← emit (Emit.ptrRef v.handle) with
  | .error r => fail m .notAddressable r.message
  | .ok h => if h = v.handle then pure v else valueFor m h

def applyUnary (m : Handle) (op : Op) (a : ValueId) : Act σ ValueId := do
  let v ← view (← typeOf a)
  if op = .not && v.kind ≠ .bool then
    fail m .typeMismatch (op.name ++ " needs a bool operand, got " ++ v.name)
  if op = .flip && !v.kind.isInteger then
    fail m .typeMismatch (op.name ++ " needs an integer operand, got " ++ v.name)
  let h ← backend m op.name (Emit.unary op a.handle)
  valueFor m h

def applyBinary (m : Handle) (op : Op) (a b : ValueId) : Act σ ValueId := do
  let ta ← typeOf a
  let tb ← typeOf b
  let va ← view ta
  let vb ← view tb
  if !sameType ta tb then
    fail m .typeMismatch (op.name ++ " operands differ: " ++ va.name ++ " and " ++ vb.name)
  if op.isLogical && va.kind ≠ .bool then
    fail m .typeMismatch (op.name ++ " needs bool operands, got " ++ va.name)
  let h ← backend m op.name (Emit.binary op a.handle b.handle)
  valueFor m h

def unary (m : Handle) (op : Op) (a : ValueId) : Act σ ValueId := do
  if !op.isUnary then fail m .semantic (op.name ++ " is not a unary operator")
  applyUnary m op a

def binary (m : Handle) (op : Op) (a b : ValueId) : Act σ ValueId := do
  if op.isUnary || op = .invalid then fail m .semantic (op.name ++ " is not a binary operator")
  applyBinary m op a b

def blockName (b : BlockId) : Act σ Text := do
  let info ← module b.module
  need info.blocks[b.handle]?

def jump (m : Handle) (target : BlockId) : Act σ Handle := do
  backend m ("jump to " ++ (← blockName target)) (Emit.jump target.handle)

def jumpCond (m : Handle) (cond : ValueId) (yes no : BlockId) : Act σ Handle := do
  let v ← view (← typeOf cond)
  if v.kind ≠ .bool then fail m .typeMismatch ("condition must be bool, got " ++ v.name)
  backend m "conditional jump" (Emit.jumpCond cond.handle yes.handle no.handle)

def phi (m : Handle) (t : TypeId) (edges : List (ValueId × BlockId)) : Act σ ValueId := do
  edges.forM fun (v, b) => do
    let vt ← typeOf v
    if !sameType vt t then
      fail m .typeMismatch
        ("phi of " ++ (← typeName t) ++ " gets " ++ (← typeName vt) ++ " from " ++ (← blockName b))
  let h ← backend m "phi" (Emit.phi t.handle (edges.map fun (v, b) => (v.handle, b.handle)))
  valueWith m (some t) h

def callArgs (m : Handle) (ft : TypeId) (count : Nat) : Nat → List ValueId → Act σ (List Handle)
  | _, [] => pure []
  | index, a :: rest => do
    let a ← if index < count then do
        let want ← need (← typeAt m (← emitQuiet (Emit.funcArgType ft.handle index)))
        convert m a want .typeMismatch ("argument " ++ Text.ofNat index)
      else pure a
    let handles ← callArgs m ft count (index + 1) rest
    pure (a.handle :: handles)

def call (m : Handle) (fn : Option ValueId) (args : List ValueId) : Act σ ValueId := do
  let ft ← signatureOf m fn
  let fn ← need fn
  let count := (← store).funcArgCount ft.handle
  let n := args.length
  if n < count || (!(← store).isVariadic ft.handle && n ≠ count) then
    fail m .argumentCount
      ("call expects " ++ Text.ofNat count ++ " arguments, got " ++ Text.ofNat n)
  let handles ← callArgs m ft count 0 args
  let h ← backend m "call" (Emit.call fn.handle handles)
  let ret ← emitQuiet (Emit.funcRetType ft.handle)
  valueWith m (← typeAt m ret) h

def callNamed (m : Handle) (name : Text) (args : List ValueId) : Act σ ValueId := do
  match ← valueSymbol m name true with
  | none => fail m .unresolvedSymbol ("unknown function " ++ name.quoted)
  | some sym =>
    match sym.value with
    | none => fail m .notCallable (name.quoted ++ " has no value")
    | some v =>
      let fn ← ptrVal m v
      call m (some fn) args

def ret (m : Handle) (v : Option ValueId) : Act σ Handle :=
  backend m "return" (Emit.ret (v.elim noHandle ValueId.handle))

end Act

end Arbor.Build
