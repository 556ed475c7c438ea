import Arbor.Build.Statements

/-! Memory from the heap, by the functions `malloc` and `free` that a program must have in view. -/

namespace Arbor.Build

open IR Diag

variable {σ : Type}

namespace Act

def callRuntime (m : Handle) (name : Text) (args : List ValueId) : Act σ ValueId := do
  match ← valueSymbol m name true with
  | some _ => callNamed m name args
  | none =>
    let f := Fault.error .unresolvedSymbol (name ++ " is not visible")
    report m f
    raise (f.withNote "use the cstd module to allocate on the heap")

/-- Allocates memory and yields its address as a pointer to `t`. With a check, a branch compares
the address with null; its arms do nothing. -/
def makeSized (m : Handle) (t : TypeId) (size : ValueId) (nullCheck : Bool) : Act σ ValueId := do
  let raw ← callRuntime m "malloc" [size]
  if nullCheck then
    let null ← defaultValue m (← typeOf raw)
    let cond : Act σ (Option ValueId) := do
      let c ← applyBinary m .eq raw null
      pure (some c)
    stmtBranch m (some cond) (some (pure ())) none
  let pt ← pointerTo t
  bitcast m raw pt

def make (m : Handle) (t : TypeId) : Act σ ValueId := do
  let size ← typeSize m t
  makeSized m t size true

def makeMany (m : Handle) (t : TypeId) (count : ValueId) : Act σ ValueId := do
  let size ← typeSize m t
  let n ← ptrVal m count
  let v ← view (← typeOf n)
  if !v.kind.isInteger then
    fail m .typeMismatch ("element count must be an integer, got " ++ v.name)
  let n ← convert m n (← typeOf size) .typeMismatch "element count"
  let total ← applyBinary m .mul size n
  makeSized m t total false

def drop (m : Handle) (ptr : ValueId) : Act σ Unit := do
  let p ← ptrVal m ptr
  let v ← view (← typeOf p)
  if !v.kind.isPointer then
    fail m .typeMismatch ("cannot drop a value of type " ++ v.name)
  let p ← if v.kind = .bytes then pure p else bitcast m p (← prim m .bytes)
  let _ ← callRuntime m "free" [p]

end Act

end Arbor.Build
