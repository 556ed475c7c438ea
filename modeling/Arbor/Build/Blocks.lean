import Arbor.Build.Values

/-! Blocks and the cursor. -/

namespace Arbor.Build

open IR Diag

variable {σ : Type}

namespace Act

def blockAt (m : Handle) (h : Handle) (name : Text) : Act σ (Option BlockId) := do
  if h = noHandle then pure none
  else
    update m fun i => { i with blocks := i.blocks.insertIfNew h name }
    pure (some ⟨m, h⟩)

def createBlockIn (m : Handle) (fn : ValueId) (name : Text) : Act σ BlockId := do
  let h ← backend m ("create block " ++ name.quoted) (Emit.createBlock fn.handle name)
  need (← blockAt m h name)

def createBlock (m : Handle) (name : Text) : Act σ BlockId := do
  match ← enclosingFunc m with
  | none => fail m .noFunction ("block " ++ name.quoted ++ " outside of a function")
  | some fn => createBlockIn m fn name

def activeBlock (m : Handle) : Act σ (Option BlockId) := do blockAt m (← store).activeBlock []

def setActiveBlock (m : Handle) (b : Option BlockId) : Act σ Unit :=
  backend m "activate block" (Emit.setActiveBlock (b.elim noHandle BlockId.handle))

def blockTail (m : Handle) (b : Option BlockId) : Act σ Handle := do
  let b ← match b with
    | some b => pure (some b)
    | none => activeBlock m
  match b with
  | none => pure noHandle
  | some b => pure ((← store).blockTail b.handle)

def isTerminator (ins : Handle) : Act σ Bool := do pure ((← store).isTerminator ins)

def isTerminated (m : Handle) (b : Option BlockId) : Act σ Bool := do
  match b with
  | some _ => isTerminator (← blockTail m b)
  | none =>
    match ← activeBlock m with
    | none => pure true
    | some _ => isTerminator (← blockTail m none)

end Act

end Arbor.Build
