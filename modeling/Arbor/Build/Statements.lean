import Arbor.Build.Blocks

/-! Statements and branching expressions. Their parts are actions that the caller supplies, run
where the part belongs. An expression may turn out to have no value. -/

namespace Arbor.Build

open IR Diag

variable {σ : Type}

namespace Act

def evalExpr (m : Handle) (e : Option (Act σ (Option ValueId))) (what : Text) : Act σ ValueId := do
  match e with
  | none => fail m .semantic (what ++ ": missing expression")
  | some e =>
    match ← e with
    | some v => pure v
    | none => fail m .semantic (what ++ " yields no value")

def evalCond (m : Handle) (e : Option (Act σ (Option ValueId))) : Act σ ValueId := do
  let c ← evalExpr m e "condition"
  let c ← ptrVal m c
  let v ← view (← typeOf c)
  if v.kind ≠ .bool then fail m .typeMismatch ("condition must be bool, got " ++ v.name)
  pure c

def jumpUnlessTerminated (m : Handle) (target : BlockId) : Act σ Unit := do
  if !(← isTerminated m none) then
    let _ ← jump m target

def runOptional : Option (Act σ Unit) → Act σ Unit
  | some s => s
  | none => pure ()

def stmtBlock (m : Handle) (body : Option (Act σ Unit)) : Act σ Unit := do
  let _ ← pushScope m none
  ensuring (runOptional body) (popScope m)

def firstValue (m : Handle) (name : Text) (declared : Option TypeId)
    (init : Option (Act σ (Option ValueId))) : Act σ ValueId := do
  match init, declared with
  | some _, _ =>
    let v ← evalExpr m init ("initializer of " ++ name)
    ptrVal m v
  | none, some t =>
    if (← typeKind t) = .void then
      fail m .voidBinding (name.quoted ++ " cannot have type void")
    defaultValue m t
  | none, none => fail m .semantic (name.quoted ++ " needs a type or an initializer")

def stmtDef (m : Handle) (name : Text) (declared : Option TypeId)
    (init : Option (Act σ (Option ValueId))) : Act σ Unit := do
  let info ← module m
  if (info.scopes.lookupValue info.current name false).isSome then
    fail m .redefinition (name.quoted ++ " is already defined in this scope")
  let v ← firstValue m name declared init
  let t ← typeOf v
  if (← typeKind t) = .void then
    fail m .voidBinding ("cannot bind " ++ name.quoted ++ " to a void value")
  let (v, t) ← match declared with
    | none => pure (v, t)
    | some d => do
      if (← typeKind d) = .void then
        fail m .voidBinding (name.quoted ++ " cannot have type void")
      let v ← convert m v d .typeMismatch ("definition of " ++ name)
      pure (v, d)
  let slot ← allocInit m name (some t) (some v)
  addValueSymbol m name (some slot)

def stmtAssign (m : Handle) (target value : Option (Act σ (Option ValueId))) : Act σ Unit := do
  let l ← evalExpr m target "assignment target"
  let r ← evalExpr m value "assigned value"
  let slot ← ptrRef m l
  let v ← ptrVal m r
  let v ← match ← elem (← typeOf slot) with
    | some e => convert m v e .typeMismatch "assignment"
    | none => pure v
  let _ ← storeTo m slot v

def stmtReturn (m : Handle) (value : Option (Act σ (Option ValueId))) : Act σ Unit := do
  match ← enclosingFunc m with
  | none => fail m .noFunction "return outside of a function"
  | some fn =>
    let plain : Act σ Unit := do
      if value.isSome then fail m .returnMismatch "void function cannot return a value"
      let _ ← ret m none
    match ← funcRetType m (some fn) with
    | none => plain
    | some t =>
      let want ← view t
      if want.kind = .void then plain
      else
        if value.isNone then
          fail m .returnMismatch ("missing return value of type " ++ want.name)
        let v ← evalExpr m value "return value"
        let v ← ptrVal m v
        let v ← convert m v t .returnMismatch "return"
        let _ ← ret m (some v)

def branchArm (m : Handle) (block : BlockId) (body : Option (Act σ Unit)) (after : BlockId) :
    Act σ Unit := do
  setActiveBlock m (some block)
  runOptional body
  jumpUnlessTerminated m after
  if !(← isTerminated m (some block)) then
    setActiveBlock m (some block)
    jumpUnlessTerminated m after

def stmtBranch (m : Handle) (cond : Option (Act σ (Option ValueId)))
    (yes no : Option (Act σ Unit)) : Act σ Unit := do
  let c ← evalCond m cond
  let onTrue ← createBlock m "branch.true"
  let onFalse ← createBlock m "branch.false"
  let after ← createBlock m "branch.end"
  let _ ← jumpCond m c onTrue onFalse
  branchArm m onTrue yes after
  branchArm m onFalse no after
  setActiveBlock m (some after)

/-- What a loop repeats. Its parts are told where `break` and `continue` go. -/
def repeating (m : Handle) (own : LoopTargets) (start again : BlockId) (step body : LoopTargets → Option (Act σ Unit)) :
    Act σ Unit := do
  update m fun i => { i with loop := some own }
  setActiveBlock m (some start)
  runOptional (body own)
  jumpUnlessTerminated m own.next
  setActiveBlock m (some own.next)
  runOptional (step own)
  jumpUnlessTerminated m again
  setActiveBlock m (some own.leave)

def loopWith (m : Handle) (init : Option (Act σ Unit)) (cond : Option (Act σ (Option ValueId)))
    (step body : LoopTargets → Option (Act σ Unit)) : Act σ Unit := do
  runOptional init
  let blkCond ← createBlock m "loop.cond"
  let blkStep ← createBlock m "loop.step"
  let blkBody ← createBlock m "loop.body"
  let blkEnd ← createBlock m "loop.end"
  jumpUnlessTerminated m blkCond
  setActiveBlock m (some blkCond)
  match cond with
  | some _ =>
    let c ← evalCond m cond
    let _ ← jumpCond m c blkBody blkEnd
  | none =>
    let _ ← jump m blkBody
  repeating m ⟨blkEnd, blkStep⟩ blkBody blkCond step body

def stmtLoopWith (m : Handle) (init : Option (Act σ Unit)) (cond : Option (Act σ (Option ValueId)))
    (step body : LoopTargets → Option (Act σ Unit)) : Act σ Unit := do
  let _ ← pushScope m none
  let outer := (← module m).loop
  ensuring (loopWith m init cond step body) do
    update m fun i => { i with loop := outer }
    popScope m

def stmtLoop (m : Handle) (init : Option (Act σ Unit)) (cond : Option (Act σ (Option ValueId)))
    (step body : Option (Act σ Unit)) : Act σ Unit :=
  stmtLoopWith m init cond (fun _ => step) fun _ => body

def stmtBreak (m : Handle) : Act σ Unit := do
  match (← module m).loop with
  | none => fail m .breakOutsideLoop "break outside of a loop"
  | some l =>
    let _ ← jump m l.leave

def stmtContinue (m : Handle) : Act σ Unit := do
  match (← module m).loop with
  | none => fail m .continueOutsideLoop "continue outside of a loop"
  | some l =>
    let _ ← jump m l.next

def exprArm (m : Handle) (block : BlockId) (e : Option (Act σ (Option ValueId))) (what : Text)
    (after : BlockId) : Act σ (ValueId × BlockId) := do
  setActiveBlock m (some block)
  let v ← evalExpr m e what
  let v ← ptrVal m v
  let source ← activeBlock m
  let _ ← jump m after
  pure (v, ← need source)

def exprBranch (m : Handle) (cond yes no : Option (Act σ (Option ValueId))) : Act σ ValueId := do
  let start ← createBlock m "trinary.begin"
  let onTrue ← createBlock m "trinary.true"
  let onFalse ← createBlock m "trinary.false"
  let after ← createBlock m "trinary.end"
  let _ ← jump m start
  setActiveBlock m (some start)
  let c ← evalCond m cond
  let _ ← jumpCond m c onTrue onFalse
  let (tv, tb) ← exprArm m onTrue yes "true branch" after
  let (fv, fb) ← exprArm m onFalse no "false branch" after
  setActiveBlock m (some after)
  let tt ← typeOf tv
  let ft ← typeOf fv
  if !sameType tt ft then
    fail m .typeMismatch
      ("branches differ in type: " ++ (← typeName tt) ++ " and " ++ (← typeName ft))
  phi m tt [(tv, tb), (fv, fb)]

def ensureTailRet (m : Handle) (fn : Option ValueId) : Act σ Unit := do
  if (← activeBlock m).isNone || (← isTerminated m none) then pure ()
  else match ← funcRetType m fn with
    | none =>
      let name ← typeName (← typeOf (← need fn))
      fail m .notCallable ("value of type " ++ name ++ " is not a function")
    | some t =>
      if (← typeKind t) = .void then
        let _ ← ret m none
      else
        let v ← defaultValue m t
        let _ ← ret m (some v)

end Act

end Arbor.Build
