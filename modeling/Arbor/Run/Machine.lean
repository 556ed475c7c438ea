import Arbor.Run.Library

/-! Running a program: one transition executes an instruction, enters a block or leaves a function.
The calls that are open form an explicit stack, so nothing in a run depends on the depth of
calls. -/

namespace Arbor.Run

open IR

/-- A linked program: every function name with its definition. -/
structure Image where
  store : Store
  defs : Std.HashMap Text Handle
  maxSteps : Nat

def maxCallDepth : Nat := 10000

/-- A call in progress. -/
structure Frame where
  func : Handle
  block : Handle
  previous : Handle := noHandle
  /-- The instructions left in the block, once it is entered. The first of a frame that waits for
  a call is that call. -/
  rest : Option (List Handle) := none
  regs : Std.HashMap Operand Value := {}
  /-- The functions whose calls are open, this one first. -/
  calls : List Handle
  depth : Nat
deriving Inhabited

namespace Frame

def goto (f : Frame) (target : Handle) : Frame :=
  { f with previous := f.block, block := target, rest := none }

def finish (f : Frame) (h : Handle) (rest : List Handle) (v : Value) : Frame :=
  { f with regs := f.regs.insert (.inst h) v, rest := some rest }

end Frame

namespace Exec

def textAddress (s : Store) (module : Handle) (index : Nat) : Exec Value := do
  match (← get).texts[(module, index)]? with
  | some id => pure (.ptr id 0)
  | none =>
    let t := ((s.module? module).bind (·.texts[index]?)).getD []
    modifyGet fun m =>
      let (id, memory) := m.memory.alloc { size := Int64.ofNat (t.length + 1) }
      (.ptr id 0,
        { m with memory := memory.writeText id 0 t, texts := m.texts.insert (module, index) id })

def eval (s : Store) (f : Frame) (v : Operand) : Exec Value :=
  match v with
  | .const (.int _ n) => pure (.int n)
  | .const (.float _ bits) => pure (.float (constantFloat bits))
  | .const (.null _) => pure .null
  | .const (.zero _) => pure .absent
  | .const (.text module index) => textAddress s module index
  | .func h => pure (.func h)
  | v =>
    match f.regs[v]? with
    | some x => pure x
    | none => throw (.undefinedValue (s.identText v))

def evalAll (s : Store) (f : Frame) : List Operand → Exec (List Value)
  | [] => pure []
  | v :: vs => do
    let x ← eval s f v
    let xs ← evalAll s f vs
    pure (x :: xs)

def load (t : Ty) : Value → Exec Value
  | .ptr object offset => do
    match (← get).memory.object? object with
    | none => throw .nullLoad
    | some o =>
      if o.freed then throw .freedLoad
      pure (o.cells[offset]?.getD (.zeroOf t))
  | _ => throw .nullLoad

def store (v : Value) : Value → Exec Unit
  | .ptr object offset => do
    match (← get).memory.object? object with
    | none => throw .nullStore
    | some o =>
      if o.freed then throw .freedStore
      modify fun m => { m with memory := m.memory.write object offset v }
  | _ => throw .nullStore

def icmp (c : Comparison) (x y : Value) : Exec Value :=
  let equality (same : Bool) : Exec Value :=
    match c with
    | .eq => pure (.int (ofBool same))
    | .ne => pure (.int (ofBool !same))
    | c => throw (.pointerComparison c)
  match x, y with
  | .null, .ptr .. => equality false
  | .null, _ => equality true
  | .ptr a i, .ptr b j => equality (a == b && i == j)
  | .ptr .., _ => equality false
  | x, y => pure (.int (ofBool (compareInts c x.toInt y.toInt)))

def cast (c : Cast) (source target : Ty) (x : Value) : Value :=
  match c with
  | .zext => .int (zeroExtend source.width x.toInt)
  | .sext => .int (signExtend source.width x.toInt)
  | .trunc => .int (wrap target.width x.toInt)
  | .sitofp => .float (roundTo target x.toInt.toFloat)
  | .fptrunc => .float (roundTo target x.toFloat)
  | .fpext | .bitcast => x

def compute (s : Store) (f : Frame) (i : InstInfo) : Exec Value :=
  match i.inst with
  | .alloca elem =>
    let size := match s.extent elem with
      | .ok x => x.size
      | .error _ => Extent.address.size
    alloc { size := Int64.ofNat size }
  | .load elem src => do load elem (← eval s f src)
  | .store src dst => do
    let p ← eval s f dst
    let v ← eval s f src
    store v p
    pure .absent
  | .int op x y => do
    let a ← eval s f x
    let b ← eval s f y
    match intOp op a.toInt b.toInt with
    | some r => pure (.int (wrap (s.tyOf x).width r))
    | none => throw .divisionByZero
  | .float op x y => do
    let a ← eval s f x
    let b ← eval s f y
    pure (.float (roundTo (s.tyOf x) (floatOp op a.toFloat b.toFloat)))
  | .fneg x => do
    let a ← eval s f x
    pure (.float (roundTo i.ty (-a.toFloat)))
  | .icmp c x y => do
    let a ← eval s f x
    let b ← eval s f y
    icmp c a b
  | .fcmp c x y => do
    let a ← eval s f x
    let b ← eval s f y
    pure (.int (ofBool (compareFloats c a.toFloat b.toFloat)))
  | .cast c x target => do pure (cast c (s.tyOf x) target (← eval s f x))
  | .phi _ | .call .. => pure .absent

def phi (s : Store) (f : Frame) (edges : List (Operand × Handle)) : Exec Value :=
  match edges.find? fun (_, pred) => pred == f.previous with
  | some (v, _) => eval s f v
  | none => throw .phiEdge

def phis (s : Store) (f : Frame) : List Handle → Exec (List (Handle × Value))
  | [] => pure []
  | h :: rest =>
    match (s.inst? h).map InstInfo.inst with
    | some (.phi edges) => do
      let v ← phi s f edges
      let vs ← phis s f rest
      pure ((h, v) :: vs)
    | _ => pure []

end Exec

/-- What follows a transition. -/
inductive Next where
  | go (frame : Frame) (callers : List Frame)
  | halt (value : Value)

def callResult (t : Ty) (v : Value) : Value :=
  match t with
  | .int w => .int (wrap w v.toInt)
  | _ => v

namespace Image

def isPhi (img : Image) (h : Handle) : Bool :=
  match img.store.inst? h with
  | some i => i.inst.isPhi
  | none => false

def enter (img : Image) (f : Frame) (b : BlockInfo) : Exec Frame := do
  let vs ← Exec.phis img.store f b.insts.toList
  let regs := vs.foldl (fun r (h, v) => r.insert (.inst h) v) f.regs
  pure { f with regs, rest := some (b.insts.toList.filter fun h => !img.isPhi h) }

def frameFor (func : Handle) (info : FuncInfo) (args : List Value) (calls : List Handle)
    (depth : Nat) : Frame where
  func
  block := (info.blocks[0]?).getD noHandle
  calls := func :: calls
  depth := depth + 1
  regs := (args.take info.params.size).zipIdx.foldl
    (fun r (v, i) => r.insert (.param func i) v) {}

def resolve (img : Image) (h : Handle) (info : FuncInfo) : Handle × FuncInfo :=
  if info.blocks.size ≠ 0 then (h, info)
  else match img.defs[info.ident.spoken]? with
    | none => (h, info)
    | some d =>
      match img.store.func? d with
      | some i => (d, i)
      | none => (h, info)

def invoke (img : Image) (f : Frame) (callers : List Frame) (call : Handle) (rest : List Handle)
    (ty : Ty) (callee : Handle) (args : List Value) : Exec Next := do
  match img.store.func? callee with
  | none => throw (.undefinedFunction [])
  | some info =>
    let (func, info) := img.resolve callee info
    if info.blocks.size = 0 then
      match Library.find? info.ident.spoken with
      | none => throw (.undefinedFunction info.ident.spoken)
      | some body =>
        let v ← body args
        pure (.go (f.finish call rest (callResult ty v)) callers)
    else if maxCallDepth < f.depth + 1 then throw .callDepth
    else
      let inner := frameFor func info args f.calls f.depth
      pure (.go inner ({ f with rest := some (call :: rest) } :: callers))

def execute (img : Image) (f : Frame) (callers : List Frame) (h : Handle) (rest : List Handle) :
    Exec Next := do
  modify fun m => { m with steps := m.steps + 1 }
  if img.maxSteps < (← get).steps then throw .stepLimit
  match img.store.inst? h with
  | none => pure (.go { f with rest := some rest } callers)
  | some i =>
    match i.inst with
    | .call callee args =>
      match ← Exec.eval img.store f callee with
      | .func target =>
        let vs ← Exec.evalAll img.store f args
        img.invoke f callers h rest i.ty target vs
      | v => throw (.notFunction v)
    | .store .. =>
      let _ ← Exec.compute img.store f i
      pure (.go { f with rest := some rest } callers)
    | _ =>
      let v ← Exec.compute img.store f i
      pure (.go (f.finish h rest v) callers)

def giveBack (img : Image) (v : Value) : List Frame → Next
  | [] => .halt v
  | f :: callers =>
    match f.rest with
    | some (call :: rest) =>
      let ty := (img.store.inst? call).elim .void InstInfo.ty
      .go (f.finish call rest (callResult ty v)) callers
    | _ => .go f callers

def leave (img : Image) (f : Frame) (callers : List Frame) (b : BlockInfo) : Exec Next := do
  match b.ending.map Ending.terminator with
  | none => throw .openBlock
  | some (.ret none) => pure (img.giveBack .absent callers)
  | some (.ret (some v)) =>
    let x ← Exec.eval img.store f v
    pure (img.giveBack x callers)
  | some (.br target) => pure (.go (f.goto target) callers)
  | some (.condBr c yes no) =>
    let x ← Exec.eval img.store f c
    pure (.go (f.goto (if x.toInt ≠ 0 then yes else no)) callers)

def step (img : Image) (f : Frame) (callers : List Frame) : Exec Next := do
  match img.store.block? f.block with
  | none => throw .openBlock
  | some b =>
    match f.rest with
    | none =>
      let f ← img.enter f b
      pure (.go f callers)
    | some [] => img.leave f callers b
    | some (h :: rest) => img.execute f callers h rest

/-- How a run ends. The calls open at a trap are named from the outermost inwards. -/
inductive Ending where
  | finished (value : Value)
  | trapped (calls : List Text) (trap : Trap)

def nameOf (img : Image) (func : Handle) : Text :=
  (img.store.func? func).elim [] (·.ident.spoken)

def run (img : Image) (f : Frame) (callers : List Frame) (m : Machine) : Option (Ending × Machine) :=
  match img.step f callers m with
  | .ok (.halt v) m => some (.finished v, m)
  | .ok (.go g callers) m => by
    apply run
    · exact img
    · exact g
    · exact callers
    · exact m
  | .error t m => some (.trapped (f.calls.reverse.map img.nameOf) t, m)
partial_fixpoint

end Image

end Arbor.Run
