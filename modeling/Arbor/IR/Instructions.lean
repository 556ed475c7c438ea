import Arbor.IR.Modules

/-! Appending instructions to the active block. Operands are checked first, then the cursor, so a
refused instruction changes nothing in the block. -/

namespace Arbor.IR

namespace Emit

def append (block : Handle) (inst : Inst) (ty : Ty) : Emit Handle := do
  let h ← push (.inst { inst, ty, block })
  match (← get).block? block with
  | none => pure h
  | some b =>
    modify (·.setBlock block { b with insts := b.insts.push h })
    pure h

def terminate (block : Handle) (t : Terminator) : Emit Handle := do
  let h ← push (.ending block)
  match (← get).block? block with
  | none => pure h
  | some b =>
    modify (·.setBlock block { b with ending := some ⟨h, t⟩ })
    pure h

def alloc (type : Handle) (name : Text) : Emit Handle := do
  let t ← typeOf type
  let elem ← match t with
    | .void | .label => throw (.cannotAllocate t.kind)
    | .func .. => pure (.ptr t)
    | _ => pure t
  let block ← cursor
  let func := ((← get).block? block).elim noHandle BlockInfo.func
  let unique ← localName func name
  let h ← append block (.alloca elem) (.ptr elem)
  modify (·.setInst h
    { inst := .alloca elem, ty := .ptr elem, block, ident := { name := unique } })
  pure h

def load (ptr : Handle) : Emit Handle := do
  let p ← operandOf ptr
  match (← get).tyOf p with
  | .ptr elem =>
    let block ← cursor
    append block (.load elem p) elem
  | t => throw (.loadFrom ((← get).tyText t))

def store (ptr value : Handle) : Emit Handle := do
  let p ← operandOf ptr
  let v ← operandOf value
  match (← get).tyOf p with
  | .ptr elem =>
    let want ← internType elem
    let own ← valueType value
    let got ← match v with
      | .func _ => internType ((← get).tyOf v)
      | _ => pure own
    if want ≠ got then
      throw (.storeMismatch ((← get).typeName got) ((← get).typeName want))
    let block ← cursor
    append block (.store v p) .void
  | t => throw (.storeTo ((← get).tyText t))

def bitcast (value type : Handle) : Emit Handle := do
  let v ← operandOf value
  let t ← typeOf type
  let block ← cursor
  append block (.cast .bitcast v t) t

def castBetween (source target : Kind) : Option Cast :=
  if source = .bool && target.isInteger then some .zext
  else if source.isInteger && target.isInteger then
    some (if source.bits < target.bits then .sext else .trunc)
  else if source.isInteger && target.isFloat then some .sitofp
  else if source = .f32 && target = .f64 then some .fpext
  else if source = .f64 && target = .f32 then some .fptrunc
  else if source.isPointer && target.isPointer then some .bitcast
  else none

def coerce (value type : Handle) : Emit Handle := do
  let source ← valueType value
  if source = type then pure value
  else
    let v ← operandOf value
    let t ← typeOf type
    let sourceKind := (← get).typeKind source
    let block ← cursor
    match castBetween sourceKind t.kind with
    | some c => append block (.cast c v t) t
    | none => throw (.cannotConvert ((← get).typeName source) ((← get).typeName type))

def ptrVal (value : Handle) : Emit Handle := do
  match ← operandOf value with
  | .inst h =>
    match ((← get).inst? h).map InstInfo.inst with
    | some (.alloca _) => load value
    | _ => pure value
  | _ => pure value

def operandHandle : Operand → Emit Handle
  | .const c => valueHandle (.const c) (.const c)
  | .param f i => valueHandle (.param f i) (.param f i)
  | .func h | .inst h | .block h => pure h

def ptrRef (value : Handle) : Emit Handle := do
  let v ← operandOf value
  let refuse : Emit Handle := do throw (.notAddressable ((← get).tyText ((← get).tyOf v)))
  match v with
  | .inst h =>
    match ((← get).inst? h).map InstInfo.inst with
    | some (.alloca _) => pure value
    | some (.load _ src) => operandHandle src
    | _ => refuse
  | _ => refuse

def unary (op : Op) (value : Handle) : Emit Handle := do
  let x ← operandOf value
  let type ← valueType value
  let kind := (← get).typeKind type
  let block ← cursor
  match op, (← get).tyOf x with
  | .neg, .float p => append block (.fneg x) (.float p)
  | .not, .int .w1 => append block (.int .xor x (.const (.bool true))) .bool
  | _, .int .w1 => throw (.operatorKind op kind)
  | .neg, .int w => append block (.int .sub (.const (.int w 0)) x) (.int w)
  | .flip, .int w => append block (.int .xor x (.const (.int w (-1)))) (.int w)
  | _, _ => throw (.operatorKind op kind)

def comparison? : Op → Option Comparison
  | .eq => some .eq
  | .ne => some .ne
  | .gt => some .gt
  | .ge => some .ge
  | .lt => some .lt
  | .le => some .le
  | _ => none

def intOp? : Op → Option IntOp
  | .add => some .add
  | .sub => some .sub
  | .mul => some .mul
  | .div => some .sdiv
  | .mod => some .srem
  | .bitAnd => some .and
  | .bitOr => some .or
  | .bitXor => some .xor
  | .shl => some .shl
  | .shr => some .ashr
  | _ => none

def floatOp? : Op → Option FloatOp
  | .add => some .fadd
  | .sub => some .fsub
  | .mul => some .fmul
  | .div => some .fdiv
  | .mod => some .frem
  | _ => none

def boolOp? : Op → Option IntOp
  | .and | .bitAnd => some .and
  | .or | .bitOr => some .or
  | .bitXor => some .xor
  | _ => none

def Comparison.isEquality : Comparison → Bool
  | .eq | .ne => true
  | _ => false

def binaryInst? (op : Op) (kind : Kind) (x y : Operand) : Option Inst :=
  match comparison? op with
  | some c =>
    if kind.isInteger || kind = .bool || (kind.isPointer && Comparison.isEquality c) then
      some (.icmp c x y)
    else if kind.isFloat then some (.fcmp c x y)
    else none
  | none =>
    if kind.isInteger then (intOp? op).map fun o => .int o x y
    else if kind.isFloat then (floatOp? op).map fun o => .float o x y
    else if kind = .bool then (boolOp? op).map fun o => .int o x y
    else none

def binary (op : Op) (left right : Handle) : Emit Handle := do
  let x ← operandOf left
  let y ← operandOf right
  let leftType ← valueType left
  let rightType ← valueType right
  if leftType ≠ rightType then
    throw (.operandsDiffer op ((← get).typeName leftType) ((← get).typeName rightType))
  let kind := (← get).typeKind leftType
  let block ← cursor
  match binaryInst? op kind x y with
  | none => throw (.operatorKind op kind)
  | some inst =>
    let own := (← get).tyOf x
    append block inst (match inst with | .icmp .. | .fcmp .. => Ty.bool | _ => own)

def jump (target : Handle) : Emit Handle := do
  let _ ← blockOf target
  let block ← cursor
  terminate block (.br target)

def jumpCond (cond yes no : Handle) : Emit Handle := do
  let c ← operandOf cond
  let type ← valueType cond
  let bool ← internType .bool
  if type ≠ bool then throw (.branchCondition ((← get).typeName type))
  let _ ← blockOf yes
  let _ ← blockOf no
  let block ← cursor
  terminate block (.condBr c yes no)

def phiEdges (type : Handle) : Nat → List (Handle × Handle) → Emit (List (Operand × Handle))
  | _, [] => pure []
  | index, (value, pred) :: rest => do
    let got ← valueType value
    if got ≠ type then
      throw (.phiEdge index ((← get).typeName got) ((← get).typeName type))
    let v ← operandOf value
    let _ ← blockOf pred
    let edges ← phiEdges type (index + 1) rest
    pure ((v, pred) :: edges)

def phi (type : Handle) (incoming : List (Handle × Handle)) : Emit Handle := do
  if incoming.isEmpty then throw .emptyPhi
  let edges ← phiEdges type 0 incoming
  let block ← cursor
  let s ← get
  let ty := (edges.head?.map fun (v, _) => s.tyOf v).getD .void
  append block (.phi edges) ty

def externIn (module : Handle) (f : FuncInfo) : Emit Handle := do
  match (← get).module? module with
  | none => pure noHandle
  | some m =>
    let name := f.ident.spoken
    match m.declared.lookup name with
    | some h => pure h
    | none => newFunc module name f.ret (f.params.toList.map ParamInfo.ty) f.variadic

def callArgs : Nat → List Ty → List Handle → Emit (List Operand)
  | _, _, [] => pure []
  | index, [], a :: rest => do
    match (← get).operand? a with
    | none => throw (.argument index (.notValue a))
    | some v =>
      let vs ← callArgs (index + 1) [] rest
      pure (v :: vs)
  | index, t :: ts, a :: rest => do
    match (← get).operand? a with
    | none => throw (.argument index (.notValue a))
    | some v =>
      let want ← internType t
      let got ← valueType a
      if got ≠ want then
        throw (.argumentType index ((← get).typeName got) ((← get).typeName want))
      let vs ← callArgs (index + 1) ts rest
      pure (v :: vs)

/-- What a call goes to: the operand and the parts of its function type. A function of another
module is declared in the calling one first. -/
def callTarget (block : Handle) : Operand → Emit (Operand × Ty × List Ty × Bool)
  | .func h => do
    match (← get).func? h with
    | none => throw (.notCallable [])
    | some f =>
      let parts := (f.ret, f.params.toList.map ParamInfo.ty, f.variadic)
      let home := moduleOfBlock (← get) block
      if f.module = home then pure (.func h, parts)
      else
        let declared ← externIn home f
        pure (.func declared, parts)
  | v => do
    match (← get).tyOf v with
    | .ptr (.func r ps variadic) => pure (v, r, ps, variadic)
    | t => throw (.notCallable ((← get).tyText t))

def call (func : Handle) (args : List Handle) : Emit Handle := do
  let callee ← operandOf func
  let block ← cursor
  let (target, _, ps, variadic) ← callTarget block callee
  if args.length < ps.length || (!variadic && args.length ≠ ps.length) then
    throw (.argumentCount ps.length args.length)
  let vs ← callArgs 0 ps args
  match (← get).tyOf target with
  | .ptr (.func r _ _) => append block (.call target vs) r
  | _ => append block (.call target vs) .void

end Emit

namespace Store

/-- Whether two types agree where structs count as equal when their labels are; `depth` bounds the
unnamed structs that are compared field by field. -/
def agree (s : Store) : Nat → Ty → Ty → Bool
  | 0, a, b => a == b
  | depth + 1, a, b =>
    match a, b with
    | .ptr x, .ptr y => s.agree depth x y
    | .func r ps v, .func r' ps' v' =>
      v == v' && s.agree depth r r' && ps.length == ps'.length
        && (ps.zip ps').all fun (x, y) => s.agree depth x y
    | .array n x, .array m y => n == m && s.agree depth x y
    | .struct g, .struct h =>
      match s.struct? g, s.struct? h with
      | some i, some j =>
        if !i.label.isEmpty || !j.label.isEmpty then i.label == j.label
        else
          let xs := i.fields.getD []
          let ys := j.fields.getD []
          xs.length == ys.length && (xs.zip ys).all fun (x, y) => s.agree depth x y
      | _, _ => g == h
    | a, b => a == b

end Store

namespace Emit

def ret (value : Handle) : Emit Handle := do
  let block ← cursor
  let s ← get
  let want := (do
    let b ← s.block? block
    let f ← s.func? b.func
    pure f.ret).getD .void
  if value = noHandle then
    if want ≠ .void then throw (.missingReturn (s.tyText want))
    terminate block (.ret none)
  else
    let v ← operandOf value
    let got := s.tyOf v
    if !s.agree (s.entries.size + 64) got want then
      throw (.returnMismatch (s.tyText got) (s.tyText want))
    terminate block (.ret (some v))

end Emit

end Arbor.IR
