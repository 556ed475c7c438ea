import Arbor.IR.Ty
import Std.Data.HashMap

/-! The store: every type, constant, function, block, instruction and module that exists, in the
order of creation. A handle is a position in it. Types and constants are kept once each, so that
equal ones have equal handles. -/

namespace Arbor.IR

/-- A constant. Integers keep the number they were made from, doubles their bits; a text is known
by its module and its place among the module's texts. -/
inductive Const where
  | int (width : Width) (value : Int64)
  | float (precision : Precision) (bits : UInt64)
  | null (type : Ty)
  | zero (type : Ty)
  | text (module : Handle) (index : Nat)
deriving DecidableEq, Hashable

namespace Const

def ty : Const → Ty
  | .int w _ => .int w
  | .float p _ => .float p
  | .null t => t
  | .zero t => t
  | .text .. => .bytes

def bool (b : Bool) : Const := .int .w1 (if b then 1 else 0)

end Const

/-- What an instruction may refer to. -/
inductive Operand where
  | const (value : Const)
  | param (func : Handle) (index : Nat)
  | func (handle : Handle)
  | inst (handle : Handle)
  | block (handle : Handle)
deriving DecidableEq, Hashable

inductive IntOp where
  | add | sub | mul | sdiv | srem | and | or | xor | shl | ashr
deriving DecidableEq

inductive FloatOp where
  | fadd | fsub | fmul | fdiv | frem
deriving DecidableEq

inductive Comparison where
  | eq | ne | gt | ge | lt | le
deriving DecidableEq

inductive Cast where
  | zext | sext | trunc | sitofp | fpext | fptrunc | bitcast
deriving DecidableEq

inductive Inst where
  | alloca (elem : Ty)
  | load (elem : Ty) (src : Operand)
  | store (src dst : Operand)
  | int (op : IntOp) (x y : Operand)
  | float (op : FloatOp) (x y : Operand)
  | fneg (x : Operand)
  | icmp (c : Comparison) (x y : Operand)
  | fcmp (c : Comparison) (x y : Operand)
  | cast (c : Cast) (x : Operand) (target : Ty)
  | phi (edges : List (Operand × Handle))
  | call (callee : Operand) (args : List Operand)
deriving DecidableEq

namespace Inst

def isPhi : Inst → Bool
  | .phi _ => true
  | _ => false

def isValue : Inst → Bool
  | .store .. => false
  | _ => true

end Inst

inductive Terminator where
  | ret (value : Option Operand)
  | br (target : Handle)
  | condBr (cond : Operand) (yes no : Handle)
deriving DecidableEq

namespace Terminator

def successors : Terminator → List Handle
  | .ret _ => []
  | .br target => [target]
  | .condBr _ yes no => [yes, no]

end Terminator

/-- A name, or the number that stands for one once the function has been printed. -/
structure Ident where
  name : Text := []
  number : Nat := 0
deriving DecidableEq

namespace Ident

def isUnnamed (i : Ident) : Bool := i.name.isEmpty

end Ident

structure StructInfo where
  name : Text
  /-- The name in the module's text, unique there. -/
  label : Text
  module : Handle
  fields : Option (List Ty) := none

structure ParamInfo where
  ty : Ty
  ident : Ident := {}

structure FuncInfo where
  ident : Ident
  module : Handle
  ret : Ty
  params : Array ParamInfo
  variadic : Bool
  blocks : Array Handle := #[]
  /-- How often each name was asked for among the locals. -/
  locals : List (Text × Nat) := []

namespace FuncInfo

def signature (f : FuncInfo) : Ty := .func f.ret (f.params.toList.map ParamInfo.ty) f.variadic

end FuncInfo

structure InstInfo where
  inst : Inst
  ty : Ty
  block : Handle
  ident : Ident := {}

/-- The terminator of a block with its handle. -/
structure Ending where
  handle : Handle
  terminator : Terminator

structure BlockInfo where
  ident : Ident
  func : Handle
  insts : Array Handle := #[]
  ending : Option Ending := none

structure ModuleInfo where
  name : Text
  dropped : Bool := false
  funcs : Array Handle := #[]
  /-- Functions by the name they were declared under. -/
  declared : List (Text × Handle) := []
  texts : Array Text := #[]
  structs : Array Handle := #[]
  labels : List (Text × Nat) := []

/-- What a handle can stand for. -/
inductive Entry where
  | reserved
  | type (ty : Ty)
  | struct (info : StructInfo)
  | const (value : Const)
  | param (func : Handle) (index : Nat)
  | func (info : FuncInfo)
  | block (info : BlockInfo)
  | inst (info : InstInfo)
  | ending (block : Handle)
  | module (info : ModuleInfo)

/-- Why the store refuses an operation. -/
inductive Refusal where
  | notType (h : Handle)
  | notValue (h : Handle)
  | notBlock (h : Handle)
  | notModule (h : Handle)
  | notFunction (h : Handle)
  | dropped (module : Text)
  | unnamedModule
  | pointerTo (kind : Kind)
  | returnType (cause : Refusal)
  | parameter (index : Nat) (cause : Refusal)
  | voidParameter (index : Nat)
  | notStruct (type : Text)
  | field (index : Nat) (cause : Refusal)
  | noDefault (type : Text)
  | intWidth (bits : Nat)
  | redeclared (func : Text)
  | notFuncType (type : Text)
  | noParameter (func : Text) (index : Nat)
  | sizeOf (type : Text) (cause : Refusal)
  | noBody (struct : Text)
  | containsItself (struct : Text)
  | noSize (type : Text)
  | arrayLength
  | noActiveBlock
  | terminated (block : Text)
  | cannotAllocate (kind : Kind)
  | loadFrom (type : Text)
  | storeTo (type : Text)
  | storeMismatch (got want : Text)
  | cannotConvert (source target : Text)
  | notAddressable (type : Text)
  | operatorKind (op : Op) (kind : Kind)
  | operandsDiffer (op : Op) (left right : Text)
  | branchCondition (type : Text)
  | emptyPhi
  | phiEdge (index : Nat) (got want : Text)
  | notCallable (type : Text)
  | argumentCount (want got : Nat)
  | argument (index : Nat) (cause : Refusal)
  | argumentType (index : Nat) (got want : Text)
  | missingReturn (type : Text)
  | returnMismatch (got want : Text)
deriving DecidableEq

/-- An instruction appended after the end of a block, kept against its module. -/
structure Violation where
  module : Handle
  block : Text

/-- What a type is found by: the handles of the types that it is made of. -/
inductive TypeKey where
  | void
  | label
  | int (width : Width)
  | float (precision : Precision)
  | ptr (elem : Handle)
  | func (ret : Handle) (params : List Handle) (variadic : Bool)
  | array (length : Nat) (elem : Handle)
deriving DecidableEq

namespace TypeKey

def more : List Handle → String
  | [] => ""
  | h :: hs => "," ++ h.repr ++ more hs

def listed : List Handle → String
  | [] => ""
  | h :: hs => h.repr ++ more hs

def closing : Bool → String
  | true => ",...)"
  | false => ")"

def text : TypeKey → String
  | .void => "void"
  | .label => "label"
  | .int .w1 => "bool"
  | .int .w8 => "i8"
  | .int .w16 => "i16"
  | .int .w32 => "i32"
  | .int .w64 => "i64"
  | .float .single => "f32"
  | .float .double => "f64"
  | .ptr elem => "ptr:" ++ elem.repr
  | .func ret params variadic => "fn:" ++ ret.repr ++ "(" ++ listed params ++ closing variadic
  | .array length elem => "arr:" ++ length.repr ++ ":" ++ elem.repr

end TypeKey

structure Store where
  entries : Array Entry
  /-- By the texts of keys. -/
  types : Std.HashMap String Handle
  values : Std.HashMap Operand Handle
  /-- The block that instructions are appended to. -/
  active : Option Handle := none
  violations : Array Violation := #[]

abbrev Emit := EStateM Refusal Store

namespace Store

def primitives : List (TypeKey × Ty) :=
  [(.void, .void), (.int .w8, .i8), (.int .w16, .i16), (.int .w32, .i32), (.int .w64, .i64), (.float .single, .f32),
    (.float .double, .f64), (.int .w1, .bool), (.label, .label), (.ptr 2, .bytes)]

def initial : Store where
  entries := #[.reserved] ++ (primitives.map fun p => Entry.type p.2).toArray
  types := Std.HashMap.ofList ((primitives.zipIdx 1).map fun p => (p.1.1.text, p.2))
  values := {}

instance : Inhabited Store := ⟨initial⟩

def entry (s : Store) (h : Handle) : Entry := s.entries.getD h .reserved

def type? (s : Store) (h : Handle) : Option Ty :=
  match s.entry h with
  | .type t => some t
  | .struct _ => some (.struct h)
  | _ => none

def struct? (s : Store) (h : Handle) : Option StructInfo :=
  match s.entry h with
  | .struct i => some i
  | _ => none

def func? (s : Store) (h : Handle) : Option FuncInfo :=
  match s.entry h with
  | .func f => some f
  | _ => none

def block? (s : Store) (h : Handle) : Option BlockInfo :=
  match s.entry h with
  | .block b => some b
  | _ => none

def inst? (s : Store) (h : Handle) : Option InstInfo :=
  match s.entry h with
  | .inst i => some i
  | _ => none

def module? (s : Store) (h : Handle) : Option ModuleInfo :=
  match s.entry h with
  | .module m => some m
  | _ => none

def operand? (s : Store) (h : Handle) : Option Operand :=
  match s.entry h with
  | .const c => some (.const c)
  | .param f i => some (.param f i)
  | .func _ => some (.func h)
  | .block _ => some (.block h)
  | .inst i => if i.inst.isValue then some (.inst h) else none
  | _ => none

def tyOf (s : Store) : Operand → Ty
  | .const c => c.ty
  | .param f i => ((s.func? f).bind (·.params[i]?)).elim .void ParamInfo.ty
  | .func h => (s.func? h).elim .void fun f => .ptr f.signature
  | .inst h => (s.inst? h).elim .void InstInfo.ty
  | .block _ => .label

def push (s : Store) (e : Entry) : Handle × Store :=
  (s.entries.size, { s with entries := s.entries.push e })

def setFunc (s : Store) (h : Handle) (f : FuncInfo) : Store :=
  { s with entries := s.entries.setIfInBounds h (.func f) }

def setBlock (s : Store) (h : Handle) (b : BlockInfo) : Store :=
  { s with entries := s.entries.setIfInBounds h (.block b) }

def setInst (s : Store) (h : Handle) (i : InstInfo) : Store :=
  { s with entries := s.entries.setIfInBounds h (.inst i) }

def setModule (s : Store) (h : Handle) (m : ModuleInfo) : Store :=
  { s with entries := s.entries.setIfInBounds h (.module m) }

def setStruct (s : Store) (h : Handle) (i : StructInfo) : Store :=
  { s with entries := s.entries.setIfInBounds h (.struct i) }

end Store

def freshName (uses : List (Text × Nat)) (name : Text) : Text × List (Text × Nat) :=
  match uses.lookup name with
  | none => (name, (name, 1) :: uses)
  | some n => (name ++ "." ++ Text.ofNat n, (name, n + 1) :: uses.filter (·.1 ≠ name))

namespace Emit

def push (e : Entry) : Emit Handle := modifyGet (·.push e)

def typeOf (h : Handle) : Emit Ty := do
  match (← get).type? h with
  | some t => pure t
  | none => throw (.notType h)

def operandOf (h : Handle) : Emit Operand := do
  match (← get).operand? h with
  | some v => pure v
  | none => throw (.notValue h)

def blockOf (h : Handle) : Emit BlockInfo := do
  match (← get).block? h with
  | some b => pure b
  | none => throw (.notBlock h)

def moduleOf (h : Handle) : Emit ModuleInfo := do
  match (← get).module? h with
  | some m => if m.dropped then throw (.dropped m.name) else pure m
  | none => throw (.notModule h)

def valueHandle (v : Operand) (e : Entry) : Emit Handle := do
  match (← get).values[v]? with
  | some h => pure h
  | none =>
    let h ← push e
    modify fun s => { s with values := s.values.insert v h }
    pure h

def localName (func : Handle) (name : Text) : Emit Text := do
  if name.isEmpty then pure []
  else match (← get).func? func with
    | none => pure name
    | some f =>
      let (unique, locals) := freshName f.locals name
      modify (·.setFunc func { f with locals := locals })
      pure unique

end Emit

end Arbor.IR
