import Arbor.IR.Instructions
import Arbor.IR.Literal

/-! The textual representation of modules. Printing a function gives numbers to its unnamed locals,
and these stay. -/

namespace Arbor.IR

namespace Store

def identText (s : Store) : Operand → Text
  | .const c => s.constText c
  | .param f i =>
    "%" ++ (((s.func? f).bind (·.params[i]?)).elim [] (·.ident.written))
  | .func h => "@" ++ (s.func? h).elim [] (·.ident.written)
  | .inst h => "%" ++ (s.inst? h).elim [] (·.ident.written)
  | .block h => "%" ++ (s.block? h).elim [] (·.ident.written)

def operandText (s : Store) (v : Operand) : Text := s.tyText (s.tyOf v) ++ " " ++ s.identText v

def labelText (s : Store) (block : Handle) : Text := "label " ++ s.identText (.block block)

end Store

def IntOp.name : IntOp → Text
  | .add => "add"
  | .sub => "sub"
  | .mul => "mul"
  | .sdiv => "sdiv"
  | .srem => "srem"
  | .and => "and"
  | .or => "or"
  | .xor => "xor"
  | .shl => "shl"
  | .ashr => "ashr"

def FloatOp.name : FloatOp → Text
  | .fadd => "fadd"
  | .fsub => "fsub"
  | .fmul => "fmul"
  | .fdiv => "fdiv"
  | .frem => "frem"

def Comparison.intName : Comparison → Text
  | .eq => "eq"
  | .ne => "ne"
  | .gt => "sgt"
  | .ge => "sge"
  | .lt => "slt"
  | .le => "sle"

def Comparison.floatName : Comparison → Text
  | .eq => "oeq"
  | .ne => "one"
  | .gt => "ogt"
  | .ge => "oge"
  | .lt => "olt"
  | .le => "ole"

def Cast.name : Cast → Text
  | .zext => "zext"
  | .sext => "sext"
  | .trunc => "trunc"
  | .sitofp => "sitofp"
  | .fpext => "fpext"
  | .fptrunc => "fptrunc"
  | .bitcast => "bitcast"

namespace Store

def calleeText (s : Store) (callee : Operand) (ret : Ty) : Text :=
  match s.tyOf callee with
  | .ptr (.func r ps true) => s.tyText (.func r ps true)
  | _ => s.tyText ret

def bodyOf (s : Store) (i : InstInfo) : Text :=
  let two (x y : Operand) : Text := s.operandText x ++ ", " ++ s.identText y
  match i.inst with
  | .alloca elem => "alloca " ++ s.tyText elem
  | .load elem src => "load " ++ s.tyText elem ++ ", " ++ s.operandText src
  | .store src dst => "store " ++ s.operandText src ++ ", " ++ s.operandText dst
  | .int op x y => op.name ++ " " ++ two x y
  | .float op x y => op.name ++ " " ++ two x y
  | .fneg x => "fneg " ++ s.operandText x
  | .icmp c x y => "icmp " ++ c.intName ++ " " ++ two x y
  | .fcmp c x y => "fcmp " ++ c.floatName ++ " " ++ two x y
  | .cast c x target => c.name ++ " " ++ s.operandText x ++ " to " ++ s.tyText target
  | .phi edges =>
    "phi " ++ s.tyText i.ty ++ " " ++ Text.join ", " (edges.map fun (v, b) =>
      "[ " ++ s.identText v ++ ", " ++ s.identText (.block b) ++ " ]")
  | .call callee args =>
    "call " ++ s.calleeText callee i.ty ++ " " ++ s.identText callee ++ "("
      ++ Text.join ", " (args.map s.operandText) ++ ")"

def hasResult (i : InstInfo) : Bool :=
  match i.inst with
  | .store .. => false
  | .call .. => i.ty != .void
  | _ => true

/-- Whether the result of an instruction takes a number when it has no name. Those of type void do
not: without a name they are all written as number 0. -/
def isNumbered (i : InstInfo) : Bool := i.ty != .void

def instText (s : Store) (i : InstInfo) : Text :=
  if hasResult i then "%" ++ i.ident.written ++ " = " ++ s.bodyOf i else s.bodyOf i

def terminatorText (s : Store) : Terminator → Text
  | .ret none => "ret void"
  | .ret (some v) => "ret " ++ s.operandText v
  | .br t => "br " ++ s.labelText t
  | .condBr c a b => "br " ++ s.operandText c ++ ", " ++ s.labelText a ++ ", " ++ s.labelText b

def blockLines (s : Store) (b : BlockInfo) : List Text :=
  (b.ident.written ++ ":")
    :: (b.insts.toList.filterMap s.inst?).map fun i => "\t" ++ s.instText i

def blockText (s : Store) (b : BlockInfo) : Except Text Text :=
  match b.ending with
  | some e => .ok (Text.lines (s.blockLines b ++ ["\t" ++ s.terminatorText e.terminator]))
  | none => .error ("missing terminator in basic block " ++ b.ident.spoken.quoted
      ++ ".\ncurrent instructions:\n" ++ Text.lines (s.blockLines b) ++ "\n")

def headerText (s : Store) (f : FuncInfo) : Text :=
  let params := f.params.toList.map fun p => s.tyText p.ty ++ " %" ++ p.ident.written
  s.tyText f.ret ++ " @" ++ f.ident.written ++ "(" ++ Text.join ", " (params ++ dots f.variadic)
    ++ ")"

def funcText (s : Store) (f : FuncInfo) : Except Text Text := do
  if f.blocks.isEmpty then pure ("declare " ++ s.headerText f)
  else
    let blocks ← (f.blocks.toList.filterMap s.block?).mapM s.blockText
    pure ("define " ++ s.headerText f ++ " \x7b\n" ++ Text.join "\n\n" blocks ++ "\n\x7d")

def structText (s : Store) (h : Handle) : Text :=
  match s.struct? h with
  | none => []
  | some i =>
    s.tyText (.struct h) ++ " = type "
      ++ bodyText (s.spellTy (s.unnamedText s.entries.size)) i

def globalText (s : Store) (index : Nat) (t : Text) : Text :=
  "@" ++ Spelling.valueName (textName index) ++ " = constant " ++ s.tyText (textTy t) ++ " c"
    ++ Spelling.quoted (t ++ [0])

end Store

/-- A local that gets a number when it has no name. -/
inductive Local where
  | param (index : Nat)
  | block (handle : Handle)
  | inst (handle : Handle)

namespace Emit

def localsOf (s : Store) (f : FuncInfo) : List Local :=
  (List.range f.params.size).map .param
    ++ f.blocks.toList.flatMap fun b =>
      .block b :: ((s.block? b).elim [] fun info =>
        (info.insts.toList.filter fun i => (s.inst? i).any Store.isNumbered).map .inst)

def identOf (s : Store) (func : Handle) : Local → Ident
  | .param i => ((s.func? func).bind (·.params[i]?)).elim {} ParamInfo.ident
  | .block h => (s.block? h).elim {} BlockInfo.ident
  | .inst h => (s.inst? h).elim {} InstInfo.ident

def setIdent (s : Store) (func : Handle) (ident : Ident) : Local → Store
  | .param i =>
    (s.func? func).elim s fun f =>
      s.setFunc func { f with params := f.params.modify i ({ · with ident }) }
  | .block h => (s.block? h).elim s fun b => s.setBlock h { b with ident }
  | .inst h => (s.inst? h).elim s fun i => s.setInst h { i with ident }

def numberLocals (func : Handle) : Nat → List Local → Emit (Except Text Unit)
  | _, [] => pure (.ok ())
  | next, l :: rest => do
    let ident := identOf (← get) func l
    if !ident.isUnnamed then numberLocals func next rest
    else if ident.number ≠ 0 && ident.number ≠ next then
      let name : Text := "@" ++ ((← get).func? func).elim [] (·.ident.written)
      pure (.error ("unable to assign IDs of function " ++ name.quoted
        ++ "; invalid local ID in function " ++ name.quoted ++ ", expected %"
        ++ Text.ofNat next ++ ", got %" ++ Text.ofNat ident.number))
    else
      modify fun s => setIdent s func { ident with number := next } l
      numberLocals func (next + 1) rest

def funcTexts : List Handle → Emit (Except Text (List Text))
  | [] => pure (.ok [])
  | h :: rest => do
    match (← get).func? h with
    | none => funcTexts rest
    | some f =>
      match ← numberLocals h 0 (localsOf (← get) f) with
      | .error e => pure (.error e)
      | .ok () =>
        let s ← get
        match (s.func? h).elim (.ok []) s.funcText with
        | .error e => pure (.error e)
        | .ok t =>
          match ← funcTexts rest with
          | .error e => pure (.error e)
          | .ok ts => pure (.ok (t :: ts))

/-- Numbers the functions without a name from `next` on. A number given by an earlier print must
still be the one due. -/
def numberFuncs : Nat → List Handle → Emit (Except Text Unit)
  | _, [] => pure (.ok ())
  | next, h :: rest => do
    match (← get).func? h with
    | none => numberFuncs next rest
    | some f =>
      if !f.ident.isUnnamed then numberFuncs next rest
      else if f.ident.number ≠ 0 && f.ident.number ≠ next then
        pure (.error ("unable to assign globals IDs of module; invalid global ID, expected @"
          ++ Text.ofNat next ++ ", got @" ++ Text.ofNat f.ident.number))
      else
        modify (·.setFunc h { f with ident := { f.ident with number := next } })
        numberFuncs (next + 1) rest

def preamble (s : Store) (m : ModuleInfo) : List Text :=
  let structs := m.structs.toList.map s.structText
  let globals := m.texts.toList.zipIdx.map fun (t, i) => s.globalText i t
  ["source_filename = " ++ Spelling.quoted m.name]
    ++ (if structs.isEmpty then [] else [Text.lines structs])
    ++ (if globals.isEmpty then [] else [Text.lines globals])

def dumpModule (module : Handle) : Emit Text := do
  match (← get).module? module with
  | none => pure ("; " ++ (Refusal.notModule module).message ++ "\n")
  | some m =>
    if m.dropped then pure ("; " ++ (Refusal.dropped m.name).message ++ "\n")
    else
      let funcs ← match ← numberFuncs 0 m.funcs.toList with
        | .ok () => funcTexts m.funcs.toList
        | .error e => pure (.error e)
      match funcs with
      | .error e => pure ("; module " ++ m.name.quoted ++ " cannot be printed: " ++ e ++ "\n")
      | .ok funcs => pure (Text.join "\n\n" (preamble (← get) m ++ funcs) ++ "\n")

end Emit

end Arbor.IR
