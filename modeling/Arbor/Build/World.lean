import Arbor.Diag.Bag
import Arbor.Files.Basic
import Arbor.IR.Printer
import Arbor.Text.Compose
import Arbor.Trace.Event

/-! The state in which modules are built: the store, what each module knows about its types, values
and names, the registry of loaded modules, diagnostics and the trace. -/

namespace Arbor.Build

open IR Diag

/-- A type as one module sees it. -/
structure TypeId where
  module : Handle
  handle : Handle
deriving DecidableEq

/-- A value as one module sees it. -/
structure ValueId where
  module : Handle
  handle : Handle
deriving DecidableEq

structure BlockId where
  module : Handle
  handle : Handle
deriving DecidableEq

/-- A struct field. Its value is the default; a function member has its function there. -/
structure Member where
  name : Text
  type : TypeId
  value : Option ValueId := none
deriving DecidableEq

/-- What a module knows about a type: the name and kind it had when first seen, what it points to
if the module made the pointer, and the members of a struct. -/
structure TypeView where
  name : Text
  kind : Kind
  elem : Option TypeId := none
  members : Array Member := #[]
  places : Std.HashMap Text Nat := {}

/-- A named binding. Type symbols have only a type, value symbols a value with its type. -/
structure Symbol where
  name : Text
  type : Option TypeId := none
  value : Option ValueId := none
deriving DecidableEq

/-- Symbols by name and in the order in which they were bound. -/
structure SymbolTable where
  index : Std.HashMap Text Symbol
  order : Array Symbol
  agree : ∀ name : Text, index[name]? = order.find? fun sym => sym.name = name

namespace SymbolTable

def empty : SymbolTable := { index := {}, order := #[], agree := fun name => by simp }

def get? (t : SymbolTable) (name : Text) : Option Symbol := t.index[name]?

def add (t : SymbolTable) (sym : Symbol) : Bool × SymbolTable :=
  match h : t.index[sym.name]? with
  | some _ => (false, t)
  | none =>
    (true, {
      index := t.index.insert sym.name sym
      order := t.order.push sym
      agree := fun name => by
        rw [Std.HashMap.getElem?_insert, Array.find?_push, ← t.agree]
        by_cases heq : sym.name = name
        · simp [heq, heq ▸ h]
        · simp [heq] })

def find? (t : SymbolTable) (p : Symbol → Bool) : Option Symbol := t.order.find? p

end SymbolTable

abbrev ScopeId := Nat

structure Scope where
  parent : ScopeId := 0
  children : Array ScopeId := #[]
  func : Option ValueId := none
  types : SymbolTable := .empty
  values : SymbolTable := .empty

/-- All scopes of a module; the first place is not used. -/
structure Scopes where
  data : Array Scope := #[{}]

def rootScope : ScopeId := 1
def importScope : ScopeId := 2
def exportScope : ScopeId := 3

/-- Where `break` and `continue` go. -/
structure LoopTargets where
  leave : BlockId
  next : BlockId

/-- A module under construction or finished. -/
structure Module where
  name : Text
  scopes : Scopes
  current : ScopeId := rootScope
  deps : List Text := []
  types : Std.HashMap Handle TypeView := {}
  values : Std.HashMap Handle (Option TypeId) := {}
  /-- The blocks seen so far with the names asked for. -/
  blocks : Std.HashMap Handle Text := {}
  loop : Option LoopTargets := none
  /-- The trace span that the module was created under. -/
  span : Nat := 0

/-- Everything that building changes. `user` belongs to whoever drives the build. -/
structure World (σ : Type) where
  store : Store := .initial
  /-- Modules by the handle of their part of the store. -/
  modules : Std.HashMap Handle Module := {}
  registry : List (Text × Handle) := []
  trace : Trace.Recorder := {}
  diags : Bag := {}
  loading : Nat := 0
  output : List Text := []
  /-- How many instructions a program may execute. -/
  maxSteps : Nat := 50000000
  files : Files := {}
  outDir : Text := []
  user : σ

/-- How an action ends early. Only faults are errors of the program being built. -/
inductive Failure where
  | fault (f : Fault)
  | missing
  /-- A type contains itself in a way that cannot be followed to an end. -/
  | endless

abbrev Act (σ : Type) := EStateM Failure (World σ)

variable {σ : Type}

namespace World

def printed (w : World σ) : Text := w.output.reverse.flatten

end World

namespace Act

def raise {α : Type} (f : Fault) : Act σ α := throw (.fault f)

def attempt {α : Type} (a : Act σ α) : Act σ (Except Fault α) := do
  try
    let x ← a
    pure (.ok x)
  catch
    | .fault f => pure (.error f)
    | e => throw e

/-- Runs `after` however the action ends. A fault of `after` counts only if the action itself had none. -/
def ensuring {α : Type} (a : Act σ α) (after : Act σ Unit) : Act σ α := do
  let x ←
    try a
    catch e =>
      let _ ← attempt after
      throw e
  after
  pure x

def need {α : Type} : Option α → Act σ α
  | some x => pure x
  | none => throw .missing

def module (m : Handle) : Act σ Module := do need (← get).modules[m]?

def update (m : Handle) (f : Module → Module) : Act σ Unit :=
  modify fun w => { w with modules := w.modules.modify m f }

def store : Act σ Store := do pure (← get).store

def emit {α : Type} (e : Emit α) : Act σ (Except Refusal α) :=
  modifyGet fun w =>
    let s := w.store
    let w := { w with store := .initial }
    match e s with
    | .ok x s => (.ok x, { w with store := s })
    | .error r s => (.error r, { w with store := s })

def emitQuiet (e : Emit Handle) : Act σ Handle := do
  match ← emit e with
  | .ok h => pure h
  | .error _ => pure noHandle

def traceError (scope : Trace.Scope) (name detail : Text) (parent : Nat) : Act σ Unit :=
  modify fun w => { w with trace := w.trace.error scope name detail parent }

def beginSpan (scope : Trace.Scope) (module name : Text) (parent : Nat) : Act σ Trace.Span :=
  modifyGet fun w =>
    let (s, trace) := w.trace.beginSpan scope module name parent
    (s, { w with trace })

def endSpan (s : Trace.Span) (detail : Text) : Act σ Unit :=
  modify fun w => { w with trace := w.trace.endSpan s detail }

def report (m : Handle) (f : Fault) : Act σ Unit := do
  let info ← module m
  traceError .node info.name f.text info.span

def fail {α : Type} (m : Handle) (code : Code) (message : Text) : Act σ α := do
  let f := Fault.error code message
  report m f
  raise f

def backend {α : Type} (m : Handle) (message : Text) (e : Emit α) : Act σ α := do
  match ← emit e with
  | .ok x => pure x
  | .error r =>
    let f := Fault.wrap .backend (.plain r.message) message
    report m f
    raise f

end Act

end Arbor.Build
