import Arbor.Proofs.Appending
import Arbor.Proofs.ControlFlow

/-! Sessions with the backend: any operations in any order, from the store that everything starts from.
Whether they succeed or are refused, each leaves a coherent store. -/

namespace Arbor.IR

open Proofs Store

/-- The operations of the backend that may change its store. -/
inductive Command where
  | makeModule (name : Text)
  | dropModule (module : Handle)
  | dumpModule (module : Handle)
  | pointer (elem : Handle)
  | func (ret : Handle) (params : List Handle) (variadic : Bool)
  | struct (module : Handle) (name : Text)
  | setStructBody (type : Handle) (fields : List Handle)
  | typeSize (type : Handle)
  | funcRetType (type : Handle)
  | funcArgType (type : Handle) (index : Nat)
  | valueType (value : Handle)
  | setValueName (value : Handle) (name : Text)
  | defaultValue (type : Handle)
  | int (value : UInt64) (bits : Nat)
  | float (bits : UInt64)
  | boolConst (value : Bool)
  | text (module : Handle) (value : Text)
  | declareFunc (module : Handle) (name : Text) (type : Handle)
  | funcArg (func : Handle) (index : Nat)
  | createBlock (func : Handle) (name : Text)
  | setActiveBlock (block : Handle)
  | alloc (type : Handle) (name : Text)
  | load (ptr : Handle)
  | store (ptr value : Handle)
  | bitcast (value type : Handle)
  | coerce (value type : Handle)
  | ptrVal (value : Handle)
  | ptrRef (value : Handle)
  | unary (op : Op) (value : Handle)
  | binary (op : Op) (left right : Handle)
  | jump (target : Handle)
  | jumpCond (cond yes no : Handle)
  | phi (type : Handle) (incoming : List (Handle × Handle))
  | call (func : Handle) (args : List Handle)
  | ret (value : Handle)

namespace Command

def perform : Command → Emit Unit
  | .makeModule name => discard (Emit.makeModule name)
  | .dropModule module => Emit.dropModule module
  | .dumpModule module => discard (Emit.dumpModule module)
  | .pointer elem => discard (Emit.pointer elem)
  | .func result params variadic => discard (Emit.func result params variadic)
  | .struct module name => discard (Emit.struct module name)
  | .setStructBody type fields => Emit.setStructBody type fields
  | .typeSize type => discard (Emit.typeSize type)
  | .funcRetType type => discard (Emit.funcRetType type)
  | .funcArgType type index => discard (Emit.funcArgType type index)
  | .valueType value => discard (Emit.valueType value)
  | .setValueName value name => Emit.setValueName value name
  | .defaultValue type => discard (Emit.defaultValue type)
  | .int value bits => discard (Emit.int value bits)
  | .float bits => discard (Emit.float bits)
  | .boolConst value => discard (Emit.boolConst value)
  | .text module value => discard (Emit.text module value)
  | .declareFunc module name type => discard (Emit.declareFunc module name type)
  | .funcArg f index => discard (Emit.funcArg f index)
  | .createBlock f name => discard (Emit.createBlock f name)
  | .setActiveBlock block => Emit.setActiveBlock block
  | .alloc type name => discard (Emit.alloc type name)
  | .load ptr => discard (Emit.load ptr)
  | .store ptr value => discard (Emit.store ptr value)
  | .bitcast value type => discard (Emit.bitcast value type)
  | .coerce value type => discard (Emit.coerce value type)
  | .ptrVal value => discard (Emit.ptrVal value)
  | .ptrRef value => discard (Emit.ptrRef value)
  | .unary op value => discard (Emit.unary op value)
  | .binary op left right => discard (Emit.binary op left right)
  | .jump target => discard (Emit.jump target)
  | .jumpCond cond yes no => discard (Emit.jumpCond cond yes no)
  | .phi type incoming => discard (Emit.phi type incoming)
  | .call f args => discard (Emit.call f args)
  | .ret value => discard (Emit.ret value)

def Rewrites : Command → Handle → Prop
  | .setStructBody type _, h => h = type
  | _, _ => False

def step (s : Store) (c : Command) : Store := endState (c.perform s)

def run (s : Store) (cs : List Command) : Store := cs.foldl step s

lemma discarded {a : Emit α} (h : Along R s a) : Along R s (discard a) :=
  Along.map h

open Emit in
lemma perform_moves (hs : s.Coherent) (c : Command) : Along (Moves c.Rewrites) s c.perform := by
  cases c with
  | makeModule name =>
    refine discarded (.ite (fun _ => .throw) fun _ => ?_)
    exact along_any ((push_moves (fun _ _ _ => by trivial) (by simp)).weaken fun _ p => p.toMoves)
  | dropModule module => exact dropModule_moves module
  | dumpModule module => exact discarded (dumpModule_moves module)
  | pointer elem => exact discarded (pointer_moves hs elem)
  | func ret params variadic => exact discarded (func_moves hs ret params variadic)
  | struct module name =>
    refine discarded (.bind (moduleOf_along module) ?_)
    rintro m s' - ⟨rfl, hm, -⟩
    refine .bind ((push_moves (fun _ _ _ => by trivial) (by simp)).weaken fun _ p => p.toMoves) ?_
    rintro h s1 - ⟨-, rfl⟩
    refine modify_pure (prepares_setModule (module?_push _ hm) (by rfl) ?_).toMoves
    exact id
  | setStructBody type fields => exact setStructBody_moves type fields
  | typeSize type =>
    refine discarded (.look (typeOf_along type) fun t _ => ?_)
    rw [along_get_bind]
    cases s.extent t with
    | ok x => exact int_moves hs _ _
    | error e => exact refl_of _ s
  | funcRetType type => exact discarded (funcRetType_moves hs type)
  | funcArgType type index => exact discarded (funcArgType_moves hs type index)
  | valueType value => exact discarded (along_any (valueType_yields hs value).moves)
  | setValueName value name => exact setValueName_moves value name
  | defaultValue type => exact discarded (defaultValue_moves hs type)
  | int value bits => exact discarded (int_moves hs value bits)
  | float bits => exact discarded (constant_moves hs (.float .double))
  | boolConst value => exact discarded (boolConst_moves hs value)
  | text module value => exact discarded (text_moves module value)
  | declareFunc module name type => exact discarded (declareFunc_moves hs module name type)
  | funcArg func index =>
    refine discarded (.look (funcOf_along func) fun f _ => .ite (fun _ => ?_) fun _ => .throw)
    exact valueHandle_moves (fun _ _ _ => trivial) (by simp)
  | createBlock func name => exact discarded (createBlock_moves func name)
  | setActiveBlock block =>
    refine .ite (fun _ => .modify (moves_beside rfl rfl List.prefix_rfl) trivial) fun _ => ?_
    exact .bind (blockOf_along block) fun _ _ _ _ => .modify (moves_beside rfl rfl List.prefix_rfl) trivial
  | alloc type name => exact discarded (alloc_moves hs type name)
  | load ptr => exact discarded (load_moves hs ptr)
  | store ptr value => exact discarded (store_moves hs ptr value)
  | bitcast value type =>
    refine discarded (.look (operandOf_along value) fun v _ => .look (typeOf_along type) fun t ht => ?_)
    refine .look cursor_moves fun block hopen => ?_
    exact along_any (append_moves hopen (hs.admits_of_type? ht) (by simp) (by simp))
  | coerce value type => exact discarded (coerce_moves hs value type)
  | ptrVal value =>
    refine discarded (.look (operandOf_along value) fun v _ => ?_)
    cases v with
    | inst h =>
      rw [along_get_bind]
      split
      · exact load_moves hs value
      · exact .pure trivial
    | _ => exact .pure trivial
  | ptrRef value => exact discarded (ptrRef_moves hs value)
  | unary op value => exact discarded (along_any (unary_moves hs op value))
  | binary op left right => exact discarded (binary_moves hs op left right)
  | jump target =>
    refine discarded (.look (blockOf_along target) fun b _ => .look cursor_moves fun block hopen => ?_)
    exact terminate_moves hopen _
  | jumpCond cond yes no => exact discarded (jumpCond_moves hs cond yes no)
  | phi type incoming => exact discarded (phi_moves hs type incoming)
  | call func args => exact discarded (call_moves hs func args)
  | ret value =>
    refine discarded (.look cursor_moves fun block hopen => ?_)
    rw [along_get_bind]
    refine .ite (fun _ => .ite (fun _ => .throw) fun _ => terminate_moves hopen _) fun _ => ?_
    refine .look (operandOf_along value) fun v _ => ?_
    exact .ite (fun _ => .throw) fun _ => terminate_moves hopen _

lemma step_moves (hs : s.Coherent) (c) : Moves c.Rewrites s (step s c) := (perform_moves hs c).endState

lemma run_moves (cs) : ∀ {s : Store}, s.Coherent → Moves (fun h => ∃ c ∈ cs, c.Rewrites h) s (run s cs) := by
  induction cs with
  | nil => exact fun _ => refl_of _ _
  | cons c cs ih =>
    intro s hs
    have m := step_moves hs c
    have m' := ih (m.coherent hs)
    -- What one operation may replace is among what the session may replace.
    have hhead := m.toEvolves.mono (C := fun h => ∃ d ∈ c :: cs, d.Rewrites h) fun h hh => ⟨c, by simp, hh⟩
    have htail := m'.toEvolves.mono (C := fun h => ∃ d ∈ c :: cs, d.Rewrites h) fun h ⟨d, hd, hh⟩ => ⟨d, by simp [hd], hh⟩
    exact ⟨hhead.trans htail, m'.coherent ∘ m.coherent⟩

lemma run_append (s cs ds) : run s (cs ++ ds) = run (run s cs) ds := List.foldl_append

end Command

lemma Store.type?_primitive (p) (hp : p ∈ primitiveHandles) : Store.initial.type? p.2 = some p.1.2 :=
  type?_of_entry (Build.entry_primitive p hp).1

lemma Store.initial_coherent : Store.initial.Coherent where
  reserved := rfl
  size_pos := by decide
  types := Build.initial_wf.types
  entries h := by
    rcases Build.entry_initial h with hentry | ⟨p, hmem, hentry⟩
    · rw [hentry]
      trivial
    · have hformed : ∀ q ∈ Store.primitives, q.2.Formed := by simp [Store.primitives, Ty.Formed]
      have hok := Build.initial_wf.entries h
      rw [hentry] at hok ⊢
      exact ⟨hok.1, hformed _ (List.fst_mem_of_mem_zipIdx hmem), hok.2⟩

lemma Command.run_coherent (cs) : (run .initial cs).Coherent :=
  (run_moves cs initial_coherent).coherent initial_coherent

end Arbor.IR
