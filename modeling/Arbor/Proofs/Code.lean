import Arbor.Lower.Decls
import Mathlib

/-! The code of a store: its blocks, instructions and functions without names, types and other
things that do not change what a program does. Building a program is a sequence of five changes of
the code. -/

namespace Arbor.IR

variable {h : Handle}

/-- A block: its function, its instructions in order and how it ends. -/
structure BlockCode where
  func : Handle
  insts : List Handle := []
  ending : Option Terminator := none

/-- A function: where it is, what it takes and gives, and its blocks in order. -/
structure FuncCode where
  module : Handle
  ret : Ty
  params : List Ty
  variadic : Bool
  blocks : List Handle := []

namespace FuncCode

def signature (f : FuncCode) : Ty := .func f.ret f.params f.variadic

end FuncCode

@[ext] structure Code where
  blocks : Handle → Option BlockCode
  insts : Handle → Option (Inst × Ty)
  funcs : Handle → Option FuncCode
  active : Option Handle
  violations : Array Violation

namespace BlockInfo

def code (b : BlockInfo) : BlockCode :=
  { func := b.func, insts := b.insts.toList, ending := b.ending.map Ending.terminator }

end BlockInfo

namespace FuncInfo

def code (f : FuncInfo) : FuncCode :=
  { module := f.module, ret := f.ret, params := f.params.toList.map ParamInfo.ty,
    variadic := f.variadic, blocks := f.blocks.toList }

lemma code_signature (f : FuncInfo) : f.code.signature = f.signature := rfl

end FuncInfo

namespace Store

def code (s : Store) : Code where
  blocks h := (s.block? h).map BlockInfo.code
  insts h := (s.inst? h).map fun i => (i.inst, i.ty)
  funcs h := (s.func? h).map FuncInfo.code
  active := s.active
  violations := s.violations

end Store

namespace Code

def tyOf (c : Code) : Operand → Ty
  | .const k => k.ty
  | .param f i => ((c.funcs f).bind (·.params[i]?)).getD .void
  | .func h => (c.funcs h).elim .void fun f => .ptr f.signature
  | .inst h => (c.insts h).elim .void Prod.snd
  | .block _ => .label

/-- The type that a value is asked for by: a function's is its function type. -/
def valueTy (c : Code) : Operand → Ty
  | .func h => (c.funcs h).elim .void FuncCode.signature
  | v => c.tyOf v

structure Cursor (c : Code) (b : Handle) (B : BlockCode) : Prop where
  active : c.active = some b
  block : c.blocks b = some B
  opened : B.ending = none

/-- An instruction is put at the end of the active block. -/
structure Emits (c : Code) (h : Handle) (i : Inst) (t : Ty) (c' : Code) : Prop where
  cursor : ∃ b B, c.Cursor b B ∧
    c' = { c with insts := Function.update c.insts h (some (i, t)),
                  blocks := Function.update c.blocks b (some { B with insts := B.insts ++ [h] }) }
  freshInst : c.insts h = none
  freshBlock : c.blocks h = none

def Ends (c : Code) (t : Terminator) (c' : Code) : Prop :=
  ∃ b B, c.Cursor b B ∧
    c' = { c with blocks := Function.update c.blocks b (some { B with ending := some t }) }

structure Opens (c : Code) (h : Handle) (f : Handle) (c' : Code) : Prop where
  added : ∃ F, c.funcs f = some F ∧
    c' = { c with blocks := Function.update c.blocks h (some { func := f }),
                  funcs := Function.update c.funcs f (some { F with blocks := F.blocks ++ [h] }) }
  freshInst : c.insts h = none
  freshBlock : c.blocks h = none

structure Declares (c : Code) (h : Handle) (F : FuncCode) (c' : Code) : Prop where
  added : c' = { c with funcs := Function.update c.funcs h (some F) }
  fresh : c.funcs h = none
  bodiless : F.blocks = []

structure Adds (c c' : Code) : Prop where
  blocks : c'.blocks = c.blocks
  insts : c'.insts = c.insts
  active : c'.active = c.active
  violations : c'.violations = c.violations
  funcs : ∀ h F, c.funcs h = some F → c'.funcs h = some F
  bare : ∀ h F, c'.funcs h = some F → c.funcs h = some F ∨ F.blocks = []

lemma Adds.refl (c : Code) : c.Adds c := ⟨rfl, rfl, rfl, rfl, fun _ _ => id, fun _ _ => .inl⟩

lemma Adds.trans {c : Code} (h : c.Adds c1) (k : c1.Adds c') : c.Adds c' :=
  ⟨k.blocks.trans h.blocks, k.insts.trans h.insts, k.active.trans h.active, k.violations.trans h.violations,
    fun g F hF => k.funcs g F (h.funcs g F hF), fun g F hF => (k.bare g F hF).elim (h.bare g F) .inr⟩

lemma Declares.adds {c : Code} (e : c.Declares h F c') : c.Adds c' := by
  obtain ⟨rfl, hfresh, hblocks⟩ := e
  refine ⟨rfl, rfl, rfl, rfl, fun g G hG => (Function.update_of_ne ?_ ..).trans hG, fun g G hG => ?_⟩
  · rintro rfl
    cases hfresh.symm.trans hG
  · by_cases hg : g = h
    · subst hg
      simp only [Function.update_self] at hG
      cases hG
      exact .inr hblocks
    · simp only [Function.update_of_ne hg] at hG
      exact .inl hG

def move (c : Code) (b : Option Handle) : Code := { c with active := b }

namespace Emits

variable {c c' : Code} {h : Handle} {i : Inst} {t : Ty}

section

variable (e : c.Emits h i t c')

include e

lemma inst_self : c'.insts h = some (i, t) := by
  obtain ⟨b, B, -, rfl⟩ := e.cursor
  exact Function.update_self ..

lemma inst_of_ne (hg : g ≠ h) : c'.insts g = c.insts g := by
  obtain ⟨b, B, -, rfl⟩ := e.cursor
  exact Function.update_of_ne hg ..

lemma inst_mono (hg : c.insts g = some x) : c'.insts g = some x := by
  rw [e.inst_of_ne, hg]
  rintro rfl
  rw [e.freshInst] at hg
  cases hg

lemma funcs_eq : c'.funcs = c.funcs := by
  obtain ⟨b, B, -, rfl⟩ := e.cursor
  rfl

lemma active_eq : c'.active = c.active := by
  obtain ⟨b, B, -, rfl⟩ := e.cursor
  rfl

lemma tyOf_self : c'.tyOf (.inst h) = t := by
  simp only [tyOf, e.inst_self, Option.elim_some]

end

end Emits

end Code

namespace Store

variable {s : Store}

lemma entry_push (s : Store) (e) (h) :
    (s.push e).2.entry h = if h = s.entries.size then e else s.entry h := by
  simp only [push, entry, Array.getD_eq_getD_getElem?, Array.getElem?_push]
  split <;> simp_all

lemma entry_setIfInBounds (s : Store) (k) (e) (h) :
    ({ s with entries := s.entries.setIfInBounds k e } : Store).entry h =
      if h = k ∧ k < s.entries.size then e else s.entry h := by
  simp only [entry, Array.getD_eq_getD_getElem?]
  grind

lemma entry_of_size_le (hh : s.entries.size ≤ h) : s.entry h = .reserved := by
  simp only [entry, Array.getD_eq_getD_getElem?, Array.getElem?_eq_none hh, Option.getD_none]

lemma lt_size_of_entry_ne (hh : s.entry h ≠ .reserved) : h < s.entries.size := by
  by_contra hlt
  exact hh (entry_of_size_le (Nat.le_of_not_lt hlt))

lemma block?_eq_some : s.block? h = some b ↔ s.entry h = .block b := by
  unfold block?
  split <;> simp_all

lemma inst?_eq_some : s.inst? h = some i ↔ s.entry h = .inst i := by
  unfold inst?
  split <;> simp_all

lemma func?_eq_some : s.func? h = some f ↔ s.entry h = .func f := by
  unfold func?
  split <;> simp_all

lemma module?_eq_some : s.module? h = some m ↔ s.entry h = .module m := by
  unfold module?
  split <;> simp_all

lemma struct?_eq_some : s.struct? h = some i ↔ s.entry h = .struct i := by
  unfold struct?
  split <;> simp_all

lemma tyOf_eq_code (s : Store) (v) : s.tyOf v = s.code.tyOf v := by
  cases v with
  | const c => rfl
  | param f i =>
    simp only [tyOf, Code.tyOf, code]
    cases s.func? f with
    | none => rfl
    | some F => cases h : F.params[i]? <;> simp [FuncInfo.code, h]
  | func h =>
    simp only [tyOf, Code.tyOf, code]
    cases s.func? h <;> rfl
  | inst h =>
    simp only [tyOf, Code.tyOf, code]
    cases s.inst? h <;> rfl
  | block h => rfl

end Store

end Arbor.IR
