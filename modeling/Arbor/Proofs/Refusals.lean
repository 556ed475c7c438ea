import Arbor.Proofs.Frozen
import Arbor.Proofs.Recorded

/-! Operations that are refused. An operation looks at all that it was given before it adds anything, so that
whatever modules hold is as it was when it is refused. A call is the exception: it declares the function of another
module before it looks at the arguments. -/

namespace Arbor.IR

open Proofs Store

section Runs

variable {ε τ α β : Type} {a : EStateM ε τ α} {f : α → EStateM ε τ β} {s s' : τ}

lemma bind_of_error (h : a s = .error e s') : (a >>= f) s = .error e s' := by
  change EStateM.bind a f s = _
  rw [EStateM.bind, h]

lemma error_of_bind (h : (a >>= f) s = .error e s') :
    a s = .error e s' ∨ ∃ x s₁, a s = .ok x s₁ ∧ f x s₁ = .error e s' := by
  cases hx : a s with
  | ok x s₁ => exact .inr ⟨x, s₁, rfl, (bind_of_ok hx).symm.trans h⟩
  | error e' s₁ =>
    cases (bind_of_error hx).symm.trans h
    exact .inl rfl

lemma cases_of_along (h : Along Eq s a Q) : (∃ e, a s = .error e s) ∨ ∃ x, Q x s ∧ a s = .ok x s := by
  unfold Along at h
  cases hx : a s with
  | ok x s' =>
    rw [hx] at h
    obtain ⟨rfl, hq⟩ := h
    exact .inr ⟨x, hq, rfl⟩
  | error e s' =>
    rw [hx] at h
    exact .inl ⟨e, h ▸ rfl⟩

end Runs

namespace Store

variable {s s' : Store}

lemma SameCode.refl (s : Store) : s.SameCode s :=
  ⟨fun _ => rfl, fun _ => rfl, fun _ => rfl, fun _ => rfl, fun _ => rfl, fun _ => rfl⟩

lemma SameCode.trans (c : s.SameCode s₁) (d : s₁.SameCode s') : s.SameCode s' where
  modules h := (d.modules h).trans (c.modules h)
  structs h := (d.structs h).trans (c.structs h)
  funcs h := (d.funcs h).trans (c.funcs h)
  blocks h := (d.blocks h).trans (c.blocks h)
  insts h := (d.insts h).trans (c.insts h)
  operands h := (d.operands h).trans (c.operands h)

instance : IsPreorder Store SameCode where
  refl := .refl
  trans _ _ _ := .trans

lemma sameCode_push_type (s : Store) (t) (types) :
    s.SameCode { (s.push (.type t)).2 with types } := by
  have hentry : ∀ k, ({ (s.push (.type t)).2 with types } : Store).entry k = s.entry k ∨
      s.entry k = .reserved ∧ ({ (s.push (.type t)).2 with types } : Store).entry k = .type t := by
    intro k
    change (s.push (.type t)).2.entry k = _ ∨ _ ∧ (s.push (.type t)).2.entry k = _
    rw [entry_push]
    by_cases hk : k = s.entries.size
    · exact .inr ⟨entry_of_size_le hk.ge, if_pos hk⟩
    · exact .inl (if_neg hk)
  constructor
  all_goals
    intro k
    rcases hentry k with h | ⟨h, h'⟩
    · simp only [module?, struct?, func?, block?, inst?, operand?, h]
    · simp only [module?, struct?, func?, block?, inst?, operand?, h, h']

lemma entry_push_setModule (hm : s.module? m = some M) (e N)
    (k) : ((s.push e).2.setModule m N).entry k =
      if k = m then .module N else if k = s.entries.size then e else s.entry k := by
  have hlt : m < s.entries.size := lt_size_of_entry_ne fun hr => by simp [module?_eq_some.1 hm] at hr
  rw [setModule, entry_setIfInBounds, entry_push]
  simp only [push]
  by_cases hk : k = m
  · simp [Nat.lt_succ_of_lt hlt]
  · simp [hk]

end Store

def FuncInfo.externIn (f : FuncInfo) (module : Handle) : FuncInfo :=
  Emit.bodiless module f.ident.spoken f.ret (f.params.toList.map ParamInfo.ty) f.variadic

/-- All that differs is that a module has got a declaration of the function `f`. -/
structure Store.GainsExtern (s : Store) (m : Handle) (f : FuncInfo) (s' : Store) : Prop where
  added : ∃ h M, s.entry h = .reserved ∧ s.module? m = some M ∧ M.declared.lookup f.ident.spoken = none ∧
    s'.func? h = some (f.externIn m) ∧
    s'.module? m = some { M with funcs := M.funcs.push h, declared := M.declared ++ [(f.ident.spoken, h)] } ∧
    ∀ k, k ≠ h → s'.func? k = s.func? k ∧ s'.operand? k = s.operand? k
  modules : ∀ k, k ≠ m → s'.module? k = s.module? k
  structs : ∀ k, s'.struct? k = s.struct? k
  blocks : ∀ k, s'.block? k = s.block? k
  insts : ∀ k, s'.inst? k = s.inst? k

lemma Store.GainsExtern.trans {s s' : Store} (g : s.GainsExtern m f s₁) (c : s₁.SameCode s') :
    s.GainsExtern m f s' := by
  obtain ⟨h, M, hnew, hM, hnone, hf, hm, hrest⟩ := g.added
  refine ⟨⟨h, M, hnew, hM, hnone, (c.funcs h).trans hf, (c.modules m).trans hm, fun k hk => ?_⟩,
    fun k hk => (c.modules k).trans (g.modules k hk), fun k => (c.structs k).trans (g.structs k),
    fun k => (c.blocks k).trans (g.blocks k), fun k => (c.insts k).trans (g.insts k)⟩
  exact ⟨(c.funcs k).trans (hrest k hk).1, (c.operands k).trans (hrest k hk).2⟩

lemma Store.gainsExtern_push {s : Store} (hm : s.module? m = some M)
    (hnone : M.declared.lookup f.ident.spoken = none) :
    s.GainsExtern m f ((s.push (.func (f.externIn m))).2.setModule m { M with
      funcs := M.funcs.push s.entries.size, declared := M.declared ++ [(f.ident.spoken, s.entries.size)] }) := by
  have hmodule := module?_eq_some.1 hm
  have hfree := entry_of_size_le (s := s) (Nat.le_refl _)
  have hne : s.entries.size ≠ m := by
    rintro rfl
    cases hfree.symm.trans hmodule
  have hentry := entry_push_setModule hm (.func (f.externIn m))
    { M with funcs := M.funcs.push s.entries.size, declared := M.declared ++ [(f.ident.spoken, s.entries.size)] }
  -- Two places change: the module's own and the first free one. Everything else is read as before.
  have hcases : ∀ k, k = m ∨ k ≠ m ∧ k = s.entries.size ∨ k ≠ m ∧ k ≠ s.entries.size := fun k => by tauto
  refine ⟨⟨s.entries.size, M, hfree, hm, hnone, ?_, ?_, fun k hk => ?_⟩, fun k hk => ?_, fun k => ?_, fun k => ?_,
    fun k => ?_⟩
  · simp only [func?, hentry, hne, if_false, if_true]
  · simp only [module?, hentry, if_true]
  · rcases hcases k with rfl | ⟨-, rfl⟩ | ⟨hkm, -⟩
    · simp only [func?, operand?, hentry, if_true, hmodule, and_self]
    · exact absurd rfl hk
    · simp only [func?, operand?, hentry, hkm, hk, if_false, and_self]
  all_goals
    rcases hcases k with rfl | ⟨hkm, rfl⟩ | ⟨hkm, hkn⟩
    · simp_all only [module?, struct?, block?, inst?, if_true, ne_eq, not_true]
    · simp only [module?, struct?, block?, inst?, hentry, hkm, if_false, if_true, hfree]
    · simp only [module?, struct?, block?, inst?, hentry, hkm, hkn, if_false]

namespace Emit

variable {α β : Type} {s s' : Store}

def Looks (a : Emit α) : Prop := ∀ s, Along SameCode s a

class Atomic (a : Emit α) : Prop where
  sameCode {s s' : Store} {e : Refusal} : a s = .error e s' → s.SameCode s'

section Judgements

variable {a b : Emit α} {f : α → Emit β}

instance : Covers Looks where
  pure _ _ := .pure trivial
  bind ha hf s := .bind (ha s) fun x s' _ _ => hf x s'
  get := ⟨fun _ => ⟨.refl _, trivial⟩⟩
  intern key t := ⟨fun s => by
    unfold internKey
    rw [along_get_bind]
    cases s.types[key.text]? with
    | some h => exact .pure trivial
    | none => exact ⟨sameCode_push_type s t _, trivial⟩⟩

instance (e) : Has Looks (throw e : Emit α) := ⟨fun _ => .throw⟩

instance (priority := high) (e) : Has Looks (throw e >>= f) := ⟨fun _ => .refuse rfl⟩

lemma of_along {Q : Store → α → Store → Prop} (h : ∀ s, Along SameCode s a (Q s)) : Has Looks a :=
  ⟨fun s => (h s).mono fun _ _ _ _ => trivial⟩

instance (f : Store → Store) : Has Total (modify f : Emit PUnit) := ⟨fun s => ⟨_, f s, rfl⟩⟩

instance (e) : Has Total (push e) := ⟨fun _ => ⟨_, _, rfl⟩⟩

namespace Atomic

instance of_looks [h : Has Looks a] : Atomic a where
  sameCode {s s' e} hx := by
    have hs := h.out s
    unfold Along at hs
    rwa [hx] at hs

instance of_total [h : Has Total a] : Atomic a where
  sameCode {s s' e} hx := by
    obtain ⟨x, s₁, hok⟩ := h.out s
    cases hx.symm.trans hok

instance bind [ha : Has Looks a] [hf : ∀ x, Atomic (f x)] : Atomic (a >>= f) where
  sameCode hx := by
    rcases error_of_bind hx with hx | ⟨x, s₁, hok, hx⟩
    · exact of_looks.sameCode hx
    · exact ((ha.out _).of_ok hok).1.trans ((hf x).sameCode hx)

lemma of_bind [Has Looks a] (h : ∀ x, Atomic (f x)) : Atomic (a >>= f) := bind

instance {c : Prop} [Decidable c] [Atomic a] [Atomic b] : Atomic (if c then a else b) := by split <;> infer_instance

instance [ha : Atomic a] : Atomic (discard a) where
  sameCode {s s' e} hx := by
    change (a >>= fun _ => Pure.pure ()) s = _ at hx
    rcases error_of_bind hx with hx | ⟨x, s₁, -, hx⟩
    · exact ha.sameCode hx
    · cases hx

end Atomic

end Judgements

/-! ### What looks and what adds -/

instance (h) : Has Looks (typeOf h) := of_along fun _ => typeOf_along h

instance (h : Handle) : Has Looks (operandOf h) := of_along fun _ => operandOf_along h

instance (h) : Has Looks (blockOf h) := of_along fun _ => blockOf_along h

instance (h) : Has Looks (moduleOf h) := of_along fun _ => moduleOf_along h

instance (h) : Has Looks (funcOf h) := of_along fun _ => funcOf_along h

instance (h) : Has Looks (funcParts h) := of_along fun _ => funcParts_along h

instance (l i) : Has Looks (paramTypes i l) := of_along fun _ => paramTypes_along l i

instance (l i) : Has Looks (fieldTypes i l) := of_along fun _ => fieldTypes_along l i

lemma cursor_looks : Along SameCode s cursor fun h s' => s' = s ∧ s.active = some h := by
  unfold cursor
  rw [along_get_bind]
  cases s.active with
  | none => exact .throw
  | some h =>
    refine .bind (blockOf_along h) ?_
    rintro b _ - ⟨rfl, -⟩
    cases b.ending with
    | none => exact .pure ⟨rfl, rfl⟩
    | some _ => exact Interns.sameCode (refl_of Interns _) _

instance : Has Looks cursor := of_along fun _ => cursor_looks

instance (v e) : Has Total (valueHandle v e) := .of_bind fun s => by split <;> infer_instance

instance (c) : Has Total (constant c) := .bind

instance (b) : Has Total (boolConst b) := inferInstanceAs (Has Total (constant _))

instance (v : Operand) : Has Total (operandHandle v) := by
  unfold operandHandle
  split <;> infer_instance

instance (func name) : Has Total (localName func name) := by
  unfold localName
  split
  · infer_instance
  · exact .of_bind fun s => by split <;> infer_instance

instance (block) (inst : Inst) (ty : Ty) : Has Total (append block inst ty) :=
  .of_bind fun h => .of_bind fun s => by split <;> infer_instance

instance (block t) : Has Total (terminate block t) := .of_bind fun h => .of_bind fun s => by split <;> infer_instance

/-! ### The operations -/

instance (elem) : Has Looks (pointer elem) := .of_bind fun t => by split <;> infer_instance

instance (ret params variadic) : Has Looks (func ret params variadic) := .of_bind fun s => by
  split
  · infer_instance
  · exact .of_bind fun s => by split <;> infer_instance

instance phiEdges_looks (type incoming) : ∀ index, Has Looks (phiEdges type index incoming) := by
  induction incoming with
  | nil => exact fun _ => inferInstanceAs (Has Looks (pure _))
  | cons edge incoming ih =>
    intro index
    unfold phiEdges
    infer_instance

instance (value bits) : Atomic (int value bits) := by
  unfold int
  split <;> infer_instance

instance (type) : Atomic (defaultValue type) := .of_bind fun t => by split <;> infer_instance

instance (module name ret params variadic) : Has Total (newFunc module name ret params variadic) :=
  .of_bind fun h => .of_bind fun s => by split <;> infer_instance

instance (module name type) : Atomic (declareFunc module name type) := .of_bind fun m => .of_bind fun parts => by
  dsimp only
  split
  · infer_instance
  · exact .of_bind fun s => by split <;> infer_instance

instance (func name) : Atomic (createBlock func name) := .of_bind fun f => .of_bind fun s => by
  extract_lets rest
  have : ∀ u, Has Total (rest u) := fun u =>
    .of_bind fun _ => .of_bind fun h => .of_bind fun s => by split <;> infer_instance
  clear_value rest
  split <;> infer_instance

instance (ptr) : Atomic (load ptr) := .of_bind fun p => .of_bind fun s => by split <;> infer_instance

instance (ptr value) : Atomic (store ptr value) := .of_bind fun p => .of_bind fun v => .of_bind fun s => by
  split
  · exact .of_bind fun want => .of_bind fun own => by split <;> infer_instance
  · infer_instance

instance (value type) : Atomic (coerce value type) := .of_bind fun source => by
  split
  · infer_instance
  · exact .of_bind fun v => .of_bind fun t => .of_bind fun s => .of_bind fun b => by split <;> infer_instance

instance (value) : Atomic (ptrVal value) := .of_bind fun v => by
  split
  · exact .of_bind fun s => by split <;> infer_instance
  · infer_instance

instance (value) : Atomic (ptrRef value) := .of_bind fun v => by
  split
  · exact .of_bind fun s => by split <;> infer_instance
  · infer_instance

instance (op left right) : Atomic (binary op left right) :=
  .of_bind fun x => .of_bind fun y => .of_bind fun t => .of_bind fun u => by
    dsimp only
    split
    · infer_instance
    · exact .of_bind fun s => .of_bind fun b => by split <;> infer_instance

instance callArgs_looks (args : List Handle) : ∀ index ts, Has Looks (callArgs index ts args) := by
  induction args with
  | nil => exact fun _ ts => by cases ts <;> exact inferInstanceAs (Has Looks (pure _))
  | cons a args ih =>
    intro index ts
    cases ts <;> exact .of_bind fun s => by split <;> infer_instance

lemma externIn_cases (s m f) : ∃ h s', externIn m f s = .ok h s' ∧ (s' = s ∨ s.GainsExtern m f s') := by
  unfold externIn
  rw [get_bind_apply]
  cases hm : s.module? m with
  | none => exact ⟨_, s, rfl, .inl rfl⟩
  | some M =>
    cases hnone : M.declared.lookup f.ident.spoken with
    | some h => exact ⟨h, s, by simp only [hnone]; rfl, .inl rfl⟩
    | none => exact ⟨_, _, by simp only [hnone]; exact newFunc_run hm .., .inr (gainsExtern_push hm hnone)⟩

lemma callTarget_cases (s) (block) (v) :
    (∃ e, callTarget block v s = .error e s) ∨ ∃ x s', callTarget block v s = .ok x s' ∧
      (s' = s ∨ ∃ g f, v = .func g ∧ s.func? g = some f ∧ f.module ≠ moduleOfBlock s block ∧
        s.GainsExtern (moduleOfBlock s block) f s') := by
  by_cases hfunc : ∃ g, v = .func g
  · obtain ⟨g, rfl⟩ := hfunc
    rw [callTarget, get_bind_apply]
    cases hf : s.func? g with
    | none => exact .inl ⟨_, rfl⟩
    | some f =>
      dsimp only
      rw [get_bind_apply]
      by_cases hhome : f.module = moduleOfBlock s block
      · rw [if_pos hhome]
        exact .inr ⟨_, s, rfl, .inl rfl⟩
      · -- A function of another module: an extern for it is declared here, unless one is there already.
        rw [if_neg hhome]
        obtain ⟨h, s', hok, hs'⟩ := externIn_cases s (moduleOfBlock s block) f
        exact .inr ⟨_, s', bind_of_ok hok, hs'.imp_right fun hg => ⟨g, f, rfl, hf, hhome, hg⟩⟩
  · have hlooks : Along Eq s (callTarget block v) := by
      cases v with
      | func g => exact absurd ⟨g, rfl⟩ hfunc
      | _ =>
        unfold callTarget
        rw [along_get_bind]
        split
        · exact .pure trivial
        · exact rfl
    rcases cases_of_along hlooks with herror | ⟨x, -, hok⟩
    · exact .inl herror
    · exact .inr ⟨x, s, hok, .inl rfl⟩

lemma call_refused {func : Handle} {e : Refusal} (h : call func args s = .error e s') :
    s.SameCode s' ∨ ∃ block g f, s.active = some block ∧ s.operand? func = some (.func g) ∧ s.func? g = some f ∧
      f.module ≠ moduleOfBlock s block ∧ s.GainsExtern (moduleOfBlock s block) f s' := by
  rcases error_of_bind h with hstop | ⟨v, s₁, hv, h1⟩
  · exact .inl (Atomic.sameCode hstop)
  obtain ⟨-, rfl, hv⟩ := (operandOf_along (R := SameCode) func).of_ok hv
  rcases error_of_bind h1 with hstop | ⟨block, s2, hb, h2⟩
  · exact .inl (Atomic.sameCode hstop)
  obtain ⟨-, rfl, hactive⟩ := cursor_looks.of_ok hb
  rcases callTarget_cases s2 block v with ⟨e', he⟩ | ⟨⟨target, r, ps, variadic⟩, s3, hok, hs3⟩
  · cases (bind_of_error he).symm.trans h2
    exact .inl (.refl _)
  · rw [bind_of_ok hok] at h2
    -- The arguments are checked only after the target was resolved, so a refusal here keeps the extern.
    have hsame : s3.SameCode s' := by
      refine @Atomic.sameCode _ _ ?_ _ _ _ h2
      dsimp only
      split
      · infer_instance
      · exact .of_bind fun vs => .of_bind fun s => by split <;> infer_instance
    rcases hs3 with rfl | ⟨g, f, rfl, hf, hhome, hgains⟩
    · exact .inl hsame
    · exact .inr ⟨block, g, f, hactive, hv, hf, hhome, hgains.trans hsame⟩

instance (value name) : Has Total (setValueName value name) := .of_bind fun s => by
  split
  · infer_instance
  · infer_instance
  · refine .of_bind fun s => ?_
    dsimp only
    split
    all_goals
      refine .of_bind fun _ => ?_
      split
      all_goals first | infer_instance | exact .of_bind fun s => by split <;> infer_instance

instance numberLocals_total (func l) : ∀ next, Has Total (numberLocals func next l) := by
  induction l with
  | nil => exact fun _ => inferInstanceAs (Has Total (pure _))
  | cons x l ih =>
    refine fun next => .of_bind fun s => ?_
    dsimp only
    split
    · infer_instance
    · split <;> infer_instance

instance numberFuncs_total (l) : ∀ next, Has Total (numberFuncs next l) := by
  induction l with
  | nil => exact fun _ => inferInstanceAs (Has Total (pure _))
  | cons h l ih =>
    refine fun next => .of_bind fun s => ?_
    split
    · infer_instance
    · split
      · infer_instance
      · split <;> infer_instance

instance funcTexts_total (l) : Has Total (funcTexts l) := by
  induction l with
  | nil => exact inferInstanceAs (Has Total (pure _))
  | cons h l ih =>
    refine .of_bind fun s => ?_
    split
    · infer_instance
    · refine .of_bind fun s => .of_bind fun r => ?_
      split
      · infer_instance
      · refine .of_bind fun s => ?_
        split
        · infer_instance
        · exact .of_bind fun r => by split <;> infer_instance

instance (module) : Has Total (dumpModule module) := .of_bind fun s => by
  split
  · infer_instance
  · split
    · infer_instance
    · refine .of_bind fun r => ?_
      cases r <;> exact .of_bind fun r => by cases r <;> infer_instance

instance (module) : Has Total (dropModule module) := .of_bind fun s => by
  split
  · infer_instance
  · split <;> infer_instance

instance (type) : Has Looks (funcRetType type) := .of_bind fun s => by split <;> infer_instance

instance (type index) : Has Looks (funcArgType type index) := .of_bind fun s => by
  split
  · split <;> infer_instance
  · infer_instance

instance (type) : Atomic (typeSize type) := .of_bind fun t => .of_bind fun s => by split <;> infer_instance

instance (module t) : Atomic (text module t) := .of_bind fun m => by split <;> infer_instance

instance (type name) : Atomic (alloc type name) := .of_bind fun t => by split <;> infer_instance

instance (cond yes no) : Atomic (jumpCond cond yes no) := .of_bind fun c => .of_bind fun t => .of_bind fun b => by
  dsimp only
  split <;> infer_instance

instance (op value) : Atomic (unary op value) := .of_bind fun x => .of_bind fun type => .of_bind fun s =>
  .of_bind fun block => .of_bind fun s => by split <;> infer_instance

end Emit

namespace Command

open Emit

lemma perform_atomic (c : Command) (hc : ∀ func args, c ≠ .call func args) : Atomic c.perform := by
  cases c with
  | setStructBody => exact .of_bind fun t => .of_bind fun s => by split <;> infer_instance
  | call func args => exact absurd rfl (hc func args)
  | _ =>
    dsimp only [perform, Emit.makeModule, Emit.struct, Emit.float, Emit.funcArg, Emit.setActiveBlock, Emit.bitcast,
      Emit.jump, Emit.phi, Emit.ret]
    infer_instance

/-- An operation that is refused has left all that modules hold as it was. Only a call to a function of another
module may have declared it in the calling module first. -/
theorem refused_unchanged {s s' : Store} {c : Command} {e : Refusal} (h : c.perform s = .error e s') :
    s.SameCode s' ∨ ∃ func args block g f, c = .call func args ∧ s.active = some block ∧
      s.operand? func = some (.func g) ∧ s.func? g = some f ∧ f.module ≠ moduleOfBlock s block ∧
        s.GainsExtern (moduleOfBlock s block) f s' := by
  by_cases hc : ∃ func args, c = .call func args
  · obtain ⟨func, args, rfl⟩ := hc
    change (Emit.call func args >>= fun _ => Pure.pure ()) s = _ at h
    rcases error_of_bind h with h | ⟨x, s₁, -, h⟩
    · rcases call_refused h with hsame | ⟨block, g, f, hrest⟩
      · exact .inl hsame
      · exact .inr ⟨func, args, block, g, f, rfl, hrest⟩
    · cases h
  · exact .inl ((c.perform_atomic fun func args hcall => hc ⟨func, args, hcall⟩).sameCode h)

def twoModules : Store where
  entries := #[.reserved, .module { name := [97], funcs := #[2], declared := [([102], 2)] },
    .func { ident := { name := [102] }, module := 1, ret := .i32, params := #[{ ty := .i32 }], variadic := false },
    .module { name := [122], funcs := #[4], declared := [([103], 4)] },
    .func { ident := { name := [103] }, module := 3, ret := .void, params := #[], variadic := false, blocks := #[5] },
    .block { ident := { name := [98] }, func := 4 }]
  types := {}
  values := {}
  active := some 5

theorem refused_unchanged_call : ∃ e s', (Command.call 2 []).perform twoModules = .error e s' ∧
    ¬twoModules.SameCode s' ∧ ∃ f, twoModules.func? 2 = some f ∧ twoModules.GainsExtern 3 f s' := by
  have hrun : ∃ e s', (Command.call 2 []).perform twoModules = .error e s' ∧ (s'.func? 6).isSome :=
    ⟨_, _, rfl, rfl⟩
  obtain ⟨e, s', hrun, hnew⟩ := hrun
  have hdiffers : ¬twoModules.SameCode s' := by
    intro h
    rw [h.funcs] at hnew
    cases hnew
  rcases refused_unchanged hrun with h | ⟨_, _, _, _, f, hc, ha, ho, hf, -, hg⟩
  · exact absurd h hdiffers
  · cases hc
    cases ha
    cases ho
    exact ⟨e, s', hrun, hdiffers, f, hf, hg⟩

end Command

end Arbor.IR
