import Arbor.Lower.Stmts
import Arbor.Proofs.Along

/-! What lowering is composed of. It reads modules and the store, asks the store for values and instructions, notes what
it sees in the tables of modules, reports faults, binds names, and opens a scope for a block or a loop. What holds of
these and of whatever is put together from actions of which it holds is true of the lowering of every statement. -/

set_option synthInstance.maxSize 20000

namespace Arbor.Build.Act

open IR Diag Proofs

variable {σ α β : Type} {P : {α : Type} → Act σ α → Prop} {k m : Handle}

class Closed (P : {α : Type} → Act σ α → Prop) : Prop extends Composes P where
  throw {α : Type} (e : Failure) : Has P (throw e : Act σ α)
  attempt {α : Type} (a : Act σ α) [Has P a] : Has P (attempt a)
  module (k : Handle) : Has P (module k)
  store : Has P store
  emit {α : Type} (e : Emit α) : Has P (emit e)
  note {k : Handle} {f : Module → Module} : (∀ M, (f M).scopes = M.scopes ∧ (f M).current = M.current ∧
    (f M).loop = M.loop) → Has P (update k f)
  report (k : Handle) (e : Fault) : Has P (report k e)
  define (k : Handle) (id : ScopeId) (name : Text) (t : Option TypeId) (v : Option ValueId) :
    Has P (rescope k fun s => s.addValue id name t v)

attribute [instance] Closed.throw Closed.attempt Closed.module Closed.store Closed.emit Closed.report Closed.define

class HasPart (P : {α : Type} → Act σ α → Prop) (a : Option (Act σ α)) : Prop where
  out : ∀ b ∈ a, P b

class Encloses (m : Handle) (P : {α : Type} → Act σ α → Prop) : Prop extends Closed P where
  block (body : Option (Act σ Unit)) [HasPart P body] : Has P (stmtBlock m body)
  loop (init : Option (Act σ Unit)) (cond : Option (Act σ (Option ValueId))) (step body : Option (Act σ Unit))
    [HasPart P init] [HasPart P cond] [HasPart P step] [HasPart P body] : Has P (stmtLoop m init cond step body)

attribute [instance] Encloses.block Encloses.loop

section

variable {a : Act σ α} {t u : TypeId} {v y : ValueId} {h : Handle} [Closed P]

instance : HasPart P (none : Option (Act σ α)) := ⟨nofun⟩
instance [ha : Has P a] : HasPart P (some a) := ⟨by rintro _ ⟨⟩; exact ha.out⟩

instance {f : β → Act σ α} [h : ∀ x, Has P (f x)] (o : Option β) : HasPart P (o.map f) := by
  cases o <;> dsimp only [Option.map] <;> infer_instance

instance [Has P a] {f : α → β} : Has P (f <$> a) := by
  rw [map_eq_pure_bind]
  infer_instance

instance {f : α → Act σ PUnit} [∀ x, Has P (f x)] (l : List α) : Has P (l.forM f) := by
  induction l with
  | nil => exact inferInstanceAs (Has P (Pure.pure PUnit.unit))
  | cons x l ih => exact .bind

instance (o : Option α) : Has P (need o) := by
  unfold need
  split <;> infer_instance

instance : Has P (raise e : Act σ α) := by dsimp only [raise]; infer_instance
instance : Has P (fail k c s : Act σ α) := by dsimp only [fail]; infer_instance

instance (priority := high) {f : α → Act σ β} : Has P (fail k c s >>= f) := by
  have heq : (fail k c s >>= f) = (fail k c s : Act σ β) := by
    unfold fail
    rw [bind_assoc]
    rfl
  rw [heq]
  infer_instance

instance : Has P (emitQuiet e) := .of_bind fun r => by split <;> infer_instance
instance {e : Emit α} : Has P (backend k s e) := .of_bind fun r => by split <;> infer_instance

/-! Types. -/

instance : Has P (updateType t f) := Closed.note fun _ => ⟨rfl, rfl, rfl⟩

instance : Has P (typeAt k h) := by
  have (V : TypeView) : Has P (update k fun i => { i with types := i.types.insert h V }) :=
    Closed.note fun _ => ⟨rfl, rfl, rfl⟩
  dsimp only [typeAt]
  infer_instance

instance {T : Option TypeId} : Has P (valueOf k T h) := by
  have : Has P (update k fun i => { i with values := i.values.insertIfNew h T }) :=
    Closed.note fun _ => ⟨rfl, rfl, rfl⟩
  dsimp only [valueOf]
  infer_instance

instance : Has P (view t) := .bind
instance : Has P (typeName t) := .bind
instance : Has P (typeKind t) := .bind
instance : Has P (typeOf v) := .bind

instance {adopt : TypeId → Act σ TypeId} [∀ t, Has P (adopt t)] {v : Option ValueId} : Has P (adoptWith k adopt v) := by
  unfold adoptWith
  split <;> infer_instance

instance (depth : Nat) : ∀ t : TypeId, Has P (adoptType k depth t) := by
  induction depth with
  | zero => exact fun _ => inferInstanceAs (Has P (throw _))
  | succ depth ih =>
    intro t
    dsimp only [adoptType]
    refine .of_ite (.of_bind fun theirs => .of_bind fun _ => ?_)
    split <;> infer_instance

instance : Has P (prim k p) := .bind
instance : Has P adoptDepth := .bind
instance : Has P (ownType k t) := .bind
instance : Has P (pointer k t) := .bind
instance : Has P (pointerTo t) := .bind
instance : Has P (elem t) := .of_bind fun V => by split <;> infer_instance
instance : Has P (canCast t u) := .bind

/-! Names and values. -/

instance : Has P (typeSymbol k s b) := .bind
instance : Has P (valueSymbol k s b) := .bind
instance : Has P (resolveType k s) := .of_bind fun r => by split <;> infer_instance
instance : Has P (resolveValue k s) := .of_bind fun r => by split <;> infer_instance
instance : Has P (valueAt k h) := by dsimp only [valueAt]; infer_instance
instance : Has P (valueFor k h) := .bind
instance : Has P (valueWith k T h) := .bind
instance : Has P (intConst k n s) := .bind
instance : Has P (floatConst k n) := .bind
instance : Has P (boolConst k n) := .bind
instance : Has P (textConst k s) := .bind

instance : Has P (signatureOf k f) := by
  unfold signatureOf
  split
  · infer_instance
  · refine .of_bind fun _ => .of_bind fun _ => ?_
    split <;> infer_instance

instance : Has P (funcRetType k f) := .of_bind fun r => by split <;> infer_instance
instance : Has P (typeSize k t) := .bind
instance : Has P (defaultValue k t) := .bind

instance {T : Option TypeId} : Has P (alloc k s T) := by
  dsimp only [alloc]
  split <;> infer_instance

instance : Has P (storeTo k v y) := by
  dsimp only [storeTo]
  refine .of_bind fun _ => .of_bind fun V => .of_ite (.of_bind fun e => ?_)
  split <;> infer_instance

instance : Has P (bitcast k v t) := .bind
instance : Has P (coerce k v t) := .bind
instance : Has P (convert k v t c w) := .bind
instance : Has P (ptrVal k v) := .bind
instance : Has P (ptrRef k v) := .of_bind fun r => by split <;> infer_instance
instance : Has P (applyUnary k o v) := .bind
instance : Has P (applyBinary k o v y) := .bind
instance : Has P (unary k o v) := by dsimp only [unary]; infer_instance
instance : Has P (binary k o v y) := by dsimp only [binary]; infer_instance

instance (l) : ∀ i, Has P (callArgs k t n i l) := by
  induction l with
  | nil => exact fun _ => inferInstanceAs (Has P (pure _))
  | cons v l ih =>
    intro i
    dsimp only [callArgs]
    infer_instance

instance : Has P (call k f l) := .bind

instance : Has P (callNamed k s l) := .of_bind fun r => by
  split
  · infer_instance
  · split <;> infer_instance

/-! Blocks. -/

instance : Has P (blockName b) := .bind
instance : Has P (jump k b) := .bind
instance : Has P (jumpCond k v b c) := .bind

instance : Has P (blockAt k h s) := by
  have : Has P (update k fun i => { i with blocks := i.blocks.insertIfNew h s }) :=
    Closed.note fun _ => ⟨rfl, rfl, rfl⟩
  dsimp only [blockAt]
  infer_instance

instance : Has P (enclosingFunc k) := .bind
instance : Has P (createBlockIn k v s) := .bind
instance : Has P (createBlock k s) := .of_bind fun r => by split <;> infer_instance
instance : Has P (activeBlock k) := .bind
instance : Has P (setActiveBlock k b) := by dsimp only [setActiveBlock]; infer_instance

instance : Has P (blockTail k b) := by
  have (b : Option BlockId) : Has P (match b with
      | none => pure noHandle
      | some b => do pure ((← store).blockTail b.handle) : Act σ _) := by split <;> infer_instance
  dsimp only [blockTail]
  split <;> infer_instance

instance : Has P (isTerminator h) := .bind

instance : Has P (isTerminated k b) := by
  dsimp only [isTerminated]
  split
  · infer_instance
  · refine .of_bind fun b => ?_
    split <;> infer_instance

instance : Has P (jumpUnlessTerminated k b) := .bind

/-! Statements. -/

section

variable {e e₁ e₂ : Option (Act σ (Option ValueId))} {s₁ s₂ : Option (Act σ Unit)} [he : HasPart P e] [HasPart P e₁]
  [HasPart P e₂] [hs : HasPart P s₁] [HasPart P s₂]

instance : Has P (runOptional s₁) := by
  cases s₁ with
  | none => exact inferInstanceAs (Has P (pure ()))
  | some a => exact ⟨hs.out a rfl⟩

instance : Has P (evalExpr k e s) := by
  cases e with
  | none => exact inferInstanceAs (Has P (fail _ _ _))
  | some a =>
    have : Has P a := ⟨he.out a rfl⟩
    exact .of_bind fun r => by split <;> infer_instance

instance : Has P (evalCond k e) := .bind

instance {T : Option TypeId} : Has P (firstValue k s T e) := by
  unfold firstValue
  split <;> infer_instance

instance : Has P (allocInit k s T w) := by
  refine .of_bind fun _ => ?_
  split <;> infer_instance

instance (o) : Has P (valueType? o) := by
  unfold valueType?
  split <;> infer_instance

instance : Has P (addValueSymbol k s w) := by
  refine .of_bind fun M => .of_bind fun t => .of_bind fun r => ?_
  split <;> infer_instance

instance {T : Option TypeId} : Has P (stmtDef k s T e) := by
  dsimp only [stmtDef]
  refine .of_bind fun _ => .of_ite (.of_bind fun v => .of_bind fun t => .of_bind fun _ => .of_ite ?_)
  split <;> infer_instance

instance : Has P (stmtAssign k e e₁) := by
  refine .of_bind fun _ => .of_bind fun _ => .of_bind fun _ => .of_bind fun _ => .of_bind fun _ => .of_bind fun _ => ?_
  split <;> infer_instance

instance : Has P (ret k w) := by dsimp only [ret]; infer_instance

instance : Has P (stmtReturn k e) := by
  dsimp only [stmtReturn]
  refine .of_bind fun fn => ?_
  split
  · infer_instance
  · refine .of_bind fun t => ?_
    split <;> infer_instance

instance : Has P (branchArm k b s₁ c) := .bind
instance : Has P (stmtBranch k e s₁ s₂) := .bind
instance : Has P (stmtBreak k) := .of_bind fun M => by split <;> infer_instance
instance : Has P (stmtContinue k) := .of_bind fun M => by split <;> infer_instance
instance : Has P (exprArm k b e s c) := .bind
instance : Has P (phi k t l) := .bind
instance : Has P (exprBranch k e e₁ e₂) := .bind

end

/-! The heap. -/

instance : Has P (callRuntime k s l) := .of_bind fun r => by split <;> infer_instance
instance : Has P (makeSized k t v c) := .bind
instance : Has P (make k t) := .bind
instance : Has P (makeMany k t v) := .bind
instance : Has P (drop k v) := .bind

end

end Arbor.Build.Act

namespace Arbor.Lower

open Build Act IR Proofs Arbor.Tree

variable {σ : Type} {m : Handle} {P : {α : Type} → Act σ α → Prop}

section

variable [Closed P]

instance (n : Nat) : ∀ t, Has P (pointers ref n t) := by
  induction n with
  | zero => exact fun _ => inferInstanceAs (Has P (pure _))
  | succ n ih =>
    intro t
    dsimp only [pointers]
    infer_instance

instance (r : Option TypeRef) : Has P (typeOf m r) := by
  cases r <;> dsimp only [typeOf] <;> infer_instance

instance (e : Expr) : Has P (literal m e) := by
  unfold literal
  split <;> infer_instance

instance : Has P (unify m x y) := by dsimp only [unify]; infer_instance
instance : Has P (castTo m x t) := by dsimp only [castTo]; infer_instance

lemma exprFrom_has (e : Expr) {p : Parts σ} [Has P p.x] [Has P p.y] [Has P p.cond] [Has P p.args]
    [Has P p.count] : Has P (exprFrom m e p) := by
  unfold exprFrom
  split <;> first | infer_instance | (split <;> infer_instance)

mutual

theorem expr_has : ∀ e : Expr, Has P (expr m e)
  | { x := x, y := y, cond := cond, args := args, count := count, .. } => by
    have := exprIn_has x
    have := exprIn_has y
    have := exprIn_has cond
    have := argsIn_has args
    have := exprIn_has count
    unfold expr
    exact exprFrom_has _

theorem exprIn_has : ∀ e : Option Expr, Has P (exprIn m e)
  | some e => expr_has e
  | none => Closed.throw _

theorem argsIn_has : ∀ l : Option (List (Option Expr)), Has P (argsIn m l)
  | some l => exprs_has l
  | none => ⟨Composes.pure _⟩

theorem exprs_has : ∀ l : List (Option Expr), Has P (exprs m l)
  | [] => ⟨Composes.pure _⟩
  | e :: rest => by
    have := exprIn_has e
    have := exprs_has rest
    unfold exprs
    infer_instance

end

instance (e : Option Expr) : Has P (exprPart m e) := by
  have := exprIn_has (P := P) (m := m) e
  dsimp only [exprPart]
  infer_instance

instance (e : Option Expr) : HasPart P (optionalExpr m e) := by
  have := expr_has (P := P) (m := m)
  dsimp only [optionalExpr]
  infer_instance

end

variable [Encloses m P]

lemma stmtFrom_has (s : Stmt) {p : StmtParts σ} [Has P p.list] [Has P p.yes] [Has P p.no] [Has P p.init]
    [Has P p.step] [Has P p.body] : Has P (stmtFrom m s p) := by
  unfold stmtFrom
  split
  case h_2 => split <;> infer_instance
  case h_10 => exact Has.of_bind fun r => by split <;> infer_instance
  all_goals infer_instance

mutual

theorem stmt_has : ∀ s : Stmt, Has P (stmt m s)
  | { list := list, yes := yes, no := no, init := init, step := step, body := body, .. } => by
    have := blockIn_has list
    have := stmtIn_has yes
    have := stmtIn_has no
    have := stmtIn_has init
    have := stmtIn_has step
    have := stmtIn_has body
    unfold stmt
    exact stmtFrom_has _

theorem stmtIn_has : ∀ s : Option Stmt, Has P (stmtIn m s)
  | some s => stmt_has s
  | none => Closed.throw _

theorem blockIn_has : ∀ l : Option (List (Option Stmt)), Has P (blockIn m l)
  | some l => stmts_has l
  | none => ⟨Composes.pure _⟩

theorem stmts_has : ∀ l : List (Option Stmt), Has P (stmts m l)
  | [] => ⟨Composes.pure _⟩
  | s :: rest => by
    have := stmtIn_has s
    have := stmts_has rest
    unfold stmts
    infer_instance

end

end Arbor.Lower
