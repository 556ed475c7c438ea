import Arbor.Proofs.Derivation

/-! No block is forgotten: when a part of a program has been lowered, every block that is still open
was open before, apart from the one that is being filled. -/

namespace Arbor.IR

variable {b h : Handle} {i : Inst}

namespace Code

def Open (c : Code) (b : Handle) : Prop := ∃ B, c.blocks b = some B ∧ B.ending = none

inductive Line (c : Code) : Code → Prop where
  | refl : Line c c
  | emits {c1 c' : Code} {h : Handle} {i : Inst} {t : Ty} (l : Line c c1) (hi : i.isPhi = false)
      (e : c1.Emits h i t c') : Line c c'
  | declares {c1 c' : Code} {h : Handle} {F : FuncCode} (l : Line c c1) (e : c1.Declares h F c') : Line c c'

namespace Line

variable {c c1 c' : Code}

lemma one (hi : i.isPhi = false) (e : c.Emits h i t c') : Line c c' := .emits .refl hi e

lemma trans (h : Line c c1) (k : Line c1 c') : Line c c' := by
  induction k with
  | refl => exact h
  | emits _ hi e ih => exact .emits ih hi e
  | declares _ e ih => exact .declares ih e

end Line

variable {c c1 c' : Code}

lemma Emits.open_iff (e : c.Emits h i t c') (b) : c'.Open b ↔ c.Open b := by
  obtain ⟨a, A, hcur, rfl⟩ := e.cursor
  by_cases hb : b = a
  · subst hb
    exact iff_of_true ⟨_, Function.update_self .., hcur.opened⟩ ⟨A, hcur.block, hcur.opened⟩
  · simp only [Open, Function.update_of_ne hb]

lemma Declares.open_iff (e : c.Declares h F c') (b) : c'.Open b ↔ c.Open b := by
  rw [e.added]
  exact Iff.rfl

lemma Line.open_iff (l : Line c c') (b) : c'.Open b ↔ c.Open b := by
  induction l with
  | refl => exact Iff.rfl
  | emits _ _ e ih | declares _ e ih => exact (e.open_iff b).trans ih

lemma Line.active_eq (l : Line c c') : c'.active = c.active := by
  induction l with
  | refl => rfl
  | emits _ _ e ih => exact e.active_eq.trans ih
  | declares _ e ih =>
    rw [e.added]
    exact ih

lemma Ends.open_of (e : c.Ends t c') (hb : c'.Open b) : c.Open b ∧ c.active ≠ some b := by
  obtain ⟨a, A, hcur, rfl⟩ := e
  obtain ⟨B, hB, hopen⟩ := hb
  by_cases hba : b = a
  · subst hba
    cases (Function.update_self ..).symm.trans hB
    cases hopen
  · replace hB := (Function.update_of_ne hba ..).symm.trans hB
    refine ⟨⟨B, hB, hopen⟩, fun h => hba ?_⟩
    exact Option.mem_unique h hcur.active

lemma Opens.open_of (e : c.Opens h f c') (hb : c'.Open b) : b = h ∨ c.Open b := by
  obtain ⟨F, -, rfl⟩ := e.added
  obtain ⟨B, hB, hopen⟩ := hb
  by_cases hbh : b = h
  · exact .inl hbh
  · exact .inr ⟨B, (Function.update_of_ne hbh ..).symm.trans hB, hopen⟩

lemma Opens.active_eq (e : c.Opens h f c') : c'.active = c.active := by
  obtain ⟨F, -, rfl⟩ := e.added
  rfl

def Pending (X : List Handle) (c c' : Code) : Prop :=
  ∀ b, c'.Open b → c'.active ≠ some b → (c.Open b ∧ c.active ≠ some b) ∨ b ∈ X

def Shut (X : List Handle) (c c' : Code) : Prop := ∀ b, c'.Open b → (c.Open b ∧ c.active ≠ some b) ∨ b ∈ X

lemma Pending.refl (c) : Pending [] c c := fun _ ho ha => .inl ⟨ho, ha⟩

section

variable {X : List Handle}

lemma Pending.sub (h : Pending X c c1) (k : Pending [] c1 c2) : Pending X c c2 := by
  intro b ho ha
  obtain ⟨ho1, ha1⟩ := (k b ho ha).resolve_right List.not_mem_nil
  exact h b ho1 ha1

lemma Line.pending (l : Line c c') : Pending [] c c' := fun b ho ha => .inl ⟨(l.open_iff b).1 ho, l.active_eq ▸ ha⟩

section

variable (p : Pending X c c1)

include p

lemma Pending.emits (e : c1.Emits h i t c2) :
    Pending X c c2 := fun b ho ha => p b ((e.open_iff b).1 ho) (e.active_eq ▸ ha)

lemma Pending.opens (e : c1.Opens h f c2) : Pending (X ++ [h]) c c2 := by
  intro b ho ha
  rcases e.open_of ho with rfl | ho1
  · exact .inr (List.mem_append_right X (.head _))
  · exact (p b ho1 (e.active_eq ▸ ha)).imp_right (List.mem_append_left [h])

lemma Pending.ends (e : c1.Ends t c2) : Shut X c c2 := by
  intro b ho
  obtain ⟨ho1, ha1⟩ := e.open_of ho
  exact p b ho1 ha1

lemma Pending.sealed (h : c1.Sealed) : Shut X c c1 := by
  rintro b ⟨B, hB, ho⟩
  exact p b ⟨B, hB, ho⟩ fun ha => h ⟨b, B, ha, hB, ho⟩

lemma Pending.leaves {target : Handle} (e : Lower.Leaves c1 target c2) : Shut X c c2 := by
  cases e with
  | ended hsealed => exact p.sealed hsealed
  | jump e => exact p.ends e

end

lemma Shut.next (s : Shut (x :: X) c c1) : Pending X c (c1.move (some x)) := by
  intro b ho ha
  rcases s b ho with h | h
  · exact .inl h
  · exact .inr ((List.mem_cons.1 h).resolve_left fun hb => ha (congrArg some hb.symm))

lemma Shut.perm (s : Shut X c c1) (h : X.Perm Y) : Shut Y c c1 := fun b ho => (s b ho).imp_right h.mem_iff.1

lemma Shut.pending (s : Shut X c c1) : Pending X c c1 := fun b ho _ => s b ho

end

end Code

end Arbor.IR

namespace Arbor.Lower

open IR Build Arbor.Tree IR.Code

lemma Deref.line (h : Deref c v t c' v' t') : Line c c' := by
  cases h with
  | slot _ hload => exact .one rfl hload
  | value => exact .refl

lemma Coerces.line (h : Coerces c v t u c' v' t') : Line c c' := by
  cases h with
  | same | known => exact .refl
  | cast _ _ _ hcast => exact .one rfl hcast

lemma Unifies.line (h : Unifies c x t y u c' x' t' y' u') : Line c c' := by
  cases h with
  | same | neither => exact .refl
  | left _ _ hx => exact hx.line
  | right _ _ _ hy => exact hy.line

lemma isPhi_of_binaryInst? (h : Emit.binaryInst? o k x y = some i) : i.isPhi = false := by
  rcases Emit.binaryInst?_shape h with ⟨_, rfl⟩ | ⟨_, rfl⟩ | ⟨_, rfl⟩ | ⟨_, rfl⟩ <;> rfl

lemma isPhi_of_unaryInst? (h : Emit.unaryInst? o x t = some (i, u)) : i.isPhi = false := by
  unfold Emit.unaryInst? at h
  split at h <;> cases h <;> rfl

lemma Combines.line (h : Combines o c x y c' z t) : Line c c' := by
  cases h with
  | mk _ hi hput => exact .one (isPhi_of_binaryInst? hi) hput

lemma ConvertsAll.line (h : ConvertsAll c args ps c' vs) : Line c c' := by
  induction h with
  | nil => exact .refl
  | more _ ih => exact ih
  | cons hv _ ih => exact hv.coerces.line.trans ih

lemma Target.line {target : Operand} (h : Target c f c' target ps) : Line c c' := by
  cases h with
  | own | pointer => exact .refl
  | other _ _ hd =>
    rcases hd with rfl | ⟨D, hd⟩
    · exact .refl
    · exact .declares .refl hd

lemma Calls.line (h : Calls c f tf args c' v t) : Line c c' := by
  cases h with
  | mk _ _ hargs htarget _ _ hput => exact .emits (hargs.line.trans htarget.line) rfl hput

lemma CallsNamed.line (h : CallsNamed Γ c name args c' v t) : Line c c' := by
  cases h with
  | mk _ hf hcall => exact hf.line.trans hcall.line

lemma Binds.line (h : Binds Γ name v t c Γ' c') : Line c c' := by
  cases h with
  | mk halloc _ hstore => exact .emits (.one rfl halloc) rfl hstore

lemma Forks.pending (h : Forks f c v c') : Pending [] c c' := by
  cases h with
  | mk hyes hno hafter hfork hleft hright =>
    have hopened := (((Pending.refl c).opens hyes).opens hno).opens hafter
    exact ((hopened.ends hfork).next.leaves hleft).next.leaves hright |>.next

lemma Makes.pending (h : Makes S Γ c t size b c' v u) : Pending [] c c' := by
  cases h with
  | plain hcall hcast => exact (hcall.line.trans (.one rfl hcast)).pending
  | checked hcall _ heq hx hfork hcast =>
    have hfirst := ((hcall.line.trans heq.line).trans hx.line).pending
    exact (hfirst.sub hfork.pending).emits hcast

mutual

lemma ExprTo.pending : ExprTo S Γ e c c' v t → Pending [] c c'
  | .literal _ | .ident _ _ => .refl _
  | .unary _ _ _ hv _ hput => hv.pending.emits hput
  | .binary _ _ _ _ hv hw hunify hz => (hv.pending.sub hw.pending).sub (hunify.line.trans hz.line).pending
  | .call _ hargs hcall => hargs.pending.sub hcall.line.pending
  | .ternary _ _ _ _ hstart hyes hno hafter henter hcond hfork hleft _ hjoin hright _ hmeet _ _ _ hput =>
    have hopened := ((((Pending.refl _).opens hstart).opens hyes).opens hno).opens hafter
    have hleft' := ((hopened.ends henter).next.sub hcond.pending).ends hfork |>.next.sub hleft.pending
    have hright' := (hleft'.ends hjoin).next.sub hright.pending
    (hright'.ends hmeet).next.emits hput
  | .make _ _ _ hmake => hmake.pending
  | .makeMany _ _ _ hv hconv hz hmake => (hv.pending.sub (hconv.coerces.line.trans hz.line).pending).sub hmake.pending
  | .bitcast _ _ _ hv _ _ hput => hv.pending.emits hput
  | .cast _ _ _ hv hcast => hv.pending.sub hcast.line.pending

lemma ValueTo.pending : ValueTo S Γ e c c' v t → Pending [] c c'
  | .mk hv hd => hv.pending.sub hd.line.pending

lemma ArgsTo.pending : ArgsTo S Γ l c c' args → Pending [] c c'
  | .nil => .refl _
  | .cons hv hrest => hv.pending.sub hrest.pending

end

lemma InitTo.pending (h : InitTo S Γ s c c' v t) : Pending [] c c' := by
  cases h with
  | value _ hv => exact hv.pending
  | zero => exact .refl _

lemma LoopCondTo.shut (p : Pending X c0 c) (h : LoopCondTo S Γ body leave e c c') : Shut X c0 c' := by
  cases h with
  | some hv hfork => exact (p.sub hv.pending).ends hfork
  | none hend => exact p.ends hend

mutual

lemma StmtTo.pending : StmtTo S L Γ s c Γ' c' → Pending [] c c'
  | .block _ h => h.pending
  | .bind _ _ hv h => hv.pending.sub h.line.pending
  | .bindAs _ _ _ hv hconv h => hv.pending.sub (hconv.coerces.line.trans h.line).pending
  | .assign _ _ _ hl hr _ hv hconv _ hstore => by
    have hvalue := (hl.pending.sub hr.pending).sub hv.line.pending
    rcases hconv with ⟨rfl, -, -⟩ | hconv
    · exact hvalue.emits hstore
    · exact (hvalue.sub hconv.coerces.line.pending).emits hstore
  | .ret _ _ _ h | .leave _ h | .next _ h => ((Pending.refl _).ends h).pending
  | .retValue _ _ hv hconv h => ((hv.pending.sub hconv.coerces.line.pending).ends h).pending
  | .cond _ _ _ hv hyes hno hafter hfork hleft hjoin hright hmeet =>
    have hopened := ((hv.pending.opens hyes).opens hno).opens hafter
    have hleft' := (hopened.ends hfork).next.sub hleft.pending
    have hright' := (hleft'.leaves hjoin).next.sub hright.pending
    (hright'.leaves hmeet).next
  | .loop _ _ hinit hcond hstep hbody hleave henter htest hrun hnext hagain hback =>
    have hopened := (((hinit.pending.opens hcond).opens hstep).opens hbody).opens hleave
    -- The body is filled before the step, which was opened first.
    have htest' := (htest.shut (hopened.leaves henter).next).perm (.swap ..)
    have hagain' := ((htest'.next.sub hrun.pending).leaves hnext).next.sub hagain.pending
    (hagain'.leaves hback).next
  | .eval _ _ hv => hv.pending
  | .drop _ _ hv hcast hcall => by
    obtain ⟨u, hcall⟩ := hcall
    rcases hcast with ⟨rfl, -⟩ | ⟨h, -, hput⟩
    · exact hv.pending.sub hcall.line.pending
    · exact (hv.pending.emits hput).sub hcall.line.pending

lemma PartTo.pending : PartTo S L Γ s c Γ' c' → Pending [] c c'
  | .none => .refl _
  | .some h => h.pending

lemma StmtsTo.pending : StmtsTo S L Γ l c Γ' c' → Pending [] c c'
  | .nil | .stop _ => .refl _
  | .cons h hrest => h.pending.sub hrest.pending

end

lemma ParamsTo.line (h : ParamsTo S i ps Γ c Γ' c') : Line c c' := by
  induction h with
  | nil => exact .refl
  | cons _ _ hbind _ ih => exact hbind.line.trans ih

lemma TailTo.shut (p : Pending X c0 c) (h : TailTo S c c') : Shut X c0 c' := by
  cases h with
  | ended hsealed => exact p.sealed hsealed
  | void _ h | zero _ h => exact p.ends h

lemma FuncTo.open_of (h : FuncTo S Γ d c c') (hb : c'.Open b) : c.Open b := by
  cases h with
  | mk hentry _ _ hparams hbody htail =>
    have hshut := htail.shut (hparams.line.pending.sub hbody.pending)
    obtain ⟨hopen, hne⟩ := (hshut b hb).resolve_right List.not_mem_nil
    exact (hentry.open_of hopen).resolve_left fun h => hne (congrArg some h.symm)

end Arbor.Lower
