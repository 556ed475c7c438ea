import Arbor.Proofs.Halting
import Arbor.Proofs.Meaning
import Arbor.Proofs.Confined

/-! Where a run stands in code that is being lowered. A frame stands at the end of unfinished code if it
has executed the instructions that are there; what is lowered next is what it executes next. -/

namespace Arbor.IR.Code

variable {h : Handle}

/-- The finished code goes on from an unfinished one: ended blocks stay as they are, and the active one
gets instructions that are no phis. -/
structure Fits (c C : Code) : Prop where
  insts : ∀ h x, c.insts h = some x → C.insts h = some x
  funcs : ∀ h F, c.funcs h = some F → ∃ F', C.funcs h = some F' ∧ F.Le F'
  ended : ∀ b B, c.blocks b = some B → B.ending.isSome → C.blocks b = some B
  active : ∀ b B, c.active = some b → c.blocks b = some B → ∃ B', C.blocks b = some B' ∧ C.Grown B B'

variable {c : Code} {f : Handle}

lemma Grown.mono (hi : c.Sub C) (h : c.Grown B B') :
    C.Grown B B' := h.trans hi (.refl C B')

namespace Fits

lemma back (r : Region f L X c c') (p : Pending X c c') (h : Fits c' C) : Fits c C where
  insts g x hg := h.insts g x (r.insts g x hg)
  funcs g F hF := by
    obtain ⟨F1, hF1, hle⟩ := r.funcs g F hF
    obtain ⟨F2, hF2, hle'⟩ := h.funcs g F1 hF1
    exact ⟨F2, hF2, hle.trans hle'⟩
  ended b B hB he := by
    obtain ⟨B', hB', hgrown⟩ := r.block_mono hB
    cases hgrown.ended he
    exact h.ended b _ hB' he
  active b B ha hB := by
    obtain ⟨B', hB', hgrown⟩ := r.start b B ha hB
    by_cases he : B'.ending.isSome
    · exact ⟨B', h.ended b B' hB' he, hgrown.mono h.insts⟩
    · by_cases hact : c'.active = some b
      · obtain ⟨B2, hB2, hgrown'⟩ := h.active b B' hact hB'
        exact ⟨B2, hB2, hgrown.trans h.insts hgrown'⟩
      · obtain ⟨-, hne⟩ | hx := p b ⟨B', hB', by simpa using he⟩ hact
        · exact absurd ha hne
        · cases hB.symm.trans (r.own b hx).1

lemma emits (e : c.Emits h i t c') (hi : i.isPhi = false) (hf : Fits c' C) : Fits c C := by
  obtain ⟨b, B, hcur, -⟩ := e.cursor
  have hat : c.At B.func := ⟨b, B, hcur.active, hcur.block, rfl⟩
  exact hf.back ((Region.refl hat).line (L := []) (.one hi e)) (Line.one hi e).pending

lemma ends (e : c.Ends u c') (hf : Fits c' C) : Fits c C where
  insts g x hg := hf.insts g x ((congrFun e.insts_eq g).trans hg)
  funcs g F hF := by
    obtain ⟨b, B, -, rfl⟩ := e
    exact hf.funcs g F hF
  ended b B hB he := by
    obtain ⟨a, A, hcur, rfl⟩ := e
    refine hf.ended b B ((Function.update_of_ne ?_ ..).trans hB) he
    rintro rfl
    cases hcur.block.symm.trans hB
    rw [hcur.opened] at he
    cases he
  active b B ha hB := by
    obtain ⟨a, A, hcur, rfl⟩ := e
    cases hcur.active.symm.trans ha
    cases hcur.block.symm.trans hB
    exact ⟨_, hf.ended b _ (Function.update_self ..) rfl, rfl, ⟨[], by simp, by simp⟩, fun he => by
      rw [hcur.opened] at he
      cases he⟩

lemma opens (e : c.Opens h g c') (hf : Fits c' C) : Fits c C where
  insts k x hk := hf.insts k x ((congrFun e.insts_eq k).trans hk)
  funcs k F hF := by
    obtain ⟨F1, hF1, hle⟩ := e.func_of hF
    obtain ⟨F2, hF2, hle'⟩ := hf.funcs k F1 hF1
    exact ⟨F2, hF2, hle.trans hle'⟩
  ended b B hB he := hf.ended b B (e.block_of hB) he
  active b B ha hB := hf.active b B (e.active_eq.trans ha) (e.block_of hB)

lemma line (hat : c.At f) (l : Line c c') (hf : Fits c' C) : Fits c C :=
  hf.back ((Region.refl hat (L := [])).line l) l.pending

lemma unphi (hc : c.Sealed) (e : (c.move x).Emits h i t c') (hf : Fits c' C) : Fits c C := by
  have hended : ∀ b B, c.blocks b = some B → B.ending.isSome → C.blocks b = some B := by
    intro b B hB he
    refine hf.ended b B ?_ he
    obtain ⟨a, A, hcur, rfl⟩ := e.cursor
    refine (Function.update_of_ne ?_ ..).trans hB
    rintro rfl
    cases hcur.block.symm.trans hB
    rw [hcur.opened] at he
    cases he
  refine ⟨fun g y hg => hf.insts g y (e.inst_mono hg), fun g F hF => hf.funcs g F ((congrFun e.funcs_eq g).trans hF), hended,
    fun b B ha hB => ?_⟩
  cases he : B.ending with
  | none => exact absurd ⟨b, B, ha, hB, he⟩ hc
  | some u => exact ⟨B, hended b B hB (by simp [he]), .refl C B⟩

lemma unmove (hc : c.Sealed) (hf : Fits (c.move x) C) : Fits c C where
  insts := hf.insts
  funcs := hf.funcs
  ended := hf.ended
  active b B ha hB := by
    cases he : B.ending with
    | none => exact absurd ⟨b, B, ha, hB, he⟩ hc
    | some u => exact ⟨B, hf.ended b B hB (by simp [he]), .refl C B⟩

end Fits

lemma Ends.sealed (e : c.Ends u c') : c'.Sealed := by
  obtain ⟨b, B, hcur, rfl⟩ := e
  rintro ⟨b', B', hcur'⟩
  cases hcur.active.symm.trans hcur'.active
  cases (Function.update_self ..).symm.trans hcur'.block
  cases hcur'.opened

end Arbor.IR.Code

namespace Arbor.Lower

variable {c : IR.Code}

lemma Leaves.sealed (h : Leaves c target c') : c'.Sealed := by
  cases h with
  | ended h => exact h
  | jump h => exact h.sealed

lemma Leaves.fits (h : Leaves c target c') (hf : c'.Fits C) : c.Fits C := by
  cases h with
  | ended h => exact hf
  | jump h => exact .ends h hf

lemma Leaves.insts_eq (h : Leaves c target c') : c'.insts = c.insts := by
  cases h with
  | ended => rfl
  | jump h => exact h.insts_eq

lemma LoopCondTo.sealed (h : LoopCondTo S Γ body leave e c c') : c'.Sealed := by
  cases h with
  | some _ h => exact h.sealed
  | none h => exact h.sealed

lemma LoopCondTo.fits (h : LoopCondTo S Γ body leave e c c') (hat : c.At S.func) (hf : c'.Fits C) : c.Fits C := by
  cases h with
  | some hv h => exact (hf.ends h).back (hv.region hat []) hv.pending
  | none h => exact hf.ends h

lemma TailTo.sealed (h : TailTo S c c') : c'.Sealed := by
  cases h with
  | ended h => exact h
  | void _ h => exact h.sealed
  | zero _ h => exact h.sealed

lemma TailTo.fits (h : TailTo S c c') (hf : c'.Fits C) : c.Fits C := by
  cases h with
  | ended => exact hf
  | void _ h => exact hf.ends h
  | zero _ h => exact hf.ends h

end Arbor.Lower

namespace Arbor.Meaning

def Val.value : Val → Run.Value
  | .int _ n => .int n
  | .unit => .absent

end Arbor.Meaning

namespace Arbor.Run.Image

open IR Meaning Exec

variable {img : Image} {α β : Type}
variable {B : BlockCode} {b : Handle} {v x : Value}

def Traps (img : Image) (st : State) (t : Trap) : Prop := ∃ m, img.step st.frame st.callers st.machine = .error t m

def Limited (img : Image) (st : State) : Prop := img.Traps st .stepLimit ∨ img.Traps st .callDepth

def Meets (img : Image) (n k : Nat) (st : State) (Q : α → State → Prop) : Res α → Prop
  | .ok x => Q x st
  | .error .division => img.Traps st .divisionByZero
  | .error .bound => n ≤ k
  | .error .stuck => False

/-- A run comes to where an evaluation ends, unless it reaches a limit. If the evaluation ran out of its
bound, the run goes on for at least `n` transitions. -/
def Leads (img : Image) (n : Nat) (st : State) (r : Res α) (Q : α → State → Prop) : Prop :=
  ∃ k st', img.after k st = some st' ∧ (img.Limited st' ∨ img.Meets n k st' Q r)

namespace Leads

variable {st : State}

lemma ok {x : α} (h : Q x st) : img.Leads n st (.ok x) Q := ⟨0, st, rfl, .inr h⟩

lemma limited (h : img.Limited st) : img.Leads n st r Q := ⟨0, st, rfl, .inl h⟩

lemma later (h : img.after k st = some st1) (hl : img.Leads n st1 r Q) : img.Leads (n + k) st r Q := by
  obtain ⟨j, st', hj, hend⟩ := hl
  refine ⟨k + j, st', by rw [after_add, h]; exact hj, hend.imp_right fun hm => ?_⟩
  rcases r with (_ | _ | _) | x
  · exact hm
  · exact hm
  · exact (Nat.add_le_add_right hm k).trans (Nat.add_comm ..).le
  · exact hm

lemma weaken (hn : n' ≤ n) (hl : img.Leads n st r Q) : img.Leads n' st r Q := by
  obtain ⟨j, st', hj, hend⟩ := hl
  refine ⟨j, st', hj, hend.imp_right fun hm => ?_⟩
  rcases r with (_ | _ | _) | x
  · exact hm
  · exact hm
  · exact hn.trans hm
  · exact hm

lemma after (h : img.after k st = some st1) (hl : img.Leads n st1 r Q) : img.Leads n st r Q :=
  (hl.later h).weaken (Nat.le_add_right ..)

lemma mono (hl : img.Leads n st r Q) (h : ∀ x st', Q x st' → Q' x st') : img.Leads n st r Q' := by
  obtain ⟨j, st', hj, hend⟩ := hl
  refine ⟨j, st', hj, hend.imp_right fun hm => ?_⟩
  rcases r with (_ | _ | _) | x
  · exact hm
  · exact hm
  · exact hm
  · exact h x st' hm

lemma bind (hl : img.Leads n st r Q)
    (hf : ∀ x st', Q x st' → img.Leads n st' (f x) P) : img.Leads n st (r >>= f) P := by
  obtain ⟨j, st', hj, hend⟩ := hl
  rcases hend with hlim | hm
  · exact .after hj (.limited hlim)
  rcases r with (_ | _ | _) | x
  · exact ⟨j, st', hj, .inr hm⟩
  · exact hm.elim
  · exact ⟨j, st', hj, .inr hm⟩
  · exact .after hj (hf x st' hm)

lemma self {x : α} (hl : img.Leads n st (.ok x) Q) : img.Leads n st (.ok x) fun y st' => y = x ∧ Q y st' := by
  obtain ⟨k, st', hk, hend⟩ := hl
  exact ⟨k, st', hk, hend.imp_right fun hQ => ⟨rfl, hQ⟩⟩

lemma seq {Q : Unit → State → Prop} (hl : img.Leads n st (.ok ()) Q) (hnext : ∀ st', Q () st' → img.Leads n st' r P) :
    img.Leads n st r P :=
  hl.bind fun _ => hnext

lemma division (h : img.Traps st .divisionByZero) : img.Leads n st (.error .division) Q := ⟨0, st, rfl, .inr h⟩

end Leads

lemma after_one_of
    (h : img.step st.frame st.callers st.machine = .ok (.go g K) m) : img.after 1 st = some ⟨g, K, m⟩ := by
  simp [Image.after, h]

structure Stands (img : Image) (c : Code) (f : Frame) : Prop where
  place : ∃ b B B' more, c.Cursor b B ∧ img.store.code.blocks b = some B' ∧ B'.insts = B.insts ++ more ∧ f.block = b ∧
    (f.rest = some more ∨ f.rest = none ∧ B.insts = [])

structure Arrives (b : Handle) (f : Frame) : Prop where
  block : f.block = b
  rest : f.rest = none

variable {c : Code} {f : Frame} {K : List Frame} {m : Machine} {h : Handle}

lemma exists_block (hB : img.store.code.blocks b = some B) :
    ∃ info, img.store.block? b = some info ∧ info.insts.toList = B.insts ∧ info.ending.map Ending.terminator = B.ending := by
  obtain ⟨info, hinfo, rfl⟩ := Option.map_eq_some_iff.1 hB
  exact ⟨info, hinfo, rfl, rfl⟩

lemma exists_inst {x : Inst × Ty} (hx : img.store.code.insts h = some x) :
    ∃ info, img.store.inst? h = some info ∧ info.inst = x.1 ∧ info.ty = x.2 := by
  obtain ⟨info, hinfo, rfl⟩ := Option.map_eq_some_iff.1 hx
  exact ⟨info, hinfo, rfl, rfl⟩

lemma isPhi_eq_false (hi : ¬img.store.code.IsPhi h) : img.isPhi h = false := by
  unfold isPhi
  cases hx : img.store.inst? h with
  | none => rfl
  | some info =>
    cases hinst : info.inst with
    | phi edges => exact absurd ⟨edges, info.ty, by simp [Store.code, hx, hinst]⟩ hi
    | _ => simp [hinst, Inst.isPhi]

/-- What a phi has for the block that a frame comes from. The address of a text is left out: it depends on what the
machine has made so far. -/
def Merges (img : Image) (f : Frame) (g : Handle) (x : Value) : Prop :=
  ∃ edges v b, (img.store.inst? g).map InstInfo.inst = some (.phi edges) ∧
    edges.find? (fun e => e.2 == f.previous) = some (v, b) ∧ ∀ m, Exec.eval img.store f v m = .ok x m

lemma phis_merges {x : Handle → Value} (h : ∀ g ∈ l.takeWhile img.isPhi, img.Merges f g (x g)) :
    phis img.store f l m = .ok ((l.takeWhile img.isPhi).map fun g => (g, x g)) m := by
  induction l with
  | nil => rfl
  | cons g l ih =>
    cases hg : img.isPhi g with
    | true =>
      rw [List.takeWhile_cons_of_pos hg] at h ⊢
      obtain ⟨edges, v, b, hinst, hedge, hv⟩ := h g (.head _)
      have hrest := ih fun k hk => h k (.tail _ hk)
      simp only [phis, hinst, phi, hedge, bind, EStateM.bind, hv, hrest]
      rfl
    | false =>
      rw [List.takeWhile_cons_of_neg (by simp [hg]), phis]
      unfold isPhi at hg
      cases hx : img.store.inst? g with
      | none => rfl
      | some info =>
        rw [hx] at hg
        simp only [Option.map_some]
        cases hinst : info.inst with
        | phi edges => simp [hinst, Inst.isPhi] at hg
        | _ => rfl

lemma phis_eq_nil (hl : ∀ h ∈ l, ¬img.store.code.IsPhi h) : phis img.store f l = pure [] := by
  have hnone : l.takeWhile img.isPhi = [] := by
    cases l with
    | nil => rfl
    | cons h l => exact List.takeWhile_cons_of_neg (by simp [isPhi_eq_false (hl h (.head _))])
  funext m
  rw [phis_merges (x := fun _ => .absent) (by simp [hnone]), hnone]
  rfl

lemma regs_merged (l : List Handle) (x : Handle → Value) (r : Std.HashMap Operand Value) :
    let regs := (l.map fun g => (g, x g)).foldl (fun r p => r.insert (.inst p.1) p.2) r
    (∀ g ∈ l, regs[Operand.inst g]? = some (x g)) ∧ ∀ v : Operand, (∀ g ∈ l, v ≠ .inst g) → regs[v]? = r[v]? := by
  induction l generalizing r with
  | nil => simp
  | cons k l ih =>
    obtain ⟨hin, hout⟩ := ih (r.insert (.inst k) (x k))
    refine ⟨fun g hg => ?_, fun v hv => ?_⟩
    · by_cases hl : g ∈ l
      · exact hin g hl
      · obtain rfl := (List.mem_cons.1 hg).resolve_right hl
        refine (hout (.inst g) fun k hk heq => hl ?_).trans (by simp)
        cases heq
        exact hk
    · refine (hout v fun g hg => hv g (.tail _ hg)).trans ?_
      simp [Std.HashMap.getElem?_insert, Ne.symm (hv k (.head _))]

/-- On entry to a block its first phis take, all at once, what the frame had for their operands. Nothing else changes,
and phis behind another instruction are left out of what is to be executed. -/
theorem enter_merges {b : BlockInfo} {x : Handle → Value}
    (h : ∀ g ∈ b.insts.toList.takeWhile img.isPhi, img.Merges f g (x g)) (m : Machine) : ∃ regs,
      img.enter f b m = .ok { f with regs, rest := some (b.insts.toList.filter fun g => !img.isPhi g) } m ∧
      (∀ g ∈ b.insts.toList.takeWhile img.isPhi, regs[Operand.inst g]? = some (x g)) ∧
      ∀ v : Operand, (∀ g ∈ b.insts.toList.takeWhile img.isPhi, v ≠ .inst g) → regs[v]? = f.regs[v]? := by
  refine ⟨_, ?_, regs_merged (b.insts.toList.takeWhile img.isPhi) x f.regs⟩
  simp only [enter, bind, EStateM.bind, phis_merges h]
  rfl

/-- Two phis that refer to each other exchange what they hold. -/
theorem enter_merges_exchange :
    let phi (g : Handle) : Entry := .inst ⟨.phi [(.inst g, 3)], .int .w32, 3, {}⟩
    let img : Image := ⟨{ entries := #[.reserved, phi 2, phi 1], types := {}, values := {} }, {}, 1⟩
    let f : Frame := ⟨4, 3, 3, none, {(.inst 1, .int 7), (.inst 2, .int 8)}, [], 1⟩
    ∃ f' m, img.enter f ⟨{}, 4, #[1, 2], none⟩ {} = .ok f' m ∧
      f'.regs[Operand.inst 1]? = some (.int 8) ∧ f'.regs[Operand.inst 2]? = some (.int 7) := by
  intro phi img f
  obtain ⟨regs, henter, hin, -⟩ := @enter_merges img f ⟨{}, 4, #[1, 2], none⟩ (fun g => .int (if g = 1 then 8 else 7)) (by
    intro g hg
    obtain rfl | rfl : g = 1 ∨ g = 2 := by simpa using (List.takeWhile_prefix _).subset hg
    all_goals exact ⟨_, _, _, rfl, rfl, fun m => by simp [Exec.eval, f, Std.HashMap.getElem_insert, pure, EStateM.pure]⟩) {}
  exact ⟨_, _, henter, hin 1 (by decide +kernel), hin 2 (by decide +kernel)⟩

lemma after_enter (hb : img.store.code.blocks b = some B) (hl : ∀ h ∈ B.insts, ¬img.store.code.IsPhi h)
    (hblock : f.block = b) (hrest : f.rest = none) :
    img.after 1 ⟨f, K, m⟩ = some ⟨{ f with rest := some B.insts }, K, m⟩ := by
  obtain ⟨info, hinfo, hinsts, -⟩ := exists_block hb
  refine after_one_of ?_
  have hfilter : B.insts.filter (fun h => !img.isPhi h) = B.insts :=
    List.filter_eq_self.2 fun h hh => by simp [isPhi_eq_false (hl h hh)]
  simp only [step, hblock, hinfo, hrest, enter, hinsts, phis_eq_nil hl, hfilter]
  rfl

lemma Stands.ready (hst : img.Stands c f) (e : c.Emits h i t c') (hfit : c'.Fits img.store.code) (hi : i.isPhi = false) :
    ∃ k more, img.after k ⟨f, K, m⟩ = some ⟨{ f with rest := some (h :: more) }, K, m⟩ ∧
      ∀ f', f'.block = f.block → f'.rest = some more → img.Stands c' f' := by
  obtain ⟨b, B, B', more, hcur, hB', hmore, hblock, hrest⟩ := hst.place
  have hfit0 := hfit.emits e hi
  obtain ⟨a, A, hcur', hc'⟩ := e.cursor
  cases hcur.active.symm.trans hcur'.active
  cases hcur.block.symm.trans hcur'.block
  have hblock' : c'.blocks b = some { B with insts := B.insts ++ [h] } := by
    rw [hc']
    exact Function.update_self ..
  obtain ⟨B2, hB2, hgrown⟩ := hfit.active b _ (by rw [hc']; exact hcur.active) hblock'
  cases hB'.symm.trans hB2
  obtain ⟨later, hlater, -⟩ := hgrown.insts
  have hmore' : more = h :: later := by
    rw [hmore, List.append_assoc] at hlater
    exact List.append_cancel_left hlater
  subst hmore'
  have hstands : ∀ f' : Frame, f'.block = f.block → f'.rest = some later → img.Stands c' f' := fun f' hb hr =>
    ⟨b, _, B', later, ⟨by rw [hc']; exact hcur.active, hblock', hcur.opened⟩, hB', hlater, hb.trans hblock, .inl hr⟩
  rcases hrest with hrest | ⟨hrest, hempty⟩
  · exact ⟨0, later, by rw [← hrest]; rfl, hstands⟩
  · obtain ⟨B3, hB3, hgrown0⟩ := hfit0.active b B hcur.active hcur.block
    cases hB'.symm.trans hB3
    obtain ⟨all, hall, hclean⟩ := hgrown0.insts
    have hinsts : B'.insts = h :: later := by rw [hmore, hempty]; rfl
    rw [hempty, List.nil_append] at hall
    refine ⟨1, later, ?_, hstands⟩
    rw [← hinsts]
    exact after_enter hB' (fun g hg => (hclean g (hall ▸ hg)).2) hblock hrest

def counted (m : Machine) : Machine := { m with steps := m.steps + 1 }

section Execute

variable {info : InstInfo}

lemma execute_limited (hlim : img.maxSteps < (counted m).steps) :
    img.execute g K h rest m = .error .stepLimit (counted m) := by
  change img.maxSteps < m.steps + 1 at hlim
  simp only [execute, bind, EStateM.bind, Proofs.modify_apply, Proofs.get_apply, Proofs.throw_apply, hlim, if_true, counted]

section

variable (hlim : ¬img.maxSteps < (counted m).steps) (hinfo : img.store.inst? h = some info)

include hlim hinfo

lemma execute_compute (hcall : ∀ callee args, info.inst ≠ .call callee args) : img.execute g K h rest m =
    (compute img.store g info >>= fun v =>
      pure (.go (if info.inst.isValue then g.finish h rest v else { g with rest := some rest }) K)) (counted m) := by
  change ¬img.maxSteps < m.steps + 1 at hlim
  simp only [execute, bind, EStateM.bind, Proofs.modify_apply, Proofs.get_apply, hlim, hinfo, counted]
  cases hinst : info.inst with
  | call callee args => exact absurd hinst (hcall callee args)
  | _ => simp [Inst.isValue, EStateM.bind]

lemma executes_call {callee : Operand} {args : List Operand} (hinst : info.inst = .call callee args) {target : Handle}
    (hcallee : eval img.store g callee (counted m) = .ok (.func target) (counted m))
    (hargs : evalAll img.store g args (counted m) = .ok vs (counted m)) :
    img.execute g K h rest m = img.invoke g K h rest info.ty target vs (counted m) := by
  change ¬img.maxSteps < m.steps + 1 at hlim
  simp only [counted] at hcallee hargs
  simp only [execute, bind, EStateM.bind, Proofs.modify_apply, Proofs.get_apply, hlim, if_false, hinfo, hinst, hcallee, hargs, counted]

end

end Execute

def value? (f : Frame) : Operand → Option Value
  | .const (.int _ n) => some (.int n)
  | .const _ => none
  | .func h => some (.func h)
  | v => f.regs[v]?

lemma eval_of_value? {v : Operand} (hx : value? f v = some x) : Exec.eval s f v m = .ok x m := by
  unfold value? at hx
  cases v with
  | const k =>
    cases k with
    | int w n =>
      cases hx
      rfl
    | _ => cases hx
  | func h =>
    cases hx
    rfl
  | _ =>
    simp only [Exec.eval, hx]
    rfl

section Moves

variable {α : Type}

section

variable (hst : img.Stands c f)

include hst

lemma Stands.executes (e : c.Emits h i t c') (hfit : c'.Fits img.store.code) (hphi : i.isPhi = false)
    (hgo : ∀ more info, img.store.inst? h = some info → info.inst = i → info.ty = t →
      ¬img.maxSteps < (counted m).steps →
      img.step { f with rest := some (h :: more) } K m = img.execute { f with rest := some (h :: more) } K h more m →
      (∀ f', f'.block = f.block → f'.rest = some more → img.Stands c' f') →
      img.Leads n ⟨{ f with rest := some (h :: more) }, K, m⟩ r Q) : img.Leads n ⟨f, K, m⟩ r Q := by
  obtain ⟨k, more, hk, hnext⟩ := hst.ready e hfit hphi
  obtain ⟨b, B, B', -, hcur, hB', -, rfl, -⟩ := hst.place
  obtain ⟨blk, hblk, -⟩ := exists_block hB'
  obtain ⟨info, hinfo, hinst, hty⟩ := exists_inst (hfit.insts h _ e.inst_self)
  have hstep : img.step { f with rest := some (h :: more) } K m =
      img.execute { f with rest := some (h :: more) } K h more m := by simp only [step, hblk]
  refine .after hk ?_
  by_cases hlim : img.maxSteps < (counted m).steps
  · exact .limited (.inl ⟨counted m, hstep.trans (execute_limited hlim)⟩)
  · exact hgo more info hinfo hinst hty hlim hstep hnext

lemma Stands.value (e : c.Emits h i t c') (hfit : c'.Fits img.store.code)
    (hphi : i.isPhi = false) (hvalue : i.isValue) (hcall : ∀ callee args, i ≠ .call callee args)
    (hv : ∀ info : InstInfo, info.inst = i → info.ty = t → compute img.store f info (counted m) = .ok v m') :
    img.Leads n ⟨f, K, m⟩ (.ok ()) fun _ st => ∃ f', st = ⟨f', K, m'⟩ ∧ img.Stands c' f' ∧
      f'.regs = f.regs.insert (.inst h) v := by
  refine hst.executes e hfit hphi ?_
  rintro more info hinfo rfl rfl hlim hstep hnext
  refine .after (after_one_of (g := f.finish h more v) (K := K) (m := m') ?_) (.ok ?_)
  · have hcompute : compute img.store { f with rest := some (h :: more) } info (counted m) = .ok v m' := hv info rfl rfl
    rw [hstep, execute_compute hlim hinfo hcall]
    simp only [bind, EStateM.bind, hcompute, hvalue]
    rfl
  · exact ⟨_, rfl, hnext _ rfl rfl, rfl⟩

lemma Stands.trap (e : c.Emits h i t c') (hfit : c'.Fits img.store.code)
    (hphi : i.isPhi = false) (hcall : ∀ callee args, i ≠ .call callee args)
    (hv : ∀ info : InstInfo, info.inst = i → info.ty = t →
      compute img.store f info (counted m) = .error .divisionByZero m') :
    img.Leads n ⟨f, K, m⟩ (.error .division) Q := by
  refine hst.executes e hfit hphi ?_
  rintro more info hinfo rfl rfl hlim hstep -
  refine .division ⟨m', hstep.trans ?_⟩
  have hcompute : compute img.store { f with rest := some (h :: more) } info (counted m) = _ := hv info rfl rfl
  rw [execute_compute hlim hinfo hcall]
  simp only [bind, EStateM.bind, hcompute]

lemma Stands.store (e : c.Emits h (.store src dst) t c') (hfit : c'.Fits img.store.code)
    (hv : ∀ info : InstInfo, info.inst = .store src dst → compute img.store f info (counted m) = .ok v m') :
    img.Leads n ⟨f, K, m⟩ (.ok ()) fun _ st => ∃ f', st = ⟨f', K, m'⟩ ∧ img.Stands c' f' ∧ f'.regs = f.regs := by
  refine hst.executes e hfit rfl fun more info hinfo hinst _ hlim hstep hnext => ?_
  refine .after (after_one_of (g := { f with rest := some more }) (K := K) (m := m') ?_) (.ok ?_)
  · have hcompute : compute img.store { f with rest := some (h :: more) } info (counted m) = .ok v m' := hv info hinst
    rw [hstep, execute_compute hlim hinfo (by simp [hinst])]
    simp only [bind, EStateM.bind, hcompute, hinst]
    rfl
  · exact ⟨_, rfl, hnext _ rfl rfl, rfl⟩

lemma Stands.at : ∃ g, c.At g := by
  obtain ⟨b, B, -, -, hcur, -⟩ := hst.place
  exact ⟨B.func, b, B, hcur.active, hcur.block, rfl⟩

lemma Stands.active : c.active = some f.block := by
  obtain ⟨b, B, -, -, hcur, -, -, rfl, -⟩ := hst.place
  exact hcur.active

lemma Stands.opens (e : c.Opens g k c') : img.Stands c' f := by
  obtain ⟨b, B, B', more, hcur, hB', hmore, hf, hrest⟩ := hst.place
  exact ⟨b, B, B', more, ⟨e.active_eq.trans hcur.active, e.block_of hcur.block, hcur.opened⟩, hB', hmore, hf, hrest⟩

lemma Stands.leaving (e : c.Ends u c') (hfit : c'.Fits img.store.code) :
    ∃ k blk, img.after k ⟨f, K, m⟩ = some ⟨{ f with rest := some [] }, K, m⟩ ∧
      img.store.block? f.block = some blk ∧ blk.ending.map Ending.terminator = some u := by
  obtain ⟨b, B, B', more, hcur, hB', hmore, rfl, hrest⟩ := hst.place
  obtain ⟨a, A, hcur', hc'⟩ := e
  cases hcur.active.symm.trans hcur'.active
  cases hcur.block.symm.trans hcur'.block
  have hend := hfit.ended f.block { B with ending := some u } (by rw [hc']; exact Function.update_self ..) rfl
  cases hB'.symm.trans hend
  have hnil : more = [] := List.append_cancel_left (hmore.symm.trans (List.append_nil _).symm)
  subst hnil
  obtain ⟨blk, hblk, hinsts, hending⟩ := exists_block hend
  rcases hrest with hrest | ⟨hrest, hempty⟩
  · exact ⟨0, blk, by rw [← hrest]; rfl, hblk, hending⟩
  · refine ⟨1, blk, ?_, hblk, hending⟩
    have henter := after_enter (K := K) (m := m) hend (by simp [hempty]) rfl hrest
    rwa [show ({ B with ending := some u } : BlockCode).insts = [] from hempty] at henter

lemma Stands.br (e : c.Ends (.br b) c') (hfit : c'.Fits img.store.code) :
    img.Leads n ⟨f, K, m⟩ (.ok ()) fun _ st => ∃ f', st = ⟨f', K, m⟩ ∧ Arrives b f' ∧ f'.regs = f.regs ∧
      f'.previous = f.block := by
  obtain ⟨k, blk, hk, hblk, hend⟩ := hst.leaving e hfit
  refine .after hk (.after (after_one_of (g := f.goto b) (K := K) (m := m) ?_) (.ok ?_))
  · simp only [step, hblk, leave, hend]
    rfl
  · exact ⟨_, rfl, ⟨rfl, rfl⟩, rfl, rfl⟩

lemma Stands.condBr {v : Operand} (e : c.Ends (.condBr v yes no) c') (hfit : c'.Fits img.store.code)
    (hx : value? f v = some x) : img.Leads n ⟨f, K, m⟩ (.ok ()) fun _ st => ∃ f', st = ⟨f', K, m⟩ ∧
    Arrives (if x.toInt ≠ 0 then yes else no) f' ∧ f'.regs = f.regs ∧ f'.previous = f.block := by
  obtain ⟨k, blk, hk, hblk, hend⟩ := hst.leaving e hfit
  refine .after hk (.after (after_one_of (g := f.goto (if x.toInt ≠ 0 then yes else no)) (K := K) (m := m) ?_)
    (.ok ?_))
  · have heval : eval img.store { f with rest := some [] } v m = .ok x m := eval_of_value? (by cases v <;> exact hx)
    simp only [step, hblk, leave, hend, bind, EStateM.bind, heval]
    rfl
  · exact ⟨_, rfl, ⟨rfl, rfl⟩, rfl, rfl⟩

end

structure Returns (img : Image) (K : List Frame) (v : Value) (st : State) : Prop where
  step : img.step st.frame K st.machine = .ok (img.giveBack v K) st.machine
  callers : st.callers = K

lemma Stands.ret (hst : img.Stands c f) (e : c.Ends (.ret u) c') (hfit : c'.Fits img.store.code)
    (hx : u.elim (some .absent) (value? f) = some x) :
    img.Leads n ⟨f, K, m⟩ (.ok ()) fun _ st => ∃ f', st = ⟨f', K, m⟩ ∧ f'.regs = f.regs ∧ img.Returns K x st := by
  obtain ⟨k, blk, hk, hblk, hend⟩ := hst.leaving e hfit
  refine .after hk (.ok ⟨_, rfl, rfl, ?_, rfl⟩)
  cases u with
  | none =>
    cases hx
    simp only [step, hblk, leave, hend]
    rfl
  | some v =>
    have heval : eval img.store { f with rest := some [] } v m = .ok x m := eval_of_value? (by cases v <;> exact hx)
    simp only [step, hblk, leave, hend, bind, EStateM.bind, heval]
    rfl

lemma Arrives.stands (ha : Arrives b f) (hB : c.blocks b = some B) (hempty : B.insts = []) (hopen : B.ending = none)
    (hfit : (c.move (some b)).Fits img.store.code) : img.Stands (c.move (some b)) f := by
  obtain ⟨B', hB', hgrown⟩ := hfit.active b B rfl hB
  obtain ⟨more, hmore, -⟩ := hgrown.insts
  exact ⟨b, B, B', more, ⟨rfl, hB, hopen⟩, hB', hmore, ha.block, .inr ⟨ha.rest, hempty⟩⟩

lemma Arrives.entered (ha : Arrives b f) (hB : c.blocks b = some B) (hempty : B.insts = [])
    (hopen : B.ending = none) (hfit : (c.move (some b)).Fits img.store.code) :
    ∃ f', img.after 1 ⟨f, K, m⟩ = some ⟨f', K, m⟩ ∧ img.Stands (c.move (some b)) f' ∧ f'.regs = f.regs := by
  obtain ⟨B', hB', hgrown⟩ := hfit.active b B rfl hB
  obtain ⟨more, hmore, hclean⟩ := hgrown.insts
  refine ⟨_, after_enter hB' (fun h hh => ?_) ha.block ha.rest, ⟨b, B, B', more, ⟨rfl, hB, hopen⟩, hB', hmore, ha.block, .inl ?_⟩,
    rfl⟩
  · rw [hmore, hempty] at hh
    exact (hclean h hh).2
  · rw [hmore, hempty]
    rfl

lemma Arrives.phi {v : Operand} (ha : Arrives b f) (hB : c.blocks b = some B) (hempty : B.insts = [])
    (hopen : B.ending = none) (e : (c.move (some b)).Emits h (.phi edges) t c') (hfit : c'.Fits img.store.code)
    (hedge : edges.find? (fun e => e.2 == f.previous) = some (v, p)) (hx : value? f v = some x) :
    img.Leads n ⟨f, K, m⟩ (.ok ()) fun _ st => ∃ f', st = ⟨f', K, m⟩ ∧ img.Stands c' f' ∧
      f'.regs = f.regs.insert (.inst h) x := by
  obtain ⟨a, A, hcur, hc'⟩ := e.cursor
  cases Option.some.inj hcur.active
  cases hB.symm.trans hcur.block
  have hblock' : c'.blocks b = some { B with insts := [h] } := by
    rw [hc']
    refine (Function.update_self ..).trans ?_
    rw [hempty]
    rfl
  have hactive : c'.active = some b := by rw [hc']; rfl
  obtain ⟨B', hB', hgrown⟩ := hfit.active b _ hactive hblock'
  obtain ⟨more, hmore, hclean⟩ := hgrown.insts
  have hinsts : B'.insts = h :: more := hmore
  obtain ⟨info, hinfo, hinst, -⟩ := exists_inst (hfit.insts h _ e.inst_self)
  obtain ⟨blk, hblk, hblkInsts, -⟩ := exists_block hB'
  have hnone : ∀ g ∈ more, ¬img.store.code.IsPhi g := fun g hg => (hclean g hg).2
  have hphis : Exec.phis img.store f (h :: more) m = .ok [(h, x)] m := by
    rw [Exec.phis, hinfo]
    simp only [Option.map_some, hinst, Exec.phi, hedge, bind, EStateM.bind, eval_of_value? hx, phis_eq_nil hnone]
    rfl
  have hfilter : (h :: more).filter (fun g => !img.isPhi g) = more := by
    have hself : img.isPhi h = true := by simp [isPhi, hinfo, hinst, Inst.isPhi]
    rw [List.filter_cons_of_neg (by simp [hself])]
    exact List.filter_eq_self.2 fun g hg => by simp [isPhi_eq_false (hnone g hg)]
  refine .after (after_one_of (g := { f with regs := f.regs.insert (.inst h) x, rest := some more })
    (K := K) (m := m) ?_) (.ok ?_)
  · simp only [step, ha.block, hblk, ha.rest, enter, hblkInsts, hinsts, bind, EStateM.bind, hphis, hfilter]
    rfl
  · refine ⟨_, rfl, ⟨b, _, B', more, ⟨hactive, hblock', hopen⟩, hB', hmore, ha.block, .inl rfl⟩, rfl⟩

lemma evalAll_of_values : ∀ {vs : List Operand} {xs : List Value}, List.Forall₂ (fun v x => value? f v = some x) vs xs →
    Exec.evalAll s f vs m = .ok xs m
  | _, _, .nil => rfl
  | _, _, .cons hv hvs => by
    simp only [Exec.evalAll, bind, EStateM.bind, eval_of_value? hv, evalAll_of_values hvs]
    rfl

lemma Stands.call {g : Handle} {F : FuncCode} {args : List Operand} {vs : List Value} {r : Res Val} {P : Val → Machine → Prop}
    (hst : img.Stands c f) (e : c.Emits h (.call (.func g) args) t c') (hfit : c'.Fits img.store.code)
    (hargs : List.Forall₂ (fun v x => value? f v = some x) args vs) (hF : img.store.code.funcs g = some F)
    (hbody : F.blocks ≠ []) (hrun : ∀ info K', img.store.func? g = some info →
      img.Leads n ⟨frameFor g info vs f.calls f.depth, K', counted m⟩ r fun x st =>
        img.Returns K' x.value st ∧ P x st.machine) :
    img.Leads (n + 1) ⟨f, K, m⟩ r fun x st => ∃ f' m', st = ⟨f', K, m'⟩ ∧ img.Stands c' f' ∧
      f'.regs = f.regs.insert (.inst h) (callResult t x.value) ∧ P x m' := by
  obtain ⟨fi, hfi, rfl⟩ := Option.map_eq_some_iff.1 hF
  have hsize : fi.blocks.size ≠ 0 := fun h0 => hbody (by simpa [FuncInfo.code] using h0)
  refine hst.executes e hfit rfl fun more info hinfo hinst hty hlim hstep hnext => ?_
  have hexec : img.step { f with rest := some (h :: more) } K m =
      img.invoke { f with rest := some (h :: more) } K h more info.ty g vs (counted m) := by
    rw [hstep]
    refine executes_call hlim hinfo hinst rfl (evalAll_of_values ?_)
    exact hargs.imp fun v x hv => by cases v <;> exact hv
  have hresolve : img.resolve g fi = (g, fi) := by simp [resolve, hsize]
  by_cases hdepth : maxCallDepth < f.depth + 1
  · refine .limited (.inr ⟨counted m, ?_⟩)
    rw [hexec]
    simp only [invoke, hfi, hresolve, hsize, hdepth]
    rfl
  · have hgo : img.step { f with rest := some (h :: more) } K m =
        .ok (.go (frameFor g fi vs f.calls f.depth) ({ f with rest := some (h :: more) } :: K)) (counted m) := by
      rw [hexec]
      simp only [invoke, hfi, hresolve, hsize, hdepth]
      rfl
    refine .later (after_one_of hgo) ?_
    have hinner := hrun fi ({ f with rest := some (h :: more) } :: K) hfi
    obtain ⟨j, st', hj, hend⟩ := hinner
    rcases hend with hlimit | hmeets
    · exact ⟨j, st', hj, .inl hlimit⟩
    rcases r with (_ | _ | _) | x
    · exact ⟨j, st', hj, .inr hmeets⟩
    · exact hmeets.elim
    · exact ⟨j, st', hj, .inr hmeets⟩
    · obtain ⟨hret, hP⟩ := hmeets
      obtain ⟨f2, cs, m2⟩ := st'
      cases hret.callers
      refine .after hj (.after (after_one_of (g := f.finish h more (callResult t x.value)) (K := K) (m := m2)
        ?_)
        (.ok ?_))
      · rw [hret.step]
        simp only [giveBack, hinfo, Option.elim_some, hty]
        rfl
      · exact ⟨_, m2, rfl, hnext _ rfl rfl, rfl, hP⟩

end Moves

end Arbor.Run.Image
