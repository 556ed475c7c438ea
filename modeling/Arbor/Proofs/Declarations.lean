import Arbor.Proofs.ControlFlow

/-! What a module declares. A function that it calls by name is one of its own: either it is defined
there or a declaration was added for the call. -/

namespace Arbor.IR.Store

variable {s : Store} {m h : Handle}

def Runs (s : Store) (m h : Handle) (i : Inst) : Prop :=
  ∃ info f F b B I, s.module? m = some info ∧ f ∈ info.funcs.toList ∧ s.func? f = some F ∧
    b ∈ F.blocks.toList ∧ s.block? b = some B ∧ h ∈ B.insts.toList ∧ s.inst? h = some I ∧ I.inst = i

def DeclaresCallees (s : Store) (m : Handle) : Prop :=
  ∀ h d vs, s.Runs m h (.call (.func d) vs) → ∃ info, s.module? m = some info ∧ d ∈ info.funcs.toList

lemma WF.funcs_module (hs : s.WF) (hm : s.module? m = some info)
    (hmem : f ∈ info.funcs.toList) (hF : s.func? f = some F) : F.module = m := by
  have hok := hs.entries m
  rw [module?_eq_some.1 hm] at hok
  obtain ⟨F', hF', hmodule⟩ := hok.1 f hmem
  cases Entry.func.inj ((func?_eq_some.1 hF).symm.trans hF')
  exact hmodule

lemma WF.blocks_func (hs : s.WF) (hF : s.func? f = some F)
    (hmem : b ∈ F.blocks.toList) (hB : s.block? b = some B) : B.func = f := by
  have hok := hs.entries f
  rw [func?_eq_some.1 hF] at hok
  obtain ⟨B', hB', hfunc⟩ := hok.2.2.1 b hmem
  cases Entry.block.inj ((block?_eq_some.1 hB).symm.trans hB')
  exact hfunc

lemma WF.insts_block (hs : s.WF) (hB : s.block? b = some B)
    (hmem : h ∈ B.insts.toList) (hI : s.inst? h = some I) : I.block = b := by
  have hok := hs.entries b
  rw [block?_eq_some.1 hB] at hok
  obtain ⟨I', hI', hblock⟩ := hok.2.1 h hmem
  cases Entry.inst.inj ((inst?_eq_some.1 hI).symm.trans hI')
  exact hblock

lemma WF.mem_funcs (hs : s.WF) (hF : s.entry f = .func F) :
    ∃ info, s.module? F.module = some info ∧ f ∈ info.funcs.toList := by
  have hok := hs.entries f
  rw [hF] at hok
  obtain ⟨⟨info, hinfo, hmem⟩, -⟩ := hok
  exact ⟨info, module?_eq_some.2 hinfo, hmem⟩

lemma WF.declaresCallees (hs : s.WF) (m) : s.DeclaresCallees m := by
  rintro h d vs ⟨info, f, F, b, B, I, hm, hf, hF, hb, hB, hh, hI, hcall⟩
  have hok := hs.entries h
  rw [inst?_eq_some.1 hI] at hok
  obtain ⟨B', F', G, hB', hF', hG, hmodule⟩ := hok.2.2.2 d vs hcall
  -- The block and the function which the instruction knows are those it stands in.
  rw [hs.insts_block hB hh hI] at hB'
  cases Entry.block.inj ((block?_eq_some.1 hB).symm.trans hB')
  rw [hs.blocks_func hF hb hB] at hF'
  cases Entry.func.inj ((func?_eq_some.1 hF).symm.trans hF')
  obtain ⟨info', hinfo', hmem⟩ := hs.mem_funcs hG
  rw [hmodule, hs.funcs_module hm hf hF] at hinfo'
  exact ⟨info', hinfo', hmem⟩

end Arbor.IR.Store

namespace Arbor.Build

/-- Whatever was loaded, each module lists the functions that it calls by name. -/
theorem loaded_declaresCallees {σ : Type} (w : { w : World σ // Reachable w }) (m : IR.Handle) :
    w.1.store.DeclaresCallees m :=
  w.2.good.store.declaresCallees m

end Arbor.Build
