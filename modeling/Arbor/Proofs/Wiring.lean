import Arbor.Proofs.Pending

/-! The control flow of code. `Wired` says that branches stay inside functions, that phis come first in
their blocks and that each names the blocks that jump to it. -/

namespace Arbor.IR

open Option List Function

variable {B B' : BlockCode} {b f p : Handle}
variable {P : Handle → Prop} {target : Handle}

namespace Code

def Edge (c : Code) (p b : Handle) : Prop := ∃ B t, c.blocks p = some B ∧ B.ending = some t ∧ b ∈ t.successors

def IsPhi (c : Code) (h : Handle) : Prop := ∃ edges t, c.insts h = some (.phi edges, t)

def Clean (c : Code) (f b : Handle) : Prop :=
  ∃ B, c.blocks b = some B ∧ B.func = f ∧ ∀ h ∈ B.insts, (∃ x, c.insts h = some x) ∧ ¬c.IsPhi h

def At (c : Code) (f : Handle) : Prop := ∃ b B, c.active = some b ∧ c.blocks b = some B ∧ B.func = f

/-- Control flow between the blocks that `P` holds of. -/
structure Wired (P : Handle → Prop) (c : Code) : Prop where
  known : ∀ b B h, P b → c.blocks b = some B → h ∈ B.insts → ∃ x, c.insts h = some x
  within : ∀ b B s, P b → c.blocks b = some B → c.Edge b s → ∃ B', c.blocks s = some B' ∧ B'.func = B.func
  outside : ∀ p b, ¬P p → c.Edge p b → ¬P b
  order : ∀ b B, P b → c.blocks b = some B → ∃ l1 l2, B.insts = l1 ++ l2 ∧ (∀ h ∈ l1, c.IsPhi h) ∧ ∀ h ∈ l2, ¬c.IsPhi h
  preds : ∀ b B h edges t, P b → c.blocks b = some B → h ∈ B.insts → c.insts h = some (.phi edges, t) →
    ∀ p, (∃ v, (v, p) ∈ edges) ↔ c.Edge p b

abbrev Sub (c c' : Code) : Prop := ∀ h x, c.insts h = some x → c'.insts h = some x

variable {c c' : Code} {h : Handle} {t : Ty}

namespace Emits

lemma block_of (e : c.Emits h i t c') (hB : c.blocks b = some B) :
    c'.blocks b = some B ∨ c.active = some b ∧ B.ending = none ∧
      c'.blocks b = some { B with insts := B.insts ++ [h] } := by
  obtain ⟨a, A, hcur, rfl⟩ := e.cursor
  by_cases hba : b = a
  · subst hba
    cases mem_unique hcur.block hB
    exact .inr ⟨hcur.active, hcur.opened, update_self ..⟩
  · exact .inl ((update_of_ne hba ..).trans hB)

lemma block_back (e : c.Emits h i t c') (hB : c'.blocks b = some B') :
    c.blocks b = some B' ∨ ∃ B, c.active = some b ∧ c.blocks b = some B ∧ B.ending = none ∧
      B' = { B with insts := B.insts ++ [h] } := by
  obtain ⟨a, A, hcur, rfl⟩ := e.cursor
  by_cases hba : b = a
  · subst hba
    cases (update_self ..).symm.trans hB
    exact .inr ⟨A, hcur.active, hcur.block, hcur.opened, rfl⟩
  · exact .inl ((update_of_ne hba ..).symm.trans hB)

lemma edge_iff (e : c.Emits h i t c') : c'.Edge p b ↔ c.Edge p b := by
  constructor
  · rintro ⟨B, u, hB, hu, hb⟩
    rcases e.block_back hB with hB | ⟨B, -, hB, hopen, rfl⟩
    · exact ⟨B, u, hB, hu, hb⟩
    · cases hopen.symm.trans hu
  · rintro ⟨B, u, hB, hu, hb⟩
    rcases e.block_of hB with hB | ⟨-, hopen, -⟩
    · exact ⟨B, u, hB, hu, hb⟩
    · cases hopen.symm.trans hu

lemma isPhi_iff (e : c.Emits h i t c') (hg : ∃ x, c.insts g = some x) : c'.IsPhi g ↔ c.IsPhi g := by
  obtain ⟨x, hx⟩ := hg
  have hx' := e.inst_mono hx
  constructor
  all_goals
    rintro ⟨edges, u, hu⟩
    first
      | exact ⟨edges, u, (mem_unique hx' hu) ▸ hx⟩
      | exact ⟨edges, u, (mem_unique hx hu) ▸ hx'⟩

end Emits

lemma Wired.emits (hw : c.Wired P) (e : c.Emits h i t c')
    (hphi : ∀ edges, i = .phi edges → ∀ a A, c.active = some a → c.blocks a = some A →
      A.insts = [] ∧ ∀ p, (∃ v, (v, p) ∈ edges) ↔ c.Edge p a) : c'.Wired P where
  known b B g hb hB hg := by
    rcases e.block_back hB with hA | ⟨A, -, hA, -, rfl⟩
    · obtain ⟨x, hx⟩ := hw.known b B g hb hA hg
      exact ⟨x, e.inst_mono hx⟩
    · rcases mem_append.1 hg with hg | hg
      · obtain ⟨x, hx⟩ := hw.known b A g hb hA hg
        exact ⟨x, e.inst_mono hx⟩
      · rw [mem_singleton.1 hg]
        exact ⟨_, e.inst_self⟩
  within b B s hb hB hs := by
    have hback : ∃ A, c.blocks b = some A ∧ B.func = A.func := by
      rcases e.block_back hB with hA | ⟨A, -, hA, -, rfl⟩
      · exact ⟨B, hA, rfl⟩
      · exact ⟨A, hA, rfl⟩
    obtain ⟨A, hA, hfunc⟩ := hback
    obtain ⟨B', hB', hf⟩ := hw.within b A s hb hA (e.edge_iff.1 hs)
    rcases e.block_of hB' with hB' | ⟨-, -, hB'⟩
    · exact ⟨B', hB', hf.trans hfunc.symm⟩
    · exact ⟨_, hB', hf.trans hfunc.symm⟩
  outside p b hp hb := hw.outside p b hp (e.edge_iff.1 hb)
  order b B hb hB := by
    have hold : ∀ A, c.blocks b = some A → ∃ l1 l2, A.insts = l1 ++ l2 ∧ (∀ g ∈ l1, c'.IsPhi g) ∧
        ∀ g ∈ l2, ¬c'.IsPhi g := by
      intro A hA
      obtain ⟨l1, l2, hl, h1, h2⟩ := hw.order b A hb hA
      have hiff : ∀ g ∈ A.insts, c'.IsPhi g ↔ c.IsPhi g := fun g hg => e.isPhi_iff (hw.known b A g hb hA hg)
      rw [hl] at hiff
      exact ⟨l1, l2, hl, fun g hg => (hiff g (mem_append_left _ hg)).2 (h1 g hg),
        fun g hg => mt (hiff g (mem_append_right _ hg)).1 (h2 g hg)⟩
    rcases e.block_back hB with hA | ⟨A, ha, hA, -, rfl⟩
    · exact hold B hA
    · obtain ⟨l1, l2, hl, h1, h2⟩ := hold A hA
      by_cases hh : c'.IsPhi h
      · -- A phi goes into an empty block.
        obtain ⟨edges, u, hu⟩ := hh
        cases mem_unique e.inst_self hu
        refine ⟨[h], [], by rw [(hphi edges rfl b A ha hA).1]; rfl, fun g hg => ?_, nofun⟩
        rw [mem_singleton.1 hg]
        exact ⟨edges, _, hu⟩
      · refine ⟨l1, l2 ++ [h], by rw [hl, append_assoc], h1, fun g hg => ?_⟩
        rcases mem_append.1 hg with hg | hg
        · exact h2 g hg
        · rwa [mem_singleton.1 hg]
  preds b B g edges u hb hB hg hu p := by
    rw [e.edge_iff]
    have hold : ∀ A, c.blocks b = some A → g ∈ A.insts → ((∃ v, (v, p) ∈ edges) ↔ c.Edge p b) := by
      intro A hA hg
      obtain ⟨x, hx⟩ := hw.known b A g hb hA hg
      cases Option.some.inj ((e.inst_mono hx).symm.trans hu)
      exact hw.preds b A g edges u hb hA hg hx p
    rcases e.block_back hB with hA | ⟨A, ha, hA, -, rfl⟩
    · exact hold B hA hg
    · rcases mem_append.1 hg with hg | hg
      · exact hold A hA hg
      · rw [mem_singleton.1 hg, e.inst_self] at hu
        cases hu
        exact (hphi edges rfl b A ha hA).2 p

lemma Ends.block_of (e : c.Ends u c') (hB : c.blocks b = some B) :
    c'.blocks b = some B ∧ c.active ≠ some b ∨ c.active = some b ∧ B.ending = none ∧
      c'.blocks b = some { B with ending := some u } := by
  obtain ⟨a, A, hcur, rfl⟩ := e
  by_cases hba : b = a
  · subst hba
    cases mem_unique hcur.block hB
    exact .inr ⟨hcur.active, hcur.opened, update_self ..⟩
  · exact .inl ⟨(update_of_ne hba ..).trans hB, fun h => hba (mem_unique h hcur.active)⟩

lemma Ends.block_back (e : c.Ends u c') (hB : c'.blocks b = some B') :
    c.blocks b = some B' ∧ c.active ≠ some b ∨ ∃ B, c.active = some b ∧ c.blocks b = some B ∧ B.ending = none ∧
      B' = { B with ending := some u } := by
  obtain ⟨a, A, hcur, rfl⟩ := e
  by_cases hba : b = a
  · subst hba
    cases (update_self ..).symm.trans hB
    exact .inr ⟨A, hcur.active, hcur.block, hcur.opened, rfl⟩
  · exact .inl ⟨(update_of_ne hba ..).symm.trans hB, fun h => hba (mem_unique h hcur.active)⟩

lemma Ends.block_was (e : c.Ends u c') (hB : c'.blocks b = some B) :
    ∃ A, c.blocks b = some A ∧ B.func = A.func ∧ B.insts = A.insts := by
  rcases e.block_back hB with ⟨hA, -⟩ | ⟨A, -, hA, -, rfl⟩
  · exact ⟨B, hA, rfl, rfl⟩
  · exact ⟨A, hA, rfl, rfl⟩

lemma Ends.insts_eq (e : c.Ends u c') : c'.insts = c.insts := by
  obtain ⟨a, A, -, rfl⟩ := e
  rfl

lemma Ends.active_eq (e : c.Ends u c') : c'.active = c.active := by
  obtain ⟨a, A, -, rfl⟩ := e
  rfl

lemma Ends.edge_iff (e : c.Ends u c') : c'.Edge p b ↔ c.Edge p b ∨ c.active = some p ∧ b ∈ u.successors := by
  constructor
  · rintro ⟨B', v, hB', hv, hb⟩
    rcases e.block_back hB' with ⟨hB, -⟩ | ⟨B, ha, hB, -, rfl⟩
    · exact .inl ⟨B', v, hB, hv, hb⟩
    · cases hv
      exact .inr ⟨ha, hb⟩
  · rintro (⟨B, v, hB, hv, hb⟩ | ⟨ha, hb⟩)
    · rcases e.block_of hB with ⟨hB', -⟩ | ⟨-, hopen, -⟩
      · exact ⟨B, v, hB', hv, hb⟩
      · cases hopen.symm.trans hv
    · obtain ⟨a, A, hcur, rfl⟩ := e
      cases mem_unique hcur.active ha
      exact ⟨_, u, update_self .., rfl, hb⟩

lemma isPhi_congr (h : c'.insts = c.insts) : c'.IsPhi g ↔ c.IsPhi g := by
  unfold IsPhi
  rw [h]

lemma Wired.ends (hw : c.Wired P) (e : c.Ends u c')
    (hf : ∀ a A, c.active = some a → c.blocks a = some A → A.func = f) (ha : ∀ a, c.active = some a → P a)
    (hclean : ∀ s ∈ u.successors, c.Clean f s) : c'.Wired P where
  known b B g hb hB hg := by
    obtain ⟨A, hA, -, hinsts⟩ := e.block_was hB
    exact e.insts_eq ▸ hw.known b A g hb hA (hinsts ▸ hg)
  within b B s hb hB hs := by
    have hfunc : ∀ {x X}, c.blocks x = some X → ∃ X', c'.blocks x = some X' ∧ X'.func = X.func := by
      intro x X hX
      rcases e.block_of hX with ⟨hX, -⟩ | ⟨-, -, hX⟩
      · exact ⟨X, hX, rfl⟩
      · exact ⟨_, hX, rfl⟩
    obtain ⟨A, hA, hBA, -⟩ := e.block_was hB
    rcases e.edge_iff.1 hs with hs | ⟨hact, hs⟩
    · obtain ⟨T, hT, hTf⟩ := hw.within b A s hb hA hs
      obtain ⟨T', hT', hTf'⟩ := hfunc hT
      exact ⟨T', hT', hTf'.trans (hTf.trans hBA.symm)⟩
    · obtain ⟨T, hT, hTf, -⟩ := hclean s hs
      obtain ⟨T', hT', hTf'⟩ := hfunc hT
      exact ⟨T', hT', hTf'.trans (hTf.trans ((hf b A hact hA).symm.trans hBA.symm))⟩
  outside p b hp hb := by
    rcases e.edge_iff.1 hb with hb | ⟨hact, -⟩
    · exact hw.outside p b hp hb
    · exact absurd (ha p hact) hp
  order b B hb hB := by
    obtain ⟨A, hA, -, hinsts⟩ := e.block_was hB
    simp only [isPhi_congr e.insts_eq, hinsts]
    exact hw.order b A hb hA
  preds b B g edges v hb hB hg hv p := by
    rw [e.insts_eq] at hv
    obtain ⟨A, hA, -, hinsts⟩ := e.block_was hB
    have hgA := hinsts ▸ hg
    rw [e.edge_iff, hw.preds b A g edges v hb hA hgA hv p, iff_self_or]
    rintro ⟨-, hs⟩
    obtain ⟨T, hT, -, hphi⟩ := hclean b hs
    cases mem_unique hA hT
    exact absurd ⟨edges, v, hv⟩ (hphi g hgA).2

section

variable (e : c.Opens h f c')

include e

lemma Opens.block_self : c'.blocks h = some { func := f } := by
  obtain ⟨F, -, rfl⟩ := e.added
  exact update_self ..

lemma Opens.block_of_ne (hb : b ≠ h) : c'.blocks b = c.blocks b := by
  obtain ⟨F, -, rfl⟩ := e.added
  exact update_of_ne hb ..

lemma Opens.block_of (hB : c.blocks b = some B) : c'.blocks b = some B := by
  rw [e.block_of_ne, hB]
  rintro rfl
  cases e.freshBlock.symm.trans hB

lemma Opens.insts_eq : c'.insts = c.insts := by
  obtain ⟨F, -, rfl⟩ := e.added
  rfl

lemma Opens.violations_eq : c'.violations = c.violations := by
  obtain ⟨F, -, rfl⟩ := e.added
  rfl

lemma Opens.edge_iff : c'.Edge p b ↔ c.Edge p b := by
  constructor
  · rintro ⟨B, u, hB, hu, hb⟩
    by_cases hp : p = h
    · subst hp
      cases e.block_self.symm.trans hB
      cases hu
    · exact ⟨B, u, (e.block_of_ne hp).symm.trans hB, hu, hb⟩
  · rintro ⟨B, u, hB, hu, hb⟩
    exact ⟨B, u, e.block_of hB, hu, hb⟩

end

lemma Wired.opens (hw : c.Wired P) (e : c.Opens h f c') : c'.Wired P where
  known b B g hb hB hg := by
    rw [e.insts_eq]
    by_cases hbh : b = h
    · subst hbh
      cases e.block_self.symm.trans hB
      cases hg
    · exact hw.known b B g hb ((e.block_of_ne hbh).symm.trans hB) hg
  within b B s hb hB hs := by
    have hs' := e.edge_iff.1 hs
    by_cases hbh : b = h
    · subst hbh
      obtain ⟨B', u, hB', -⟩ := hs'
      cases e.freshBlock.symm.trans hB'
    · obtain ⟨B', hB', hf⟩ := hw.within b B s hb ((e.block_of_ne hbh).symm.trans hB) hs'
      exact ⟨B', e.block_of hB', hf⟩
  outside p b hp hb := hw.outside p b hp (e.edge_iff.1 hb)
  order b B hb hB := by
    simp only [isPhi_congr e.insts_eq]
    by_cases hbh : b = h
    · subst hbh
      cases e.block_self.symm.trans hB
      exact ⟨[], [], rfl, nofun, nofun⟩
    · exact hw.order b B hb ((e.block_of_ne hbh).symm.trans hB)
  preds b B g edges v hb hB hg hv p := by
    rw [e.insts_eq] at hv
    rw [e.edge_iff]
    by_cases hbh : b = h
    · subst hbh
      cases e.block_self.symm.trans hB
      cases hg
    · exact hw.preds b B g edges v hb ((e.block_of_ne hbh).symm.trans hB) hg hv p

lemma Wired.congr (hw : c.Wired P) (hb : c'.blocks = c.blocks) (hi : c'.insts = c.insts) : c'.Wired P := by
  have hedge : ∀ p b, c'.Edge p b ↔ c.Edge p b := by
    intro p b
    unfold Edge
    rw [hb]
  have hphi : ∀ g, c'.IsPhi g ↔ c.IsPhi g := fun g => isPhi_congr hi
  constructor
  all_goals simp only [hb, hi, hedge, hphi]
  exacts [hw.known, hw.within, hw.outside, hw.order, hw.preds]

lemma Wired.no_edge (hw : c.Wired P) (hb : c.blocks b = none) (hP : P b) : ¬c.Edge p b := by
  intro he
  by_cases hp : P p
  · obtain ⟨B, u, hB, -⟩ := id he
    obtain ⟨B', hB', -⟩ := hw.within p B b hp hB he
    cases hb.symm.trans hB'
  · exact hw.outside p b hp he hP

lemma Clean.ends (h : c.Clean f b) (e : c.Ends u c') : c'.Clean f b := by
  obtain ⟨B, hB, hf, hi⟩ := h
  have hi' : ∀ g ∈ B.insts, (∃ x, c'.insts g = some x) ∧ ¬c'.IsPhi g := by
    intro g hg
    rw [isPhi_congr e.insts_eq, e.insts_eq]
    exact hi g hg
  rcases e.block_of hB with ⟨hB', -⟩ | ⟨-, -, hB'⟩
  · exact ⟨B, hB', hf, hi'⟩
  · exact ⟨_, hB', hf, hi'⟩

lemma Clean.leaves (h : c.Clean f b) (e : Lower.Leaves c target c') : c'.Clean f b := by
  cases e with
  | ended => exact h
  | jump e => exact h.ends e

lemma isPhi_mono (hi : c.Sub c') (hg : ∃ x, c.insts g = some x) :
    c'.IsPhi g ↔ c.IsPhi g := by
  obtain ⟨x, hx⟩ := hg
  constructor
  · rintro ⟨edges, u, hu⟩
    exact ⟨edges, u, Option.some.inj ((hi g x hx).symm.trans hu) ▸ hx⟩
  · rintro ⟨edges, u, hu⟩
    exact ⟨edges, u, hi g _ hu⟩

end Code

end Arbor.IR
