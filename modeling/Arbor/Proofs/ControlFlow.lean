import Arbor.Proofs.Loading

/-! The control flow of loaded modules: every block ends, branches stay inside functions, phis come
first in their blocks and name the blocks that jump there. -/

namespace Arbor.IR.Store

def Belongs (s : Store) (m f b : Handle) : Prop :=
  ∃ M F, s.module? m = some M ∧ f ∈ M.funcs ∧ s.func? f = some F ∧ b ∈ F.blocks

def Jumps (s : Store) (p b : Handle) : Prop :=
  ∃ B e, s.block? p = some B ∧ B.ending = some e ∧ b ∈ e.terminator.successors

def PhiIs (s : Store) (h : Handle) (edges : List (Operand × Handle)) : Prop :=
  ∃ i, s.inst? h = some i ∧ i.inst = .phi edges

/-- The control flow of a module is well-formed. -/
structure Structured (s : Store) (m : Handle) : Prop where
  ended : ∀ f b, s.Belongs m f b → ∃ B e, s.block? b = some B ∧ B.ending = some e
  orderly : ∀ v ∈ s.violations, v.module ≠ m
  targets : ∀ f b g, s.Belongs m f b → s.Jumps b g → s.Belongs m f g
  sources : ∀ f b B h edges v p, s.Belongs m f b → s.block? b = some B → h ∈ B.insts → s.PhiIs h edges →
    (v, p) ∈ edges → s.Belongs m f p
  phisFirst : ∀ f b B, s.Belongs m f b → s.block? b = some B → ∃ l1 l2, B.insts.toList = l1 ++ l2 ∧
    (∀ h ∈ l1, ∃ edges, s.PhiIs h edges) ∧ ∀ h ∈ l2, ∀ edges, ¬s.PhiIs h edges
  /-- A phi names the blocks that jump to its block and no other. -/
  preds : ∀ f b B h edges, s.Belongs m f b → s.block? b = some B → h ∈ B.insts → s.PhiIs h edges →
    ∀ p, (∃ v, (v, p) ∈ edges) ↔ s.Jumps p b

variable {s : Store} {m : Handle}

lemma jumps_iff : s.Jumps p b ↔ s.code.Edge p b := by
  constructor
  · rintro ⟨B, e, hB, he, hb⟩
    exact ⟨B.code, e.terminator, block?_code hB, congrArg (Option.map Ending.terminator) he, hb⟩
  · rintro ⟨_, t, hB, ht, hb⟩
    obtain ⟨B, hB', rfl⟩ := Option.map_eq_some_iff.1 hB
    obtain ⟨e, he, rfl⟩ := Option.map_eq_some_iff.1 ht
    exact ⟨B, e, hB', he, hb⟩

lemma phiIs_iff : s.PhiIs h edges ↔ ∃ t, s.code.insts h = some (.phi edges, t) := by
  simp only [code, Option.map_eq_some_iff]
  constructor
  · rintro ⟨i, hi, he⟩
    exact ⟨i.ty, i, hi, by rw [he]⟩
  · rintro ⟨t, i, hi, he⟩
    exact ⟨i, hi, congrArg Prod.fst he⟩

lemma isPhi_iff_phiIs : s.code.IsPhi h ↔ ∃ edges, s.PhiIs h edges := by
  simp only [phiIs_iff, Code.IsPhi]

lemma Structured.verdict (h : s.Structured m) (hM : s.module? m = some M)
    (hd : M.dropped = false) : Build.Act.verdict s m = none := by
  have hdefects : s.defects m M = [] := by
    simp only [defects, List.append_eq_nil_iff, List.flatMap_eq_nil_iff, List.map_eq_nil_iff,
      List.filter_eq_nil_iff, List.mem_filterMap]
    refine ⟨?_, fun v hv => by simpa using h.orderly v (by simpa using hv)⟩
    rintro F ⟨f, hf, hF⟩
    simp only [openBlocks, List.filterMap_eq_nil_iff]
    intro b hb
    obtain ⟨B, e, hB, he⟩ := h.ended f b ⟨M, F, hM, by simpa using hf, hF, by simpa using hb⟩
    simp [hB, he]
  simp [Build.Act.verdict, hM, hd, hdefects]

end Arbor.IR.Store

namespace Arbor.Build

open IR Diag Proofs Lower IR.Code Arbor.Tree Store

variable {σ : Type} {w w' : World σ} {m : Handle}

lemma Finished.fresh (hg : Good w) (h : Finished w m w') (hb : w'.store.Belongs m f b) :
    w.store.code.blocks b = none ∧ ∃ B, w'.store.block? b = some B ∧ B.func = f := by
  obtain ⟨M, F, hM, hf, hF, hbF⟩ := hb
  have hwf := h.step.store.wf hg.store
  have hmod := hwf.entries m
  rw [module?_eq_some.1 hM] at hmod
  obtain ⟨F', hF', hFm⟩ := hmod.1 f (by simpa using hf)
  cases (func?_eq_some.1 hF).symm.trans hF'
  have hfunc := hwf.entries f
  rw [hF'] at hfunc
  obtain ⟨B, hB, hBf⟩ := hfunc.2.2.1 b (by simpa using hbF)
  refine ⟨?_, B, block?_eq_some.2 hB, hBf⟩
  -- A block that was there would be in a function that was there, and its module would be older.
  cases hx : w.store.block? b with
  | none => simp only [code, hx, Option.map_none]
  | some B0 =>
    obtain ⟨B', hB', hle⟩ := h.step.store.block (block?_eq_some.1 hx)
    cases hB.symm.trans hB'
    have hold := hg.store.entries b
    rw [block?_eq_some.1 hx] at hold
    obtain ⟨⟨F0, hF0, -⟩, -⟩ := hold
    obtain ⟨F1, hF1, hleF⟩ := h.step.store.func hF0
    rw [← hle.func, hBf] at hF1 hF0
    cases hF'.symm.trans hF1
    have holdF := hg.store.entries f
    rw [hF0] at holdF
    obtain ⟨⟨m0, hm0, -⟩, -⟩ := holdF
    rw [← hleF.module, hFm] at hm0
    exact absurd h.new (Nat.not_le_of_lt (lt_size_of_entry_ne (by rw [hm0]; simp)))

lemma edge_block {s : Store} (hs : s.WF) (h : s.code.Edge p b) : ∃ B, s.code.blocks b = some B := by
  obtain ⟨B, e, hB, he, hb⟩ := jumps_iff.2 h
  have hok := hs.entries p
  rw [block?_eq_some.1 hB] at hok
  obtain ⟨B', hB'⟩ := (hok.2.2 e he).2 b hb
  exact ⟨B'.code, block?_code (block?_eq_some.2 hB')⟩

lemma Finished.wired (hg : Good w) (h : Finished w m w') :
    w'.store.code.Wired fun b => w.store.code.blocks b = none := by
  have none_of : ∀ {b : Handle} {B : BlockCode} {P : Prop}, w.store.code.blocks b = none →
      w.store.code.blocks b = some B → P := fun h h' => by cases h.symm.trans h'
  refine h.framed.wired _ (fun b hb => hb) ⟨fun b B g hb hB _ => none_of hb hB, fun b B s hb hB _ => none_of hb hB,
    fun p b _ he hb => ?_, fun b B hb hB => none_of hb hB, fun b B g edges t hb hB _ _ => none_of hb hB⟩
  obtain ⟨B, hB⟩ := edge_block hg.store he
  exact none_of hb hB

lemma Finished.structured (hg : Good w) (h : Finished w m w') : w'.store.Structured m := by
  have hw := h.wired hg
  have hwf := h.step.store.wf hg.store
  have hblock : ∀ {b B}, w'.store.block? b = some B → w'.store.code.blocks b = some B.code := block?_code
  -- A block of the same function belongs to the module too.
  have hsame : ∀ {f b g : Handle} {B : BlockCode}, w'.store.Belongs m f b → w'.store.code.blocks g = some B →
      B.func = f → w'.store.Belongs m f g := by
    intro f b g B hb hg' hBf
    obtain ⟨M, F, hM, hf, hF, -⟩ := hb
    simp only [code, Option.map_eq_some_iff] at hg'
    obtain ⟨G, hG, rfl⟩ := hg'
    have hok := hwf.entries g
    rw [block?_eq_some.1 hG] at hok
    obtain ⟨⟨F', hF', hmem⟩, -⟩ := hok
    rw [show G.func = f from hBf, func?_eq_some.1 hF] at hF'
    cases hF'
    exact ⟨M, F, hM, hf, hF, by simpa using hmem⟩
  have hinside : ∀ {f b p : Handle}, w'.store.Belongs m f b → w'.store.Jumps p b → w'.store.Belongs m f p := by
    intro f b p hb hj
    obtain ⟨hnew, B, hB, hBf⟩ := h.fresh hg hb
    have he := jumps_iff.1 hj
    have hp : w.store.code.blocks p = none := by
      by_contra hp
      exact hw.outside p b hp he hnew
    obtain ⟨P, e, hP, -, -⟩ := hj
    obtain ⟨B', hB', hfunc⟩ := hw.within p P.code b hp (hblock hP) he
    cases Option.some.inj ((hblock hB).symm.trans hB')
    exact hsame hb (hblock hP) (hfunc.symm.trans hBf)
  have hpreds : ∀ f b B x edges, w'.store.Belongs m f b → w'.store.block? b = some B → x ∈ B.insts →
      w'.store.PhiIs x edges → ∀ p, (∃ v, (v, p) ∈ edges) ↔ w'.store.Jumps p b := by
    intro f b B x edges hb hB hx hphi p
    obtain ⟨t, ht⟩ := phiIs_iff.1 hphi
    rw [hw.preds b B.code x edges t (h.fresh hg hb).1 (hblock hB) (by simpa [BlockInfo.code] using hx) ht p, jumps_iff]
  refine ⟨fun f b hb => ?_, fun v hv => ?_, fun f b g hb hj => ?_, fun f b B x edges v p hb hB hx hphi hp => ?_,
    fun f b B hb hB => ?_, hpreds⟩
  · obtain ⟨hnew, B, hB, -⟩ := h.fresh hg hb
    cases he : B.ending with
    | some e => exact ⟨B, e, hB, he⟩
    | none =>
      obtain ⟨B0, hB0, -⟩ := h.framed.opened b ⟨B.code, hblock hB, by simp [BlockInfo.code, he]⟩
      cases hnew.symm.trans hB0
  · have hviol : w'.store.violations = w.store.violations := h.framed.violations
    exact Nat.ne_of_lt (Nat.lt_of_lt_of_le (hg.store.violations v (hviol ▸ hv)) h.new)
  · obtain ⟨hnew, B, hB, hBf⟩ := h.fresh hg hb
    obtain ⟨G, hG, hfunc⟩ := hw.within b B.code g hnew (hblock hB) (jumps_iff.1 hj)
    exact hsame hb hG (hfunc.trans hBf)
  · exact hinside hb ((hpreds f b B x edges hb hB hx hphi p).1 ⟨v, hp⟩)
  · obtain ⟨l1, l2, hl, h1, h2⟩ := hw.order b B.code (h.fresh hg hb).1 (hblock hB)
    refine ⟨l1, l2, hl, fun x hx => isPhi_iff_phiIs.1 (h1 x hx), fun x hx edges he => ?_⟩
    exact h2 x hx (isPhi_iff_phiIs.2 ⟨edges, he⟩)

/-- The names and sources of what can be loaded: the modules that are always there, and lowered ones. -/
inductive Source (σ : Type) : Text → (Handle → Act σ Unit) → Prop where
  | cstd : Source σ cstdName Act.fillCstd
  | core : Source σ coreName Act.fillCore
  | lowered {cancelled : Act σ Bool} (hc : Act.Aside cancelled) (src : Tree.Module) :
      Source σ src.name fun m => passes m src cancelled

lemma Source.fills (h : Source σ name fill) : Act.Fills fill := by
  intro w m hw
  cases h with
  | cstd =>
    have hall := (Act.declareAll_along cstdFuncs hw).bind fun _ w1 _ hw1 => Act.exportAll_along hw1
    exact (hall.mono fun _ _ r _ => r.framed).weaken fun _ r => r.toStep
  | core => exact ((Act.fillCore_along hw).mono fun _ _ r _ => r.framed).weaken fun _ r => r.toStep
  | lowered hc src => exact passes_along hc hw src

/-- The worlds that loading leads to from one in which nothing was built; loads may fail. -/
inductive Reachable : World σ → Prop where
  | start {w : World σ} (hs : w.store = .initial) (hm : w.modules = ∅) : Reachable w
  | load {w : World σ} {name : Text} {fill : Handle → Act σ Unit} (h : Reachable w) (hsrc : Source σ name fill) :
      Reachable (endState (Act.loadModule name (Act.building name fill) w))
  | aside {w : World σ} {α : Type} {a : Act σ α} (h : Reachable w) (ha : Act.Aside a) : Reachable (endState (a w))

lemma entry_primitive : ∀ p ∈ primitiveHandles, initial.entry p.2 = .type p.1.2 ∧ p.1.2.structs = [] ∧
    initial.Keyed p.1.2 p.1.1 := by
  intro p hp
  simp only [show primitiveHandles = [((.void, .void), 1), ((.int .w8, .i8), 2), ((.int .w16, .i16), 3),
    ((.int .w32, .i32), 4), ((.int .w64, .i64), 5), ((.float .single, .f32), 6), ((.float .double, .f64), 7),
    ((.int .w1, .bool), 8), ((.label, .label), 9), ((.ptr 2, .bytes), 10)] from rfl, List.mem_cons, List.not_mem_nil,
    or_false] at hp
  rcases hp with rfl | rfl | rfl | rfl | rfl | rfl | rfl | rfl | rfl | rfl
  all_goals exact ⟨rfl, rfl, by constructor <;> rfl⟩

lemma entry_initial (h) : initial.entry h = .reserved ∨ ∃ p, (p, h) ∈ primitiveHandles ∧ initial.entry h = .type p.2 := by
  by_cases hh : h ∈ primitiveHandles.map Prod.snd
  · obtain ⟨⟨p, k⟩, hmem, rfl⟩ := List.mem_map.1 hh
    exact .inr ⟨p, hmem, (entry_primitive _ hmem).1⟩
  · left
    rw [show primitiveHandles.map Prod.snd = (List.range 10).map (· + 1) from rfl, List.mem_map] at hh
    rcases h with _ | h
    · rfl
    · refine entry_of_size_le (Nat.le_of_not_lt fun hlt => hh ⟨h, ?_, rfl⟩)
      exact List.mem_range.2 (Nat.lt_of_succ_lt_succ hlt)

lemma initial_wf : initial.WF where
  reserved := rfl
  size_pos := by decide
  entries h := by
    rcases entry_initial h with hentry | ⟨p, hmem, hentry⟩
    · rw [hentry]
      trivial
    · obtain ⟨-, hstructs, hkeyed⟩ := entry_primitive _ hmem
      rw [hentry]
      exact ⟨⟨_, hkeyed, (initial_types_iff _ _).2 ⟨_, hmem⟩⟩, fun k hk => by simp [hstructs] at hk⟩
  types key h hh := by
    obtain ⟨t, ht⟩ := (initial_types_iff key h).1 hh
    exact ⟨t, (entry_primitive _ ht).1, (entry_primitive _ ht).2.2⟩
  values v h hv := by simp [initial] at hv
  violations v hv := by simp [initial] at hv

lemma Reachable.good (h : Reachable w) : Good w := by
  induction h with
  | start hs hm =>
    refine ⟨hs ▸ initial_wf, ?_, ?_, ?_, ?_⟩
    all_goals
      intro m M hM
      simp [hm] at hM
  | load h hsrc ih => exact (Act.loadModule_along ih _ hsrc.fills).endState ih
  | aside h ha ih => exact ha.silent.endState.good ih

/-- A module that loads has well-formed control flow, and verification accepts it. -/
theorem load_structured (w : { w : World σ // Reachable w }) (cancelled : { a : Act σ Bool // Act.Aside a })
    (src : Tree.Module) : match Act.loadModule src.name (Lower.build cancelled.1 src) w.1 with
    | .ok m w' => Act.verify m w' = .ok () w' ∧ w'.store.Structured m
    | .error _ _ => True := by
  have h := Act.loadModule_along w.2.good src.name (Source.lowered cancelled.2 src).fills
  unfold Along at h
  unfold Lower.build
  split
  · next m w' hx =>
    rw [hx] at h
    obtain ⟨-, hfin⟩ := h
    have hs := hfin.structured w.2.good
    obtain ⟨M, hM, hd⟩ := hfin.alive
    refine ⟨?_, hs⟩
    unfold Act.verify
    rw [Act.store, bind_assoc, get_bind_apply]
    simp only [pure_bind, hs.verdict hM hd]
    rfl
  · trivial

end Arbor.Build
