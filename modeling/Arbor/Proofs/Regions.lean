import Arbor.Proofs.Wiring

/-! `Region` is what lowering a part of a program may do to the code around it: only the active block and new
blocks change, and new jumps go to new blocks or to the targets of the loop around. -/

namespace Arbor.IR

open Option List Function

variable {B B' : BlockCode} {b f p : Handle}
variable {P : Handle → Prop} {target : Handle}

namespace Code

variable {c c' : Code} {h : Handle} {t : Ty}

structure Grown (c' : Code) (B B' : BlockCode) : Prop where
  func : B'.func = B.func
  insts : ∃ more, B'.insts = B.insts ++ more ∧ ∀ h ∈ more, (∃ x, c'.insts h = some x) ∧ ¬c'.IsPhi h
  ended : B.ending.isSome → B' = B

lemma Grown.refl (c : Code) (B) : c.Grown B B := ⟨rfl, ⟨[], (append_nil _).symm, nofun⟩, fun _ => rfl⟩

lemma Grown.congr (h : c.Grown B B') (hi : c'.insts = c.insts) : c'.Grown B B' := by
  obtain ⟨more, hmore, hm⟩ := h.insts
  refine ⟨h.func, ⟨more, hmore, fun g hg => ?_⟩, h.ended⟩
  rw [isPhi_congr hi, hi]
  exact hm g hg

lemma Grown.trans {c1 : Code} (hi : c1.Sub c2) (h : c1.Grown A B) (k : c2.Grown B D) : c2.Grown A D := by
  obtain ⟨more, hmore, hm⟩ := h.insts
  obtain ⟨more', hmore', hm'⟩ := k.insts
  refine ⟨k.func.trans h.func, ⟨more ++ more', by rw [hmore', hmore, append_assoc], fun g hg => ?_⟩, fun he => ?_⟩
  · rcases mem_append.1 hg with hg | hg
    · obtain ⟨⟨x, hx⟩, hp⟩ := hm g hg
      exact ⟨⟨x, hi g x hx⟩, mt (isPhi_mono hi ⟨x, hx⟩).1 hp⟩
    · exact hm' g hg
  · have hB := h.ended he
    rw [k.ended (hB ▸ he), hB]

end Code

structure FuncCode.Le (F G : FuncCode) : Prop where
  module : G.module = F.module
  ret : G.ret = F.ret
  params : G.params = F.params
  variadic : G.variadic = F.variadic
  blocks : F.blocks <+: G.blocks

lemma FuncCode.Le.refl (F : FuncCode) : F.Le F := ⟨rfl, rfl, rfl, rfl, prefix_refl _⟩

lemma FuncCode.Le.trans {F : FuncCode} (h : F.Le G) (k : G.Le H) : F.Le H :=
  ⟨k.module.trans h.module, k.ret.trans h.ret, k.params.trans h.params, k.variadic.trans h.variadic,
    h.blocks.trans k.blocks⟩

namespace Code

lemma Opens.func_of {c : Code} (e : c.Opens h f c') (hF : c.funcs g = some F) :
    ∃ F', c'.funcs g = some F' ∧ F.Le F' := by
  obtain ⟨G, hG, rfl⟩ := e.added
  by_cases hg : g = f
  · subst hg
    cases mem_unique hG hF
    exact ⟨_, update_self .., rfl, rfl, rfl, rfl, prefix_append ..⟩
  · exact ⟨F, (update_of_ne hg ..).trans hF, .refl F⟩

lemma Opens.func_elsewhere {c : Code} (e : c.Opens h f c') (hg : g ≠ f) (hF : c.funcs g = some F) :
    c'.funcs g = some F := by
  obtain ⟨G, -, rfl⟩ := e.added
  exact (update_of_ne hg ..).trans hF

lemma Opens.func_before {c : Code} (e : c.Opens h f c') (hg : g ≠ f) (hF : c'.funcs g = some F) :
    c.funcs g = some F := by
  obtain ⟨G, -, rfl⟩ := e.added
  exact (update_of_ne hg ..).symm.trans hF

/-- What lowering a part of a function does to the code. The blocks of `X` were opened and wait to be
filled; jumps go to new blocks or to those of `L`. -/
structure Region (f : Handle) (L X : List Handle) (c c' : Code) : Prop where
  insts : ∀ h x, c.insts h = some x → c'.insts h = some x
  funcs : ∀ h F, c.funcs h = some F → ∃ F', c'.funcs h = some F' ∧ F.Le F'
  other : ∀ b B, c.blocks b = some B → c.active ≠ some b → c'.blocks b = some B
  start : ∀ b B, c.active = some b → c.blocks b = some B → ∃ B', c'.blocks b = some B' ∧ c'.Grown B B'
  cursor : ∃ b B, c'.active = some b ∧ c'.blocks b = some B ∧ B.func = f ∧ (c.active = some b ∨ c.blocks b = none)
  nodup : X.Nodup
  own : ∀ x ∈ X, c.blocks x = none ∧ c'.blocks x = some { func := f } ∧ c'.active ≠ some x
  edges : ∀ p b, c'.Edge p b → c.Edge p b ∨ c.blocks b = none ∨ b ∈ L
  violations : c'.violations = c.violations
  wired : ∀ P, (∀ b, c.blocks b = none → P b) → (∀ b, c.active = some b → P b) → c.Wired P → c'.Wired P
  elsewhere : ∀ h F, h ≠ f → c.funcs h = some F → c'.funcs h = some F
  bare : ∀ h F, h ≠ f → c'.funcs h = some F → c.funcs h = some F ∨ F.blocks = []

namespace Region

variable {f : Handle}

lemma refl (hat : c.At f) : Region f L [] c c := by
  obtain ⟨b, B, ha, hB, hf⟩ := hat
  exact ⟨fun _ _ => id, fun h F hF => ⟨F, hF, .refl F⟩, fun _ _ hB _ => hB, fun _ B _ hB => ⟨B, hB, .refl c B⟩,
    ⟨b, B, ha, hB, hf, .inl ha⟩, .nil, nofun, fun _ _ => .inl, rfl, fun _ _ _ => id, fun _ _ _ => id,
    fun _ _ _ => .inl⟩

section

variable (r : Region f L X c c1)

include r

lemma at_end : c1.At f := by
  obtain ⟨b, B, ha, hB, hf, -⟩ := r.cursor
  exact ⟨b, B, ha, hB, hf⟩

lemma block_mono (hB : c.blocks b = some B) : ∃ B', c1.blocks b = some B' ∧ c1.Grown B B' := by
  by_cases ha : c.active = some b
  · exact r.start b B ha hB
  · exact ⟨B, r.other b B hB ha, .refl _ B⟩

lemma block_none (hb : c1.blocks b = none) : c.blocks b = none := by
  cases hB : c.blocks b with
  | none => rfl
  | some B =>
    obtain ⟨B', hB', -⟩ := r.block_mono hB
    cases hb.symm.trans hB'

lemma clean (h : c.Clean g b) : c1.Clean g b := by
  obtain ⟨B, hB, hf, hB'⟩ := h
  obtain ⟨B1, hB1, hgrown⟩ := r.block_mono hB
  obtain ⟨more, hmore, hm⟩ := hgrown.insts
  refine ⟨B1, hB1, hgrown.func.trans hf, fun x hx => ?_⟩
  rw [hmore] at hx
  rcases mem_append.1 hx with hx | hx
  · obtain ⟨⟨y, hy⟩, hp⟩ := hB' x hx
    exact ⟨⟨y, r.insts x y hy⟩, mt (isPhi_mono r.insts ⟨y, hy⟩).1 hp⟩
  · exact hm x hx

lemma own_clean (hx : x ∈ X) : c1.Clean f x := by
  obtain ⟨-, hB, -⟩ := r.own x hx
  exact ⟨_, hB, rfl, nofun⟩

lemma emits (e : c1.Emits h i t c2)
    (hphi : ∀ edges, i = .phi edges → c.active ≠ c1.active ∧ ∀ P, (∀ b, c.blocks b = none → P b) →
      (∀ b, c.active = some b → P b) → c.Wired P → ∀ a A, c1.active = some a → c1.blocks a = some A →
      A.insts = [] ∧ ∀ p, (∃ v, (v, p) ∈ edges) ↔ c1.Edge p a) : Region f L X c c2 where
  insts g x hg := e.inst_mono (r.insts g x hg)
  funcs g F hF := by
    rw [e.funcs_eq]
    exact r.funcs g F hF
  other b B hB ha := by
    rcases e.block_of (r.other b B hB ha) with h | ⟨ha1, -, -⟩
    · exact h
    · obtain ⟨b', -, ha', -, -, hb⟩ := r.cursor
      cases mem_unique ha1 ha'
      rcases hb with hb | hb
      · exact absurd hb ha
      · cases hb.symm.trans hB
  start b B ha hB := by
    obtain ⟨B1, hB1, hgrown⟩ := r.start b B ha hB
    have hmono : c1.Sub c2 := fun _ _ => e.inst_mono
    rcases e.block_of hB1 with hB2 | ⟨ha1, hopen, hB2⟩
    · exact ⟨B1, hB2, hgrown.trans hmono (.refl _ _)⟩
    · refine ⟨_, hB2, hgrown.trans hmono ⟨rfl, ⟨[h], rfl, fun g hg => ?_⟩, fun he => ?_⟩⟩
      · rw [mem_singleton.1 hg]
        refine ⟨⟨_, e.inst_self⟩, ?_⟩
        rintro ⟨edges, u, hu⟩
        cases mem_unique e.inst_self hu
        exact (hphi edges rfl).1 (ha.trans ha1.symm)
      · rw [hopen] at he
        cases he
  cursor := by
    obtain ⟨b, B, ha, hB, hf, hb⟩ := r.cursor
    rcases e.block_of hB with hB' | ⟨-, -, hB'⟩
    · exact ⟨b, B, e.active_eq.trans ha, hB', hf, hb⟩
    · exact ⟨b, _, e.active_eq.trans ha, hB', hf, hb⟩
  nodup := r.nodup
  own x hx := by
    obtain ⟨hnew, hB, hne⟩ := r.own x hx
    refine ⟨hnew, ?_, e.active_eq ▸ hne⟩
    rcases e.block_of hB with hB' | ⟨ha, -, -⟩
    · exact hB'
    · exact absurd ha hne
  edges p b hb := r.edges p b (e.edge_iff.1 hb)
  violations := by
    obtain ⟨b, B, -, rfl⟩ := e.cursor
    exact r.violations
  wired P hnew hact hw := (r.wired P hnew hact hw).emits e fun edges he => (hphi edges he).2 P hnew hact hw
  elsewhere g F hg hF := (congrFun e.funcs_eq g).trans (r.elsewhere g F hg hF)
  bare g F hg hF := r.bare g F hg ((congrFun e.funcs_eq g).symm.trans hF)

lemma trans (k : Region f J Y c1 c2) (hL : ∀ b ∈ J, c.blocks b = none ∨ b ∈ L) : Region f L (X ++ Y) c c2 where
  insts g x hg := k.insts g x (r.insts g x hg)
  funcs g F hF := by
    obtain ⟨F1, hF1, hle1⟩ := r.funcs g F hF
    obtain ⟨F2, hF2, hle2⟩ := k.funcs g F1 hF1
    exact ⟨F2, hF2, hle1.trans hle2⟩
  other b B hB ha := by
    refine k.other b B (r.other b B hB ha) fun ha1 => ?_
    obtain ⟨b', -, ha', -, -, hb⟩ := r.cursor
    cases mem_unique ha1 ha'
    rcases hb with hb | hb
    · exact ha hb
    · cases hb.symm.trans hB
  start b B ha hB := by
    obtain ⟨B1, hB1, hgrown⟩ := r.start b B ha hB
    obtain ⟨B2, hB2, hgrown'⟩ := k.block_mono hB1
    exact ⟨B2, hB2, hgrown.trans k.insts hgrown'⟩
  cursor := by
    obtain ⟨b, B, ha, hB, hf, hb⟩ := k.cursor
    refine ⟨b, B, ha, hB, hf, ?_⟩
    rcases hb with hb | hb
    · obtain ⟨b', -, ha', -, -, hb'⟩ := r.cursor
      cases mem_unique hb ha'
      exact hb'
    · exact .inr (r.block_none hb)
  nodup := by
    refine nodup_append.2 ⟨r.nodup, k.nodup, ?_⟩
    rintro x hx _ hy rfl
    cases (k.own x hy).1.symm.trans (r.own x hx).2.1
  own x hx := by
    rcases mem_append.1 hx with hx | hx
    · obtain ⟨hnew, hB, hne⟩ := r.own x hx
      refine ⟨hnew, k.other x _ hB hne, fun ha => ?_⟩
      obtain ⟨b, -, ha', -, -, hb⟩ := k.cursor
      cases mem_unique ha ha'
      rcases hb with hb | hb
      · exact hne hb
      · cases hb.symm.trans hB
    · exact (k.own x hx).imp_left r.block_none
  edges p b hb := by
    rcases k.edges p b hb with hb | hb | hb
    · exact r.edges p b hb
    · exact .inr (.inl (r.block_none hb))
    · exact .inr (hL b hb)
  violations := k.violations.trans r.violations
  wired P hP hact hw := by
    refine k.wired P (fun b hb => hP b (r.block_none hb)) (fun b hb => ?_) (r.wired P hP hact hw)
    obtain ⟨b', -, ha', -, -, hb'⟩ := r.cursor
    cases mem_unique hb ha'
    rcases hb' with hb' | hb'
    · exact hact b hb'
    · exact hP b hb'
  elsewhere g F hg hF := k.elsewhere g F hg (r.elsewhere g F hg hF)
  bare g F hg hF := (k.bare g F hg hF).elim (r.bare g F hg) .inr

lemma sub (k : Region f J [] c1 c2) (hL : ∀ b ∈ J, c.blocks b = none ∨ b ∈ L) : Region f L X c c2 :=
  append_nil X ▸ r.trans k hL

lemma declares (e : c1.Declares h F c2) : Region f L X c c2 := by
  have hfuncs : ∀ g G, c1.funcs g = some G → c2.funcs g = some G := by
    intro g G hG
    rw [e.added]
    refine (update_of_ne ?_ ..).trans hG
    rintro rfl
    cases e.fresh.symm.trans hG
  have hbare := e.adds.bare
  obtain ⟨b, B, ha, hB, hf⟩ := r.at_end
  obtain ⟨rfl, -, -⟩ := e
  refine r.sub (J := []) ⟨fun _ _ => id, fun g G hG => ⟨G, hfuncs g G hG, .refl G⟩, fun _ _ hB _ => hB,
    fun _ B _ hB => ⟨B, hB, .refl _ B⟩, ⟨b, B, ha, hB, hf, .inl ha⟩, .nil, nofun, fun _ _ => .inl, rfl,
    fun _ _ _ hw => hw.congr rfl rfl, fun g G _ => hfuncs g G, fun g G _ => hbare g G⟩ nofun

lemma line (l : Line c1 c2) : Region f L X c c2 := by
  induction l with
  | refl => exact r
  | emits _ hi e ih =>
    refine ih.emits e fun edges he => ?_
    subst he
    cases hi
  | declares _ e ih => exact ih.declares e

lemma opens (e : c1.Opens h f c2) : Region f L (X ++ [h]) c c2 := by
  obtain ⟨b, B, ha, hB, hf⟩ := r.at_end
  refine r.trans (J := []) ⟨fun _ _ hx => e.insts_eq ▸ hx, fun _ _ => e.func_of, fun _ _ hB _ => e.block_of hB,
    fun _ B _ hB => ⟨B, e.block_of hB, .refl _ B⟩, ⟨b, B, e.active_eq.trans ha, e.block_of hB, hf, .inl ha⟩,
    nodup_singleton h, fun x hx => ?_, fun _ _ hb => .inl (e.edge_iff.1 hb), e.violations_eq,
    fun _ _ _ hw => hw.opens e, fun _ _ => e.func_elsewhere, fun _ _ hg hF => .inl (e.func_before hg hF)⟩ nofun
  rw [mem_singleton.1 hx]
  refine ⟨e.freshBlock, e.block_self, fun hh => ?_⟩
  rw [e.active_eq, ha] at hh
  cases hh
  cases e.freshBlock.symm.trans hB

lemma ends (e : c1.Ends u c2)
    (hu : ∀ s ∈ u.successors, c1.Clean f s ∧ (c.blocks s = none ∨ s ∈ L)) : Region f L X c c2 := by
  obtain ⟨a, A, hact, hA, hf⟩ := r.at_end
  have hsame : c2.funcs = c1.funcs ∧ c2.violations = c1.violations := by
    obtain ⟨b, B, -, rfl⟩ := e
    exact ⟨rfl, rfl⟩
  refine r.sub (J := u.successors) ⟨fun _ _ hx => e.insts_eq ▸ hx, fun g F hF => ⟨F, hsame.1 ▸ hF, .refl F⟩,
    fun b B hB ha => ?_, fun b B ha hB => ?_, ?_, .nil, nofun, fun p b hb => ?_, hsame.2, fun P _ hP hw => ?_,
    fun g F _ hF => hsame.1 ▸ hF, fun g F _ hF => .inl (hsame.1 ▸ hF)⟩ fun s hs => (hu s hs).2
  · rcases e.block_of hB with ⟨hB', -⟩ | ⟨ha', -⟩
    · exact hB'
    · exact absurd ha' ha
  · rcases e.block_of hB with ⟨hB', -⟩ | ⟨-, hopen, hB'⟩
    · exact ⟨B, hB', .refl _ B⟩
    · refine ⟨_, hB', rfl, ⟨[], (append_nil _).symm, nofun⟩, fun he => ?_⟩
      rw [hopen] at he
      cases he
  · rcases e.block_of hA with ⟨hA', -⟩ | ⟨-, -, hA'⟩
    · exact ⟨a, A, e.active_eq.trans hact, hA', hf, .inl hact⟩
    · exact ⟨a, _, e.active_eq.trans hact, hA', hf, .inl hact⟩
  · exact (e.edge_iff.1 hb).imp_right fun h => .inr h.2
  · refine hw.ends e (fun b B hb hB => ?_) hP fun s hs => (hu s hs).1
    cases mem_unique hact hb
    cases mem_unique hA hB
    exact hf

lemma leaves (e : Lower.Leaves c1 target c2) (hclean : c1.Clean f target) (ht : c.blocks target = none ∨ target ∈ L) :
    Region f L X c c2 := by
  cases e with
  | ended => exact r
  | jump e =>
    refine r.ends e fun s hs => ?_
    rw [Terminator.successors, mem_singleton] at hs
    exact hs ▸ ⟨hclean, ht⟩

lemma leave (e : Lower.Leaves c1 target c2) (ht : target ∈ X) : Region f L X c c2 :=
  r.leaves e (r.own_clean ht) (.inl (r.own target ht).1)

lemma jump (e : c1.Ends (.br target) c2) (ht : target ∈ X) : Region f L X c c2 := r.leave (.jump e) ht

lemma fork (e : c1.Ends (.condBr v yes no) c2) (hy : yes ∈ X) (hn : no ∈ X) : Region f L X c c2 := by
  refine r.ends e fun s hs => ?_
  rw [Terminator.successors, mem_cons, mem_singleton] at hs
  rcases hs with rfl | rfl
  · exact ⟨r.own_clean hy, .inl (r.own _ hy).1⟩
  · exact ⟨r.own_clean hn, .inl (r.own _ hn).1⟩

end

lemma out (hat : c.At f) (e : c.Ends (.br target) c') (ht : target ∈ L) (hclean : c.Clean f target) :
    Region f L [] c c' := (refl hat).leaves (.jump e) hclean (.inr ht)

lemma next (r : Region f L (x :: X) c c1) : Region f L X c (c1.move (some x)) := by
  obtain ⟨hnew, hB, -⟩ := r.own x (.head _)
  refine ⟨r.insts, r.funcs, r.other, fun b B ha hB => ?_, ⟨x, _, rfl, hB, rfl, .inr hnew⟩,
    (nodup_cons.1 r.nodup).2, fun y hy => ?_, r.edges, r.violations,
    fun P hP hact hw => (r.wired P hP hact hw).congr rfl rfl, r.elsewhere, r.bare⟩
  · obtain ⟨B', hB', hgrown⟩ := r.start b B ha hB
    exact ⟨B', hB', hgrown.congr rfl⟩
  · obtain ⟨hnewy, hBy, -⟩ := r.own y (mem_cons_of_mem x hy)
    refine ⟨hnewy, hBy, fun h => ?_⟩
    cases Option.some.inj h
    exact (nodup_cons.1 r.nodup).1 hy

lemma perm (r : Region f L X c c1) (h : X.Perm Y) : Region f L Y c c1 :=
  { r with
    nodup := h.nodup_iff.1 r.nodup
    own := fun x hx => r.own x (h.mem_iff.2 hx) }

lemma edge_iff (r : Region f [] X c c1) (hB : c.blocks b = some B) : c1.Edge p b ↔ c.Edge p b := by
  constructor
  · intro h
    rcases r.edges p b h with h | h | h
    · exact h
    · cases h.symm.trans hB
    · cases h
  · rintro ⟨A, u, hA, hu, hb⟩
    obtain ⟨A', hA', hgrown⟩ := r.block_mono hA
    rw [hgrown.ended (by rw [hu]; rfl)] at hA'
    exact ⟨A, u, hA', hu, hb⟩

end Region

end Code

end Arbor.IR
