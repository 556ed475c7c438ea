import Arbor.Proofs.Regions

/-! Every part of a program is lowered inside its region, and a function is so in a part of the code of its own. -/

namespace Arbor.Lower

open IR IR.Code Arbor.Tree List

lemma Forks.region (h : Forks f c v c') (hat : c.At f) (L) : Region f L [] c c' := by
  cases h with
  | mk hyes hno hafter hfork hleft hright =>
    have hopened := (((Region.refl hat (L := L)).opens hyes).opens hno).opens hafter
    have hleft' := (hopened.fork hfork (by simp) (by simp)).next.leave hleft (by simp)
    exact (hleft'.next.leave hright (by simp)).next

lemma Makes.region (h : Makes S Γ c t size b c' v u) (hat : c.At S.func) (L) : Region S.func L [] c c' := by
  cases h with
  | plain hcall hcast => exact (Region.refl hat).line (hcall.line.trans (.one rfl hcast))
  | checked hcall _ heq hx hfork hcast =>
    have hfirst := (Region.refl hat (L := L)).line ((hcall.line.trans heq.line).trans hx.line)
    exact (hfirst.sub (hfork.region hfirst.at_end []) nofun).line (.one rfl hcast)

lemma ternary_preds {c3 c10 c11 : Code} {start yes after : Handle} (hafter : c3.Opens after f c4)
    (henter : c4.Ends (.br start) c5) (hstart : start ≠ after) (hcond : Region f [] [] (c5.move (some start)) c6)
    (hfork : c6.Ends (.condBr vb yes no) c7) (hyes : yes ≠ after) (hno : no ≠ after)
    (hleft : Region f [] [] (c7.move (some yes)) c8) (hp : c8.active = some p) (hjoin : c8.Ends (.br after) c9)
    (hright : Region f [] [] (c9.move (some no)) c10) (hq : c10.active = some q) (hmeet : c10.Ends (.br after) c11)
    (hnone : ∀ x, ¬c3.Edge x after) (x) :
    (∃ v, (v, x) ∈ [(vx, p), (vy, q)]) ↔ c11.Edge x after := by
  have hends : ∀ {d d' : Code} {u : Terminator}, d.Ends u d' → (∃ B, d.blocks after = some B) →
      ∃ B, d'.blocks after = some B := by
    rintro d d' u e ⟨B, hB⟩
    rcases e.block_of hB with ⟨hB', -⟩ | ⟨-, -, hB'⟩
    · exact ⟨_, hB'⟩
    · exact ⟨_, hB'⟩
  obtain ⟨B5, hB5⟩ := hends henter ⟨_, hafter.block_self⟩
  obtain ⟨B6, hB6, -⟩ := hcond.block_mono hB5
  obtain ⟨B7, hB7⟩ := hends hfork ⟨B6, hB6⟩
  obtain ⟨B8, hB8, -⟩ := hleft.block_mono hB7
  obtain ⟨B9, hB9⟩ := hends hjoin ⟨B8, hB8⟩
  have h5 : ¬c5.Edge x after := by
    rw [henter.edge_iff, hafter.edge_iff, Terminator.successors, mem_singleton]
    rintro (h | ⟨-, h⟩)
    · exact hnone x h
    · exact hstart h.symm
  have h7 : ¬c7.Edge x after := by
    rw [hfork.edge_iff, hcond.edge_iff hB5, Terminator.successors, mem_cons, mem_singleton]
    rintro (h | ⟨-, h | h⟩)
    · exact h5 h
    · exact hyes h.symm
    · exact hno h.symm
  have h9 : c9.Edge x after ↔ x = p := by
    rw [hjoin.edge_iff, hleft.edge_iff hB7, hp, Terminator.successors, mem_singleton]
    exact ⟨fun h => h.elim (fun h => absurd h h7) fun h => (Option.some.inj h.1).symm, fun h => .inr ⟨h ▸ rfl, rfl⟩⟩
  rw [hmeet.edge_iff, hright.edge_iff hB9, hq, Terminator.successors]
  have hmove : (c9.move (some no)).Edge x after ↔ x = p := h9
  rw [hmove]
  simp only [mem_cons, Prod.mk.injEq, not_mem_nil, or_false, Option.some.injEq, and_true]
  constructor
  · rintro ⟨v, ⟨-, h⟩ | ⟨-, h⟩⟩
    · exact .inl h
    · exact .inr h.symm
  · rintro (h | h)
    · exact ⟨vx, .inl ⟨rfl, h⟩⟩
    · exact ⟨vy, .inr ⟨rfl, h.symm⟩⟩

mutual

lemma ExprTo.region : ExprTo S Γ e c c' v t → c.At S.func → ∀ L, Region S.func L [] c c'
  | .literal _, hat, _ | .ident _ _, hat, _ => .refl hat
  | .unary _ _ _ hv hi hput, hat, L => (hv.region hat L).line (.one (isPhi_of_unaryInst? hi) hput)
  | .binary _ _ _ _ hv hw hunify hz, hat, L =>
    have hv' := hv.region hat L
    (hv'.sub (hw.region hv'.at_end []) nofun).line (hunify.line.trans hz.line)
  | .call _ hargs hcall, hat, L => (hargs.region hat L).line hcall.line
  | .ternary _ _ _ _ hstart hyes hno hafter henter hcond hfork hleft hp hjoin hright hq hmeet _ _ _ hput, hat, L => by
    have hopened := ((((Region.refl hat (L := L)).opens hstart).opens hyes).opens hno).opens hafter
    have hbegin := (hopened.jump henter (by simp)).next
    have hregion1 := hcond.region hbegin.at_end []
    have hfork' := ((hbegin.sub hregion1 nofun).fork hfork (by simp) (by simp)).next
    have hregion2 := hleft.region hfork'.at_end []
    have hjoin' := ((hfork'.sub hregion2 nofun).jump hjoin (by simp)).next
    have hregion3 := hright.region hjoin'.at_end []
    have hmeet' := (hjoin'.sub hregion3 nofun).jump hmeet (by simp)
    obtain ⟨hnew, hB, -⟩ := hmeet'.own _ (.head _)
    refine hmeet'.next.emits hput fun edges he => ⟨fun ha => ?_, fun P hP hact hw a A ha hA => ?_⟩
    · obtain ⟨b, B, hb, hB, -⟩ := hat
      cases Option.mem_unique hb ha
      cases hnew.symm.trans hB
    · cases he
      cases Option.some.inj ha
      cases Option.mem_unique hB hA
      have hw3 := ((((Region.refl hat (L := [])).opens hstart).opens hyes).opens hno).wired P hP hact hw
      have hdistinct := hopened.nodup
      simp only [nil_append, cons_append, nodup_cons, mem_cons, not_mem_nil, or_false, not_or] at hdistinct
      refine ⟨rfl, fun x => Iff.trans ?_ (Iff.refl (Edge _ x _))⟩
      exact ternary_preds hafter henter hdistinct.1.2.2 hregion1 hfork hdistinct.2.1.2 hdistinct.2.2.1 hregion2
        hp hjoin hregion3 hq hmeet (fun y => hw3.no_edge hafter.freshBlock (hP _ hnew)) x
  | .make _ _ _ hmake, hat, L => hmake.region hat L
  | .makeMany _ _ _ hv hconv hz hmake, hat, L =>
    have hv' := (hv.region hat L).line (hconv.coerces.line.trans hz.line)
    hv'.sub (hmake.region hv'.at_end []) nofun
  | .bitcast _ _ _ hv _ _ hput, hat, L => (hv.region hat L).line (.one rfl hput)
  | .cast _ _ _ hv hcast, hat, L => (hv.region hat L).line hcast.line

lemma ValueTo.region : ValueTo S Γ e c c' v t → c.At S.func → ∀ L, Region S.func L [] c c'
  | .mk hv hd, hat, L => (hv.region hat L).line hd.line

lemma ArgsTo.region : ArgsTo S Γ l c c' args → c.At S.func → ∀ L, Region S.func L [] c c'
  | .nil, hat, _ => .refl hat
  | .cons hv hrest, hat, L =>
    have hv' := hv.region hat L
    hv'.sub (hrest.region hv'.at_end []) nofun

end

def targets : Option (Handle × Handle) → List Handle
  | none => []
  | some (leave, next) => [leave, next]

lemma forall_targets {leave next : Handle} {Q : Handle → Prop} (hl : Q leave) (hn : Q next) :
    ∀ b ∈ targets (some (leave, next)), Q b := by
  intro b hb
  rcases mem_cons.1 hb with rfl | hb
  · exact hl
  · exact mem_singleton.1 hb ▸ hn

lemma InitTo.region (h : InitTo S Γ s c c' v t) (hat : c.At S.func) (L) : Region S.func L [] c c' := by
  cases h with
  | value _ hv => exact hv.region hat L
  | zero => exact .refl hat

lemma LoopCondTo.region (r : Region S.func L X c0 c) (h : LoopCondTo S Γ body leave e c c')
    (hb : body ∈ X) (hl : leave ∈ X) :
    Region S.func L X c0 c' := by
  cases h with
  | some hv hfork => exact (r.sub (hv.region r.at_end []) nofun).fork hfork hb hl
  | none hend => exact r.jump hend hb

lemma LoopCondTo.clean (h : LoopCondTo S Γ body leave e c c') (hat : c.At S.func) (hb : c.Clean f b) :
    c'.Clean f b := by
  cases h with
  | some hv hfork => exact ((hv.region hat []).clean hb).ends hfork
  | none hend => exact hb.ends hend

mutual

lemma StmtTo.region : StmtTo S L Γ s c Γ' c' → c.At S.func → (∀ b ∈ targets L, c.Clean S.func b) → Region S.func (targets L) [] c c'
  | .block _ h, hat, hL => h.region hat hL
  | .bind _ _ hv h, hat, _ => (hv.region hat _).line h.line
  | .bindAs _ _ _ hv hconv h, hat, _ => (hv.region hat _).line (hconv.coerces.line.trans h.line)
  | .assign _ _ _ hl hr _ hv hconv _ hstore, hat, _ => by
    have hl' := hl.region hat (targets L)
    have hvalue := (hl'.sub (hr.region hl'.at_end []) nofun).line hv.line
    rcases hconv with ⟨rfl, -, -⟩ | hconv
    · exact hvalue.line (.one rfl hstore)
    · exact hvalue.line (.emits hconv.coerces.line rfl hstore)
  | .ret _ _ _ h, hat, _ => (Region.refl hat).ends h nofun
  | .retValue _ _ hv hconv h, hat, _ => ((hv.region hat _).line hconv.coerces.line).ends h nofun
  | .cond _ _ _ hv hyes hno hafter hfork hleft hjoin hright hmeet, hat, hL => by
    have hopened := (((hv.region hat (targets L)).opens hyes).opens hno).opens hafter
    have hyes' := (hopened.fork hfork (by simp) (by simp)).next
    have hleft' := hyes'.sub (hleft.region hyes'.at_end fun b hb => hyes'.clean (hL b hb)) fun _ => .inr
    have hno' := (hleft'.leave hjoin (by simp)).next
    have hright' := hno'.sub (hright.region hno'.at_end fun b hb => hno'.clean (hL b hb)) fun _ => .inr
    exact (hright'.leave hmeet (by simp)).next
  | .loop _ _ hinit hcond hstep hbody hleave henter htest hrun hnext hagain hback, hat, hL => by
    have hopened := ((((hinit.region hat hL).opens hcond).opens hstep).opens hbody).opens hleave
    have henter' := hopened.leave henter (by simp)
    have hcond' := henter'.next
    have htest' := (htest.region hcond' (by simp) (by simp)).perm (.swap ..)
    have hbody' := htest'.next
    -- The body and the step may jump to the step and to the end, also when these are being filled.
    have hrun' := hrun.region hbody'.at_end (forall_targets (hbody'.own_clean (by simp)) (hbody'.own_clean (by simp)))
    have hnew := forall_targets (Q := fun b => c.blocks b = none ∨ b ∈ targets L)
      (.inl (hbody'.own _ (.tail _ (.head _))).1) (.inl (hbody'.own _ (.head _)).1)
    have hnext' := (hbody'.sub hrun' hnew).leave hnext (by simp)
    have hstep' := hnext'.next
    have hagain' := hagain.region hstep'.at_end
      (forall_targets (hstep'.own_clean (by simp)) (hnext'.own_clean (.head _)))
    -- Nothing but the condition is put into the block that the loop goes back to.
    have hclean := htest.clean hcond'.at_end (henter'.own_clean (.head _))
    have hclean' := (hrun'.clean hclean).leaves hnext
    have hclean'' := hagain'.clean hclean'
    exact ((hstep'.sub hagain' hnew).leaves hback hclean'' (.inl (henter'.own _ (.head _)).1)).next
  | .leave _ h, hat, hL => .out hat h (.head _) (hL _ (.head _))
  | .next _ h, hat, hL =>
    have hmem := .tail _ (.head _)
    .out hat h hmem (hL _ hmem)
  | .eval _ _ hv, hat, _ => hv.region hat _
  | .drop _ _ hv hcast hcall, hat, _ => by
    obtain ⟨u, hcall⟩ := hcall
    rcases hcast with ⟨rfl, -⟩ | ⟨h, -, hput⟩
    · exact (hv.region hat _).line hcall.line
    · exact ((hv.region hat _).line (.one rfl hput)).line hcall.line

lemma PartTo.region : PartTo S L Γ s c Γ' c' → c.At S.func → (∀ b ∈ targets L, c.Clean S.func b) → Region S.func (targets L) [] c c'
  | .none, hat, _ => .refl hat
  | .some h, hat, hL => h.region hat hL

lemma StmtsTo.region : StmtsTo S L Γ l c Γ' c' → c.At S.func → (∀ b ∈ targets L, c.Clean S.func b) → Region S.func (targets L) [] c c'
  | .nil, hat, _ | .stop _, hat, _ => .refl hat
  | .cons h hrest, hat, hL =>
    have h' := h.region hat hL
    h'.sub (hrest.region h'.at_end fun b hb => h'.clean (hL b hb)) fun _ => .inr

end

lemma TailTo.region (r : Region S.func L X c0 c) (h : TailTo S c c') : Region S.func L X c0 c' := by
  cases h with
  | ended => exact r
  | void _ h | zero _ h => exact r.ends h nofun

end Arbor.Lower

namespace Arbor.IR.Code

/-- What lowering whole functions does to the code: it adds to it, and what it adds is wired. -/
structure Framed (c c' : Code) : Prop where
  insts : ∀ h x, c.insts h = some x → c'.insts h = some x
  funcs : ∀ h F, c.funcs h = some F → ∃ F', c'.funcs h = some F' ∧ F.Le F'
  blocks : ∀ b B, c.blocks b = some B → c'.blocks b = some B
  violations : c'.violations = c.violations
  wired : ∀ P, (∀ b, c.blocks b = none → P b) → c.Wired P → c'.Wired P
  opened : ∀ b, c'.Open b → c.Open b

namespace Framed

variable {c c' : Code}

lemma refl (c) : Framed c c :=
  ⟨fun _ _ => id, fun _ F hF => ⟨F, hF, .refl F⟩, fun _ _ => id, rfl, fun _ _ => id, fun _ => id⟩

lemma trans (h : Framed c c1) (k : Framed c1 c') : Framed c c' where
  insts g x hg := k.insts g x (h.insts g x hg)
  funcs g F hF := by
    obtain ⟨F1, hF1, hle⟩ := h.funcs g F hF
    obtain ⟨F2, hF2, hle'⟩ := k.funcs g F1 hF1
    exact ⟨F2, hF2, hle.trans hle'⟩
  blocks b B hB := k.blocks b B (h.blocks b B hB)
  violations := k.violations.trans h.violations
  wired P hP hw := by
    refine k.wired P (fun b hb => hP b ?_) (h.wired P hP hw)
    cases hB : c.blocks b with
    | none => rfl
    | some B => cases hb.symm.trans (h.blocks b B hB)
  opened b hb := h.opened b (k.opened b hb)

lemma adds (h : c.Adds c') : Framed c c' := by
  refine ⟨fun g x hg => (congrFun h.insts g).trans hg, fun g F hF => ⟨F, h.funcs g F hF, .refl F⟩,
    fun b B hB => (congrFun h.blocks b).trans hB, h.violations, fun _ _ hw => hw.congr h.blocks h.insts, ?_⟩
  rintro b ⟨B, hB, he⟩
  exact ⟨B, (congrFun h.blocks b).symm.trans hB, he⟩

end Framed

end Arbor.IR.Code

namespace Arbor.Lower

open IR IR.Code Arbor.Tree

variable {c c' : Code}
lemma FuncTo.region (h : FuncTo S Γ d c c') : ∃ c1 c2 entry, c.Opens entry S.func c1 ∧
    Region S.func [] [] (c1.move (some entry)) c2 ∧ c' = c2.move none := by
  cases h with
  | @mk entry c1 _ _ c2 _ c3 c' _ _ hentry _ _ hparams hbody htail =>
    have hat : (c1.move (some entry)).At S.func := ⟨entry, _, rfl, hentry.block_self, rfl⟩
    have hps : Region S.func [] [] (c1.move (some entry)) c2 := (Region.refl hat).line hparams.line
    exact ⟨c1, c', entry, hentry, htail.region (hps.sub (hbody.region hps.at_end nofun) nofun), rfl⟩

lemma FuncTo.elsewhere (h : FuncTo S Γ d c c') (hg : g ≠ S.func) (hF : c.funcs g = some F) : c'.funcs g = some F := by
  obtain ⟨c1, c2, entry, hentry, hr, rfl⟩ := h.region
  exact hr.elsewhere g F hg (hentry.func_elsewhere hg hF)

lemma FuncTo.bare (h : FuncTo S Γ d c c') (hg : g ≠ S.func) (hF : c'.funcs g = some F) :
    c.funcs g = some F ∨ F.blocks = [] := by
  obtain ⟨c1, c2, entry, hentry, hr, rfl⟩ := h.region
  exact (hr.bare g F hg hF).imp_left (hentry.func_before hg)

lemma FuncTo.framed (h : FuncTo S Γ d c c') : Framed c c' := by
  have hopen := fun b => h.open_of (b := b)
  obtain ⟨c1, c2, entry, hentry, hr, rfl⟩ := h.region
  refine ⟨fun g x hg => hr.insts g x ?_, fun g F hF => ?_, fun b B hB => ?_, ?_, fun P hP hw => ?_, hopen⟩
  · exact (congrFun hentry.insts_eq g).trans hg
  · obtain ⟨F1, hF1, hle⟩ := hentry.func_of hF
    obtain ⟨F2, hF2, hle'⟩ := hr.funcs g F1 hF1
    exact ⟨F2, hF2, hle.trans hle'⟩
  · refine hr.other b B (hentry.block_of hB) fun ha => ?_
    cases Option.some.inj ha
    cases hentry.freshBlock.symm.trans hB
  · exact hr.violations.trans hentry.violations_eq
  · refine (hr.wired P (fun b hb => hP b ?_) (fun b hb => ?_) ((hw.opens hentry).congr rfl rfl)).congr rfl rfl
    · cases hB : c.blocks b with
      | none => rfl
      | some B => cases hb.symm.trans (hentry.block_of hB)
    · cases Option.some.inj hb
      exact hP _ hentry.freshBlock

end Arbor.Lower
