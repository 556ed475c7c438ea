import Arbor.Proofs.Pending
import Arbor.Proofs.Values

/-! What modules do when they build statements: each action leaves the code that its relation says, if
its parts do. -/

namespace Arbor.Build

open IR Proofs Lower IR.Code Store

variable {σ : Type} {w : World σ}
variable {e : Option Tree.Expr} {t : Ty} {T : TypeId}
variable {body init step : Option (Act σ Unit)} {a cond : Act σ (Option ValueId)} {E : Code → Operand → Ty → Prop}
lemma ending_of_tail {s : Store} (hs : s.WF) (hB : s.block? b = some B) (h : s.isTerminator (s.blockTail b) = true) :
    B.ending.isSome := by
  have hok := hs.entries b
  rw [block?_eq_some.1 hB] at hok
  cases he : B.ending with
  | some e => rfl
  | none =>
    simp only [blockTail, hB, he, Array.back?_eq_getElem?] at h
    cases hi : B.insts[B.insts.size - 1]? with
    | none =>
      rw [hi, Option.getD_none, isTerminator, hs.reserved] at h
      cases h
    | some g =>
      obtain ⟨i, hg, -⟩ := hok.2.1 g (Array.mem_toList_iff.2 (Array.mem_of_getElem? hi))
      rw [hi, Option.getD_some, isTerminator, hg] at h
      cases h

lemma tail_of_ending {s : Store} (hs : s.WF) (hB : s.block? b = some B) (h : s.isTerminator (s.blockTail b) = false) :
    B.ending = none := by
  have hok := hs.entries b
  rw [block?_eq_some.1 hB] at hok
  cases he : B.ending with
  | none => rfl
  | some e =>
    simp only [blockTail, hB, he, isTerminator, (hok.2.2 e he).1] at h
    cases h

namespace Act

lemma blockAt_along (m h name) : Along Silent w (blockAt m h name) fun r w' =>
    w'.store = w.store ∧ (r = none → h = noHandle) ∧ ∀ b, r = some b → b = ⟨m, h⟩ ∧ h ≠ noHandle := by
  refine .ite (fun h0 => .pure ⟨rfl, fun _ => h0, nofun⟩) fun h0 => ?_
  refine .bind (update_along ?_ rfl) fun _ w' _ hs => .pure ⟨hs, nofun, ?_⟩
  · exact silent_update (fun _ _ _ _ => id) (fun M hg hM => ⟨(hg.sound _ M hM).types, (hg.sound _ M hM).values⟩)
      fun _ => ⟨rfl, rfl, rfl⟩
  · intro b hb
    cases hb
    exact ⟨rfl, h0⟩

lemma activeBlock_along (hg : Good w) (m) : Along Silent w (activeBlock m) fun r w' =>
    w'.store = w.store ∧ (r = none → w.store.code.Sealed) ∧ ∀ b, r = some b → w.store.active = some b.handle := by
  refine .bind store_along ?_
  rintro s w' - ⟨rfl, rfl⟩
  refine (blockAt_along m _ []).mono fun r w'' _ => fun ⟨hs, hnone, hsome⟩ => ?_
  refine ⟨hs, fun hr => ?_, ?_⟩
  · rintro ⟨b, B, hcur⟩
    have hb : b = noHandle := by
      have h0 := hnone hr
      rwa [Store.activeBlock, show w'.store.active = some b from hcur.active] at h0
    obtain ⟨b', -, hb', -⟩ := Emit.cursor_of_code hcur
    rw [hb, Store.block?_eq_some, hg.store.reserved] at hb'
    cases hb'
  · rintro b rfl
    obtain ⟨rfl, hne⟩ := hsome b rfl
    cases ha : w'.store.active with
    | none =>
      rw [Store.activeBlock, ha] at hne
      exact absurd rfl hne
    | some x => simp only [Store.activeBlock, ha, Option.getD_some]

lemma isTerminated_active (hg : Good w) (m) : Along Silent w (isTerminated m none) fun r w' =>
    w'.store = w.store ∧ (r = true → w.store.code.Sealed) := by
  refine .bind (activeBlock_along hg m) fun r w1 r1 ⟨hs1, hnone, _⟩ => ?_
  cases r with
  | none => exact .pure ⟨hs1, fun _ => hnone rfl⟩
  | some _ =>
    refine .bind (P := fun h w' => w'.store = w.store ∧
      (w.store.code.Sealed ∨ ∃ b, w.store.active = some b ∧ h = w.store.blockTail b))
      (.bind (activeBlock_along (r1.good hg) m) ?_) ?_
    · rintro r w2 - ⟨hs2, hnone2, hsome2⟩
      rw [hs1] at hs2 hnone2 hsome2
      cases r with
      | none => exact .pure ⟨hs2, .inl (hnone2 rfl)⟩
      | some b =>
        refine .bind store_along ?_
        rintro s w3 - ⟨rfl, rfl⟩
        exact .pure ⟨hs2, .inr ⟨b.handle, hsome2 b rfl, by rw [hs2]⟩⟩
    · rintro h w2 - ⟨hs2, hcase⟩
      refine .bind store_along ?_
      rintro s w3 - ⟨rfl, rfl⟩
      refine .pure ⟨hs2, fun hend => ?_⟩
      rcases hcase with hsealed | ⟨b, hb, rfl⟩
      · exact hsealed
      · rintro ⟨b', B, hcur⟩
        obtain ⟨info, ha, hinfo, hopen⟩ := Emit.cursor_of_code hcur
        cases Option.mem_unique hb ha
        rw [hs2] at hend
        have hsome := ending_of_tail hg.store hinfo hend
        rw [hopen] at hsome
        cases hsome

lemma isTerminated_block (hg : Good w) (m b) : Along Silent w (isTerminated m (some b)) fun r w' => w' = w ∧
      (r = false → ∀ B, w.store.code.blocks b.handle = some B → B.ending = none) := by
  refine .bind (P := fun h w' => w' = w ∧ h = w.store.blockTail b.handle)
    (.bind (P := fun r w' => w' = w ∧ r = some b) (.pure ⟨rfl, rfl⟩) ?_) ?_
  · rintro r w' - ⟨rfl, rfl⟩
    refine .bind store_along ?_
    rintro s w' - ⟨rfl, rfl⟩
    exact .pure ⟨rfl, rfl⟩
  · rintro h w' - ⟨rfl, rfl⟩
    refine .bind store_along ?_
    rintro s w' - ⟨rfl, rfl⟩
    refine .pure ⟨rfl, fun hopen B hB => ?_⟩
    simp only [code, Option.map_eq_some_iff] at hB
    obtain ⟨info, hinfo, rfl⟩ := hB
    simp only [BlockInfo.code, tail_of_ending hg.store hinfo hopen, Option.map_none]

lemma setActiveBlock_along (m b) : Along Steady w (setActiveBlock m (some b)) fun _ w' =>
    b.handle ≠ noHandle → w'.store.code = w.store.code.move (some b.handle) ∧
      ∃ B, w'.store.code.blocks b.handle = some B := by
  refine (backend_along (Emit.setActiveBlock_along b.handle)).mono ?_
  rintro _ w' r1 ⟨-, ⟨h0, -⟩ | ⟨⟨B, hB⟩, hcode⟩⟩ hne
  · exact absurd h0 hne
  · refine ⟨hcode, B.code, ?_⟩
    rw [hcode]
    exact Option.map_eq_some_iff.2 ⟨B, hB, rfl⟩

lemma setActiveBlock_none (hg : Good w) (m) : Along Steady w (setActiveBlock m none) fun _ w' =>
    w'.store.code = w.store.code.move none := by
  refine (backend_along (Emit.setActiveBlock_along noHandle)).mono ?_
  rintro _ w' r1 ⟨-, ⟨-, hcode⟩ | ⟨⟨B, hB⟩, hcode⟩⟩
  · exact hcode
  · rw [block?_eq_some, hg.store.reserved] at hB
    cases hB

variable {S : Site} {Γ : Env} {L : Option (Handle × Handle)}

lemma createBlock_along (hg : Good w) (hsc : Scoped w S Γ L) (name) :
    Along Steady w (createBlock S.module name) fun b w' => b.handle ≠ noHandle ∧
      w.store.code.Opens b.handle S.func w'.store.code := by
  refine .bind (silently (enclosingFunc_along hsc)) ?_
  rintro r w' - ⟨-, rfl, fn, ps, va, rfl, hfn⟩
  obtain ⟨hfunc, -⟩ := operand?_func hfn.operand
  refine .bind (backend_along (Emit.createBlock_along hg.store fn.handle name)) fun h w1 _ ⟨_, hne, hopens⟩ => ?_
  refine .bind (silently (blockAt_along S.module h name)) fun r w2 _ ⟨r2, _, _, hb⟩ => ?_
  refine (need_along r).mono ?_
  rintro b w3 - ⟨rfl, rfl⟩
  obtain ⟨rfl, -⟩ := hb b rfl
  exact ⟨hne, hfunc ▸ r2.code ▸ hopens⟩

lemma jumpUnlessTerminated_along (hg : Good w) (m target) : Along Steady w (jumpUnlessTerminated m target) fun _ w' =>
      Leaves w.store.code target.handle w'.store.code := by
  refine .bind (silently (isTerminated_active hg m)) fun r w1 _ ⟨r1, hs, hsealed⟩ => ?_
  rw [← hs]
  refine .ite (fun h => ?_) fun h => ?_
  · refine .bind (jump_along (r1.good hg) m target) fun _ w2 _ hend => .pure (.jump hend)
  · refine .pure (.ended ?_)
    rw [hs]
    exact hsealed (by simpa using h)

lemma branchArm_along [IsPreorder (World σ) R] (hR : ∀ w w', Steady w w' → R w w')
    (hstep : ∀ w w', R w w' → Step w w') (hg : Good w) (hne : block.handle ≠ noHandle)
    {P : World σ → World σ → Prop}
    (hbody : ∀ w1, Steady w w1 → w1.store.code = w.store.code.move (some block.handle) →
      Along R w1 (runOptional body) fun _ w2 => Pending [] w1.store.code w2.store.code ∧ P w1 w2) :
    Along R w (branchArm m block body after) fun _ w' => ∃ w1 w2, Steady w w1 ∧
      w1.store.code = w.store.code.move (some block.handle) ∧ P w1 w2 ∧ Steady w2 w' ∧
      Leaves w2.store.code after.handle w'.store.code := by
  refine .bind ((setActiveBlock_along m block).keep fun _ => hR _ _) fun _ w1 _ ⟨r1, hset⟩ => ?_
  obtain ⟨hcode, B, hB⟩ := hset hne
  refine .bind (hbody w1 r1 hcode) fun _ w2 r2 ⟨hpend, hP⟩ => ?_
  have hg2 := (hstep _ _ r2).good (r1.good hg)
  refine .bind ((jumpUnlessTerminated_along hg2 m after).keep fun _ => hR _ _) fun _ w3 _ ⟨r3, hleave⟩ => ?_
  have hg3 := r3.good hg2
  refine .look ((isTerminated_block hg3 m block).weaken fun _ r => hR _ _ r.toSteady) fun ended hended => ?_
  refine .ite (fun h => ?_) fun _ => .pure ⟨w1, w2, r1, hcode, hP, r3, hleave⟩
  exfalso
  have hshut := hpend.leaves hleave
  have hexists : ∃ B', w3.store.code.blocks block.handle = some B' := by
    simp only [code, Option.map_eq_some_iff] at hB ⊢
    obtain ⟨info, hinfo, -⟩ := hB
    obtain ⟨info', hinfo', -⟩ := (trans_of Store.Grows (hstep _ _ r2).store r3.store).block (block?_eq_some.1 hinfo)
    exact ⟨_, info', block?_eq_some.2 hinfo', rfl⟩
  obtain ⟨B', hB'⟩ := hexists
  have hopen : w3.store.code.Open block.handle := ⟨B', hB', hended (by simpa using h) B' hB'⟩
  rcases hshut block.handle hopen with ⟨-, hactive⟩ | hmem
  · rw [hcode] at hactive
    exact hactive rfl
  · cases hmem

/-- The answer of an expression, if there is one, is as `E` tells. -/
abbrev Answers (E : Code → Operand → Ty → Prop) (r : Option ValueId) (w : World σ) : Prop :=
  ∀ v, r = some v → ∃ op t, E w.store.code op t ∧ Is w v op t

lemma evalExpr_along (h : Along Steady w a (Answers E)) :
    Along Steady w (evalExpr m (some a) what) fun v w' => ∃ op t, E w'.store.code op t ∧ Is w' v op t := by
  refine .bind h fun r w' _ hr => ?_
  cases r with
  | none => exact fail_along
  | some v => exact .pure (hr v rfl)

lemma evalCond_along (hg : Good w) (hm : Live w m)
    (h : Along Steady w a (Answers E)) :
    Along Steady w (evalCond m (some a)) fun v w' => ∃ c1 op1 t1 op t, E c1 op1 t1 ∧
      Deref c1 op1 t1 w'.store.code op t ∧ Is w' v op t := by
  refine .bind (evalExpr_along h) fun v w1 r1 ⟨op1, t1, hE, hv⟩ => ?_
  refine .bind (ptrVal_along (r1.good hg) (hm.mono r1.toStep) hv) fun v' w2 r2 ⟨op, t, hd, hv'⟩ => ?_
  refine .look (typeOf_along hv') fun T hT => ?_
  refine .look (view_along (r2.good (r1.good hg)) hT) fun V _ => ?_
  refine fail_ite fun _ => ?_
  exact .pure ⟨_, op1, t1, op, t, hE, hd, hv'⟩

lemma runOptional_none [IsPreorder (World σ) R] (h : Q () w) : Along R w (runOptional none) Q := .pure h

lemma stmtBranch_along [IsPreorder (World σ) R] (hR : ∀ w w', Steady w w' → R w w')
    (hstep : ∀ w w', R w w' → Step w w') (hg : Good w) (hsc : Scoped w S Γ L)
    {Y N : Env → Code → Env → Code → Prop}
    (hcond : Along Steady w cond (Answers E))
    (hyes : ∀ w1 Γ1, Good w1 → Scoped w1 S Γ1 L → Along R w1 (runOptional yes) fun _ w2 =>
      Pending [] w1.store.code w2.store.code ∧ ∃ Γ2, Scoped w2 S Γ2 L ∧ Y Γ1 w1.store.code Γ2 w2.store.code)
    (hno : ∀ w1 Γ1, Good w1 → Scoped w1 S Γ1 L → Along R w1 (runOptional no) fun _ w2 =>
      Pending [] w1.store.code w2.store.code ∧ ∃ Γ2, Scoped w2 S Γ2 L ∧ N Γ1 w1.store.code Γ2 w2.store.code) :
    Along R w (stmtBranch S.module (some cond) yes no) fun _ w' => ∃ c0 x tx op t c1 c2 c3 c4 c5 c6 c7 c8 c9 Γ1 Γ2,
      ∃ onTrue onFalse after, E c0 x tx ∧ Deref c0 x tx c1 op t ∧ c1.Opens onTrue S.func c2 ∧
      c2.Opens onFalse S.func c3 ∧ c3.Opens after S.func c4 ∧ c4.Ends (.condBr op onTrue onFalse) c5 ∧
      Y Γ (c5.move (some onTrue)) Γ1 c6 ∧ Leaves c6 after c7 ∧ N Γ1 (c7.move (some onFalse)) Γ2 c8 ∧
      Leaves c8 after c9 ∧ w'.store.code = c9.move (some after) ∧ Scoped w' S Γ2 L := by
  refine .bind ((evalCond_along hg hsc.live hcond).keep fun _ => hR _ _) ?_
  rintro v w1 - ⟨r1, c0, x, tx, op, t, hE, hd, hv⟩
  have hg1 := r1.good hg
  have hsc1 := hsc.mono r1
  refine .bind ((createBlock_along hg1 hsc1 _).keep fun _ => hR _ _) fun onTrue w2 _ ⟨r2, hneTrue, hyes2⟩ => ?_
  have hg2 := r2.good hg1
  have hsc2 := hsc1.mono r2
  refine .bind ((createBlock_along hg2 hsc2 _).keep fun _ => hR _ _) fun onFalse w3 _ ⟨r3, hneFalse, hno3⟩ => ?_
  have hg3 := r3.good hg2
  have hsc3 := hsc2.mono r3
  refine .bind ((createBlock_along hg3 hsc3 _).keep fun _ => hR _ _) fun after w4 _ ⟨r4, hneAfter, hafter⟩ => ?_
  have hg4 := r4.good hg3
  have hv4 := ((hv.mono r2.toStep).mono r3.toStep).mono r4.toStep
  refine .bind ((jumpCond_along hg4 S.module hv4 onTrue onFalse).keep fun _ => hR _ _) fun _ w5 _ ⟨r5, _, hfork⟩ => ?_
  have hg5 := r5.good hg4
  have hsc5 := (hsc3.mono r4).mono r5
  refine .bind (branchArm_along hR hstep hg5 hneTrue fun u r _ => hyes u Γ (r.good hg5) (hsc5.mono r)) ?_
  rintro _ w6 r6 ⟨u1, u2, -, hu1, ⟨Γ1, hscΓ1, hY⟩, ru, hjoin⟩
  have hg6 := (hstep _ _ r6).good hg5
  have hsc6 := hscΓ1.mono ru
  refine .bind (branchArm_along hR hstep hg6 hneFalse fun u r _ => hno u Γ1 (r.good hg6) (hsc6.mono r)) ?_
  rintro _ w7 r7 ⟨u3, u4, -, hu3, ⟨Γ2, hscΓ2, hN⟩, ru', hmeet⟩
  refine ((setActiveBlock_along S.module after).keep fun _ => hR _ _).mono fun _ w8 _ ⟨r8, hset⟩ => ?_
  rw [hu1] at hY
  rw [hu3] at hN
  exact ⟨c0, x, tx, op, t, _, _, _, _, _, _, _, _, _, Γ1, Γ2, onTrue.handle, onFalse.handle, after.handle, hE, hd,
    hyes2, hno3, hafter, hfork, hY, hjoin, hN, hmeet, (hset hneAfter).1, (hscΓ2.mono ru').mono r8⟩

def Builds (S : Site) (a : Act σ Unit)
    (D : Option (Handle × Handle) → Env → Code → Env → Code → Prop) : Prop :=
  ∀ {w L Γ}, Good w → Scoped w S Γ L → Along Step w a fun _ w' => ∃ Γ', Scoped w' S Γ' L ∧
    D L Γ w.store.code Γ' w'.store.code

lemma stmtBlock_along (hg : Good w) (hsc : Scoped w S Γ L) {body : Act σ Unit}
    (hbody : Builds S body fun L Γ c Γ' c' => StmtsTo S L Γ l c Γ' c') :
    Along Step w (stmtBlock S.module (some body)) fun _ w' => Scoped w' S Γ L ∧ ∃ Γ',
      StmtsTo S L ([] :: Γ) l w.store.code Γ' w'.store.code := by
  refine .bind (pushScope_along hg hsc) fun _ w1 r1 ⟨hsc1, hs1⟩ => ?_
  rw [← hs1]
  refine ensuring_along (hbody (r1.good hg) hsc1) (fun w2 _ => (popScope_step S.module).mono fun _ _ _ _ => trivial) ?_
  rintro _ w2 r2 ⟨Γ', hsc2, hl⟩
  obtain ⟨more, rfl⟩ := hl.extends.uncons
  refine (popScope_along hsc2 hsc.length_le).mono fun _ w3 _ ⟨hsc3, hs3⟩ => ?_
  exact ⟨hsc3, _, hs3 ▸ hl⟩

lemma firstValue_value (hg : Good w) (hm : Live w m)
    (h : Along Steady w a (Answers E)) :
    Along Steady w (firstValue m name declared (some a)) fun v w' => ∃ c1 op1 t1 op t, E c1 op1 t1 ∧
      Deref c1 op1 t1 w'.store.code op t ∧ Is w' v op t := by
  refine .bind (evalExpr_along h) fun v w1 r1 ⟨op1, t1, hE, hv⟩ => ?_
  refine (ptrVal_along (r1.good hg) (hm.mono r1.toStep) hv).mono fun v' w2 r2 ⟨op, t, hd, hv'⟩ => ?_
  exact ⟨_, op1, t1, op, t, hE, hd, hv'⟩

lemma firstValue_zero (hg : Good w) (hm : Live w m) (hT : w.store.type? T.handle = some t) :
    Along Silent w (firstValue m name (some T) none) fun v w' => ∃ k, Const.zeroOf? t = some k ∧
      Is w' v (.const k) t := by
  refine .look (typeKind_along hg hT) fun k _ => ?_
  exact fail_ite fun _ => defaultValue_along hg hm hT

lemma stmtDef_along (hg : Good w) (hsc : Scoped w S Γ L)
    {init : Option (Act σ (Option ValueId))} {I : Code → Operand → Ty → Prop}
    (hinit : Along Steady w (firstValue S.module name declared init) fun v w' => ∃ op t,
      I w'.store.code op t ∧ Is w' v op t) (hdeclared : ∀ T, declared = some T → w.store.type? T.handle = some u) :
    Along Step w (stmtDef S.module name declared init) fun _ w' => ∃ Γ' c1 op t, Scoped w' S Γ' L ∧ I c1 op t ∧
      ((declared = none ∧ Binds Γ name op t c1 Γ' w'.store.code) ∨
        ∃ c2 op' t', declared.isSome ∧ Converts c1 op t u c2 op' t' ∧ Binds Γ name op' u c2 Γ' w'.store.code) := by
  refine .look (module_along S.module) fun M _ => ?_
  refine fail_ite fun _ => ?_
  refine .bind (steadily hinit) fun v w1 _ ⟨r1, op, t, hI, hv⟩ => ?_
  have hg1 := r1.good hg
  have hsc1 := hsc.mono r1
  refine .look (typeOf_along hv) fun T hT => ?_
  refine .look (typeKind_along hg1 hT) fun k _ => ?_
  refine fail_ite fun _ => ?_
  -- The slot and its name are the same whether or not a type is declared.
  have hrest : ∀ {w3 : World σ} {v : ValueId} {T : TypeId} {op : Operand} {t t' : Ty}, Good w3 →
      Scoped w3 S Γ L → Is w3 v op t' → w3.store.type? T.handle = some t → Along Step w3 (do
        let slot ← allocInit S.module name (some T) (some v)
        addValueSymbol S.module name (some slot)) fun _ w => ∃ Γ', Scoped w S Γ' L ∧
          Binds Γ name op t w3.store.code Γ' w.store.code := by
    intro w3 v T op t t' hg3 hsc3 hv hT
    refine .bind (steadily (allocInit_along hg3 hsc3.live name hT hv)) ?_
    rintro slot w4 - ⟨r4, g, k, c1, halloc, hty, hstore, hslot⟩
    refine (addValueSymbol_along (r4.good hg3) (hsc3.mono r4) hslot).mono fun _ w5 _ ⟨hsc5, hs5⟩ => ?_
    exact ⟨_, hsc5, hs5 ▸ .mk halloc hty hstore⟩
  cases declared with
  | none =>
    refine (hrest hg1 hsc1 hv hT).mono fun _ w3 _ ⟨Γ', hsc3, hbind⟩ => ?_
    exact ⟨Γ', _, op, t, hsc3, hI, .inl ⟨rfl, hbind⟩⟩
  | some D =>
    have hD := r1.store.type? (hdeclared D rfl)
    refine .look (typeKind_along hg1 hD) fun k _ => ?_
    refine fail_ite fun _ => ?_
    refine .bind (steadily (convert_along hg1 hsc1.live hv hD)) fun v' w3 _ ⟨r3, op', t', hconv, hv'⟩ => ?_
    refine (hrest (r3.good hg1) (hsc1.mono r3) hv' (r3.store.type? hD)).mono fun _ w4 _ ⟨Γ', hsc4, hbind⟩ => ?_
    exact ⟨Γ', _, op, t, hsc4, hI, .inr ⟨_, op', t', rfl, hconv, hbind⟩⟩

lemma tyOf_slot {e : Ty} (h : Emit.SlotOf c v g e) : c.tyOf (.inst g) = .ptr e := by
  cases h with
  | slot hslot | loaded _ hslot => simp only [Code.tyOf, hslot, Option.elim_some]

lemma stmtAssign_along (hg : Good w) (hm : Live w m) {target value : Act σ (Option ValueId)}
    {F : Code → Code → Operand → Ty → Prop}
    (htarget : Along Steady w target (Answers E))
    (hvalue : ∀ w1, Steady w w1 → Along Steady w1 value (Answers (F w1.store.code))) :
    Along Steady w (stmtAssign m (some target) (some value)) fun _ w' => ∃ c1 c2 c3 c4 l tl r tr g e v t v' t' k,
      E c1 l tl ∧ F c1 c2 r tr ∧ Emit.SlotOf c2 l g e ∧ Deref c2 r tr c3 v t ∧
      ((c4 = c3 ∧ v' = v ∧ t' = t) ∨ Converts c3 v t e c4 v' t') ∧ c4.tyOf v' = e ∧
      c4.Emits k (.store v' (.inst g)) .void w'.store.code := by
  refine .bind (evalExpr_along htarget) fun l w1 r1 ⟨opl, tl, hE, hl⟩ => ?_
  refine .bind (evalExpr_along (hvalue w1 r1)) fun r w2 r2 ⟨opr, tr, hF, hr⟩ => ?_
  have hg2 := r2.good (r1.good hg)
  have hm2 := (hm.mono r1.toStep).mono r2.toStep
  refine .bind (silently (ptrRef_along hg2 hm2 (hl.mono r2.toStep))) fun slot w3 _ ⟨r3, g, e, hslot, hslotIs⟩ => ?_
  have hg3 := r3.good hg2
  refine .bind (ptrVal_along hg3 (hm2.mono r3.toStep) (hr.mono r3.toStep)) fun v w4 r4 ⟨opv, t, hd, hv⟩ => ?_
  rw [r3.code] at hd
  have hg4 := r4.good hg3
  have hm4 := (hm2.mono r3.toStep).mono r4.toStep
  have hslot4 := hslotIs.mono r4.toStep
  have htyslot : ∀ {w' : World σ}, Steady w3 w' → w'.store.code.tyOf (.inst g) = .ptr e := by
    intro w' r'
    rw [(valueTy_mono hg3.store r'.store.toMono hslotIs.operand).2, r3.code, tyOf_slot hslot]
  refine .bind (typeOf_along hslot4) ?_
  rintro T w5 - ⟨rfl, hT⟩
  refine .bind (silently (elem_along hg4 hT)) fun elem? w5 _ ⟨r5, helem⟩ => ?_
  have hg5 := r5.good hg4
  have hslot5 := hslot4.mono r5.toStep
  cases elem? with
  | none =>
    refine .bind (P := fun x w' => w' = w5 ∧ x = v) (.pure ⟨rfl, rfl⟩) ?_
    rintro _ _ - ⟨rfl, rfl⟩
    refine .bind (storeTo_along hg5 hslot5 (htyslot (trans_of Steady r4 r5.toSteady)) (hv.mono r5.toStep)) ?_
    rintro _ w6 - ⟨k, hty, hstore⟩
    rw [r5.code] at hty hstore
    exact .pure ⟨_, _, _, _, opl, tl, opr, tr, g, e, opv, t, opv, t, k, hE, hF, hslot, hd, .inl ⟨rfl, rfl, rfl⟩,
      hty, hstore⟩
  | some D =>
    obtain ⟨u, hu, hD⟩ := helem D rfl
    cases hu
    refine .bind (convert_along hg5 (hm4.mono r5.toStep) (hv.mono r5.toStep) hD) ?_
    rintro v' w6 r6 ⟨op', t', hconv, hv'⟩
    rw [r5.code] at hconv
    refine .bind (storeTo_along (r6.good hg5) (hslot5.mono r6.toStep)
      (htyslot (trans_of Steady (trans_of Steady r4 r5.toSteady) r6)) hv') ?_
    rintro _ w7 - ⟨k, hty, hstore⟩
    exact .pure ⟨_, _, _, _, opl, tl, opr, tr, g, e, opv, t, op', t', k, hE, hF, hslot, hd, .inr hconv, hty, hstore⟩

lemma stmtReturn_none (hg : Good w) (hsc : Scoped w S Γ L) : Along Steady w (stmtReturn S.module none) fun _ w' =>
      (∀ b B F, w.store.code.Cursor b B → w.store.code.funcs B.func = some F → F.ret = .void) ∧
        w.store.code.Ends (.ret none) w'.store.code := by
  refine .bind (silently (enclosingFunc_along hsc)) ?_
  rintro r w' - ⟨-, rfl, fn, ps, va, rfl, hfn⟩
  have hplain : ∀ {w1 : World σ}, Silent w' w1 → Along Steady w1 (do
      if (none : Option (Act σ (Option ValueId))).isSome then
        fail S.module .returnMismatch "void function cannot return a value"
      let _ ← ret S.module none) fun _ w'' =>
      (∀ b B F, w'.store.code.Cursor b B → w'.store.code.funcs B.func = some F → F.ret = .void) ∧
        w'.store.code.Ends (.ret none) w''.store.code := by
    intro w1 r1
    refine .ite nofun fun _ => ?_
    refine .bind (retVoid_along (r1.good hg) S.module) fun _ w2 _ h => ?_
    rw [r1.code] at h
    exact .pure h
  refine .bind (silently (funcRetType_along hg S.module hfn)) fun x w1 _ ⟨r1, hx⟩ => ?_
  cases x with
  | none => exact hplain r1
  | some T =>
    refine .look (view_along (r1.good hg) (hx T rfl)) fun V _ => ?_
    refine .ite (fun _ => hplain r1) fun _ => ?_
    exact fail_ite fun h => absurd rfl h

lemma stmtReturn_some (hg : Good w) (hsc : Scoped w S Γ L) {E : Code → Code → Operand → Ty → Prop}
    (ha : ∀ w1, Steady w w1 → Along Steady w1 a (Answers (E w1.store.code))) :
    Along Steady w (stmtReturn S.module (some a)) fun _ w' => ∃ c1 c2 c3 op1 t1 op2 t2 op3 t3,
      E w.store.code c1 op1 t1 ∧ Deref c1 op1 t1 c2 op2 t2 ∧ Converts c2 op2 t2 S.ret c3 op3 t3 ∧
      c3.Ends (.ret (some op3)) w'.store.code := by
  refine .bind (silently (enclosingFunc_along hsc)) ?_
  rintro r w' - ⟨-, rfl, fn, ps, va, rfl, hfn⟩
  refine .bind (silently (funcRetType_along hg S.module hfn)) fun x w1 _ ⟨r1, hx⟩ => ?_
  cases x with
  | none => exact fail_ite fun h => absurd rfl h
  | some T =>
    have hg1 := r1.good hg
    refine .look (view_along hg1 (hx T rfl)) fun V _ => ?_
    refine .ite (fun _ => fail_ite fun h => absurd rfl h) fun _ => ?_
    refine .ite nofun fun _ => ?_
    refine .bind (evalExpr_along (ha w1 r1.toSteady)) fun v w3 r3 ⟨op1, t1, hE, hv⟩ => ?_
    rw [r1.code] at hE
    have hg3 := r3.good hg1
    have hm3 := (hsc.mono r1.toSteady).live.mono r3.toStep
    refine .bind (ptrVal_along hg3 hm3 hv) fun v' w4 r4 ⟨op2, t2, hd, hv'⟩ => ?_
    have hg4 := r4.good hg3
    refine .bind (convert_along hg4 (hm3.mono r4.toStep) hv' (r4.store.type? (r3.store.type? (hx T rfl)))) ?_
    rintro v'' w5 r5 ⟨op3, t3, hconv, hv''⟩
    refine .bind (retValue_along (r5.good hg4) S.module hv'') fun _ w6 _ hend => ?_
    exact .pure ⟨_, _, _, op1, t1, op2, t2, op3, t3, hE, hd, hconv, hend⟩

lemma loopJumps_along (hg : Good w) (hsc : Scoped w S Γ L) : Along Steady w (stmtBreak S.module) (fun _ w' =>
    ∃ leave next, L = some (leave, next) ∧ w.store.code.Ends (.br leave) w'.store.code) ∧
    Along Steady w (stmtContinue S.module) fun _ w' =>
      ∃ leave next, L = some (leave, next) ∧ w.store.code.Ends (.br next) w'.store.code := by
  constructor
  all_goals
    refine .look (loop_along hsc) fun M hloop => ?_
    cases hl : M.loop with
    | none => exact fail_along
    | some l =>
      rw [hl] at hloop
      exact .bind (jump_along hg S.module _) fun _ w'' _ hend => .pure ⟨_, _, hloop.symm, hend⟩

def PresentTo (S : Site) (Γ : Env) (e : Option Tree.Expr) (c c' : Code) (v : Operand) (t : Ty) : Prop :=
  ∃ x, e = some x ∧ ExprTo S Γ x c c' v t

def Yields (S : Site) (a : Act σ (Option ValueId)) (e : Option Tree.Expr) : Prop :=
  ∀ {w L Γ}, Good w → Scoped w S Γ L → Along Steady w a fun r w' => ∀ v, r = some v → ∃ op t,
    PresentTo S Γ e w.store.code w'.store.code op t ∧ Is w' v op t

def YieldsOpt (S : Site) (a : Option (Act σ (Option ValueId))) (e : Option Tree.Expr) : Prop :=
  (a = none ∧ e = none) ∨ ∃ b, a = some b ∧ Yields S b e

section

variable (hg : Good w)

include hg

lemma evalCond_value (hsc : Scoped w S Γ L) (ha : Yields S a e) :
    Along Steady w (evalCond S.module (some a)) fun v w' => ∃ x op t,
      e = some x ∧ ValueTo S Γ x w.store.code w'.store.code op t ∧ Is w' v op t := by
  refine (evalCond_along hg hsc.live (ha hg hsc)).mono fun v w' _ ⟨c1, op1, t1, op, t, ⟨x, he, hE⟩, hd, hv⟩ => ?_
  exact ⟨x, op, t, he, .mk hE hd, hv⟩

section Loop

variable {s : Tree.Stmt} (hk : s.kind? = some .loop)
  {cond : Option (Act σ (Option ValueId))}
  (hinit : Builds S (runOptional init) fun L Γ c Γ' c' => PartTo S L Γ s.init c Γ' c')
  (hcond : YieldsOpt S cond s.cond)
  (hstep : Builds S (runOptional step) fun L Γ c Γ' c' => PartTo S L Γ s.step c Γ' c')
  (hbody : Builds S (runOptional body) fun L Γ c Γ' c' => ∃ b, s.body = some b ∧ PartTo S L Γ (some b) c Γ' c')

include hk hinit hcond hstep hbody

lemma loopWith_along (hsc : Scoped w S ([] :: Γ) L) :
    Along Step w (loopWith S.module init cond (fun _ => step) fun _ => body) fun _ w' => ∃ Γ' L',
      Env.Extends ([] :: Γ) Γ' ∧ Scoped w' S Γ' L' ∧ StmtTo S L Γ s w.store.code Γ w'.store.code := by
  refine .bind (hinit hg hsc) fun _ w1 r1 ⟨Γ1, hsc1, hinit1⟩ => ?_
  have hg1 := r1.good hg
  refine .bind (steadily (createBlock_along hg1 hsc1 _)) fun blkCond w2 _ ⟨r2, hneCond, hopenCond⟩ => ?_
  have hg2 := r2.good hg1
  have hsc2 := hsc1.mono r2
  refine .bind (steadily (createBlock_along hg2 hsc2 _)) fun blkStep w3 _ ⟨r3, hneStep, hopenStep⟩ => ?_
  have hg3 := r3.good hg2
  have hsc3 := hsc2.mono r3
  refine .bind (steadily (createBlock_along hg3 hsc3 _)) fun blkBody w4 _ ⟨r4, hneBody, hopenBody⟩ => ?_
  have hg4 := r4.good hg3
  have hsc4 := hsc3.mono r4
  refine .bind (steadily (createBlock_along hg4 hsc4 _)) fun blkEnd w5 _ ⟨r5, hneEnd, hopenEnd⟩ => ?_
  have hg5 := r5.good hg4
  refine .bind (steadily (jumpUnlessTerminated_along hg5 S.module blkCond)) fun _ w6 _ ⟨r6, henter⟩ => ?_
  refine .bind (steadily (setActiveBlock_along S.module blkCond)) fun _ w7 _ ⟨r7, hset⟩ => ?_
  obtain ⟨hcode7, -⟩ := hset hneCond
  have hg7 := r7.good (r6.good hg5)
  have hsc7 := ((hsc4.mono r5).mono r6).mono r7
  -- What follows the end of the condition block.
  have hrest : ∀ {w8 : World σ}, Good w8 → Scoped w8 S Γ1 L →
      LoopCondTo S Γ1 blkBody.handle blkEnd.handle s.cond w7.store.code w8.store.code → Along Step w8
        (repeating S.module ⟨blkEnd, blkStep⟩ blkBody blkCond (fun _ => step) fun _ => body) fun _ w' => ∃ Γ' L',
          Env.Extends ([] :: Γ) Γ' ∧ Scoped w' S Γ' L' ∧ StmtTo S L Γ s w.store.code Γ w'.store.code := by
    intro w8 hg8 hsc8 htest
    refine .bind (setLoop_along hsc8 (some ⟨blkEnd, blkStep⟩)) fun _ w9 r9 ⟨hsc9, hs9⟩ => ?_
    refine .bind (steadily (setActiveBlock_along S.module blkBody)) fun _ w10 _ ⟨r10, hset10⟩ => ?_
    obtain ⟨hcode10, -⟩ := hset10 hneBody
    have hg10 := r10.good (r9.good hg8)
    refine .bind (hbody hg10 (hsc9.mono r10)) fun _ w11 r11 ⟨Γ2, hsc11, b, hb, hrun⟩ => ?_
    have hg11 := r11.good hg10
    refine .bind (steadily (jumpUnlessTerminated_along hg11 S.module blkStep)) fun _ w12 _ ⟨r12, hnext⟩ => ?_
    refine .bind (steadily (setActiveBlock_along S.module blkStep)) fun _ w13 _ ⟨r13, hset13⟩ => ?_
    obtain ⟨hcode13, -⟩ := hset13 hneStep
    have hg13 := r13.good (r12.good hg11)
    refine .bind (hstep hg13 ((hsc11.mono r12).mono r13)) fun _ w14 r14 ⟨Γ3, hsc14, hagain⟩ => ?_
    refine .bind (steadily (jumpUnlessTerminated_along (r14.good hg13) S.module blkCond)) fun _ w15 _ ⟨r15, hback⟩ => ?_
    refine (steadily (setActiveBlock_along S.module blkEnd)).mono fun _ w16 _ ⟨r16, hset16⟩ => ?_
    obtain ⟨hcode16, -⟩ := hset16 hneEnd
    refine ⟨Γ3, _, (hinit1.extends.trans hrun.extends).trans hagain.extends, (hsc14.mono r15).mono r16, ?_⟩
    rw [hcode7] at htest
    rw [hcode10, hs9] at hrun
    rw [hcode13] at hagain
    rw [hcode16]
    exact .loop hk hb hinit1 hopenCond hopenStep hopenBody hopenEnd henter htest hrun hnext hagain hback
  rcases hcond with ⟨rfl, hnone⟩ | ⟨a, rfl, ha⟩
  · refine .bind (steadily (jump_along hg7 S.module blkBody)) fun _ w8 _ ⟨r8, hend⟩ => ?_
    refine hrest (r8.good hg7) (hsc7.mono r8) ?_
    rw [hnone]
    exact .none hend
  · refine .bind (steadily (evalCond_value hg7 hsc7 ha)) fun v w8 _ ⟨r8, e, op, t, hsome, hvalue, hv⟩ => ?_
    have hg8 := r8.good hg7
    refine .bind (steadily (jumpCond_along hg8 S.module hv blkBody blkEnd)) fun _ w9 _ ⟨r9, _, hfork⟩ => ?_
    refine hrest (r9.good hg8) ((hsc7.mono r8).mono r9) ?_
    rw [hsome]
    exact .some hvalue hfork

lemma stmtLoop_along (hsc : Scoped w S Γ L) :
    Along Step w (stmtLoop S.module init cond step body) fun _ w' => Scoped w' S Γ L ∧
      StmtTo S L Γ s w.store.code Γ w'.store.code := by
  refine .bind (pushScope_along hg hsc) fun _ w1 r1 ⟨hsc1, hs1⟩ => ?_
  have hg1 := r1.good hg
  refine .look (loop_along hsc1) fun M hloop => ?_
  refine ensuring_along (loopWith_along hg1 hk hinit hcond hstep hbody hsc1) ?_ ?_
  · exact fun w3 _ => .bind (update_along (Q := fun _ _ => True) (step_loop _ _) trivial) fun _ w4 _ _ =>
      (popScope_step S.module).mono fun _ _ _ _ => trivial
  · rintro _ w3 r3 ⟨Γ', L', hext, hsc3, hs⟩
    obtain ⟨more, rfl⟩ := hext.uncons
    refine .bind (setLoop_along hsc3 M.loop) fun _ w4 r4 ⟨hsc4, hs4⟩ => ?_
    rw [hloop] at hsc4
    refine (popScope_along hsc4 hsc.length_le).mono fun _ w5 _ ⟨hsc5, hs5⟩ => ?_
    rw [hs5, hs4, ← hs1]
    exact ⟨hsc5, hs⟩

end Loop

lemma exprArm_along (hsc : Scoped w S Γ L) (hne : block.handle ≠ noHandle) (ha : Yields S a e) :
    Along Steady w (exprArm S.module block (some a) what after) fun r w' => ∃ x c1 op t, e = some x ∧
      ValueTo S Γ x (w.store.code.move (some block.handle)) c1 op t ∧ c1.active = some r.2.handle ∧
      c1.Ends (.br after.handle) w'.store.code ∧ Is w' r.1 op t := by
  refine .bind (setActiveBlock_along S.module block) fun _ w1 r1 hset => ?_
  obtain ⟨hcode, -⟩ := hset hne
  have hg1 := r1.good hg
  have hsc1 := hsc.mono r1
  refine .bind (evalExpr_along (ha hg1 hsc1)) fun v w2 r2 ⟨op1, t1, ⟨x, hx, hE⟩, hv⟩ => ?_
  have hg2 := r2.good hg1
  refine .bind (ptrVal_along hg2 (hsc1.mono r2).live hv) fun v' w3 r3 ⟨op, t, hd, hv'⟩ => ?_
  have hg3 := r3.good hg2
  refine .bind (silently (activeBlock_along hg3 S.module)) fun source w4 _ ⟨r4, hs4, _, hactive⟩ => ?_
  refine .bind (jump_along (r4.good hg3) S.module after) fun _ w5 r5 hend => ?_
  rw [r4.code] at hend
  rw [hcode] at hE
  cases source with
  | none => exact .throw
  | some b => exact .pure ⟨x, _, op, t, hx, .mk hE hd, hactive b rfl, hend, (hv'.mono r4.toStep).mono r5.toStep⟩

lemma exprBranch_along (hsc : Scoped w S Γ L) {e : Tree.Expr} (hk : e.kind? = some .ternary)
    (hcond : Yields S cond e.cond) (hyes : Yields S yes e.x) (hno : Yields S no e.y) :
    Along Steady w (exprBranch S.module (some cond) (some yes) (some no)) fun v w' => ∃ op t,
      ExprTo S Γ e w.store.code w'.store.code op t ∧ Is w' v op t := by
  refine .bind (createBlock_along hg hsc _) fun start w1 r1 ⟨hneStart, hstart⟩ => ?_
  have hg1 := r1.good hg
  have hsc1 := hsc.mono r1
  refine .bind (createBlock_along hg1 hsc1 _) fun onTrue w2 r2 ⟨hneTrue, hopenTrue⟩ => ?_
  have hg2 := r2.good hg1
  have hsc2 := hsc1.mono r2
  refine .bind (createBlock_along hg2 hsc2 _) fun onFalse w3 r3 ⟨hneFalse, hopenFalse⟩ => ?_
  have hg3 := r3.good hg2
  have hsc3 := hsc2.mono r3
  refine .bind (createBlock_along hg3 hsc3 _) fun after w4 r4 ⟨hneAfter, hafter⟩ => ?_
  have hg4 := r4.good hg3
  refine .bind (jump_along hg4 S.module start) fun _ w5 r5 henter => ?_
  refine .bind (setActiveBlock_along S.module start) fun _ w6 r6 hset => ?_
  obtain ⟨hcode6, -⟩ := hset hneStart
  have hg6 := r6.good (r5.good hg4)
  have hsc6 := ((hsc3.mono r4).mono r5).mono r6
  refine .bind (evalCond_value hg6 hsc6 hcond) fun v w7 r7 ⟨b, opb, tb, hb, hvb, hv⟩ => ?_
  rw [hcode6] at hvb
  have hg7 := r7.good hg6
  refine .bind (jumpCond_along hg7 S.module hv onTrue onFalse) fun _ w8 r8 ⟨_, hfork⟩ => ?_
  have hg8 := r8.good hg7
  have hsc8 := (hsc6.mono r7).mono r8
  refine .bind (exprArm_along hg8 hsc8 hneTrue hyes) fun ⟨vx, p⟩ w9 r9 ⟨x, c9, opx, tx, hx, hvx, hp, hjoin, hx'⟩ => ?_
  have hg9 := r9.good hg8
  refine .bind (exprArm_along hg9 (hsc8.mono r9) hneFalse hno) ?_
  rintro ⟨vy, q⟩ w10 r10 ⟨y, c11, opy, ty, hy, hvy, hq, hmeet, hy'⟩
  refine .bind (setActiveBlock_along S.module after) fun _ w11 r11 hset11 => ?_
  obtain ⟨hcode11, -⟩ := hset11 hneAfter
  have hg11 := r11.good (r10.good hg9)
  have hx11 := (hx'.mono r10.toStep).mono r11.toStep
  have hy11 := hy'.mono r11.toStep
  refine .look (typeOf_along hx11) fun Tx hTx => ?_
  refine .look (typeOf_along hy11) fun Ty hTy => ?_
  refine .ite (fun _ => ?_) fun hsame => ?_
  · refine .look (typeName_along Tx) fun _ _ => ?_
    refine .look (typeName_along Ty) fun _ _ => ?_
    exact fail_bind
  · have hty : tx = ty := (sameType_iff hg11 hTx hTy).1 (by simpa using hsame)
    have hm := (((hsc8.mono r9).mono r10).mono r11).live
    refine (phi_along hg11 hm hTx p q hx11 hy11).mono fun z w13 _ ⟨h, hvx', hvy', hput, hz⟩ => ?_
    rw [hcode11] at hvx' hvy' hput
    exact ⟨.inst h, tx, .ternary hk hb hx hy hstart hopenTrue hopenFalse hafter henter hvb hfork hvx hp hjoin hvy hq
      hmeet hty hvx' hvy' hput, hz⟩

lemma ensureTailRet_along (hm : Live w S.module) (hfn : Is w fn op (.func S.ret ps va)) :
    Along Steady w (ensureTailRet S.module (some fn)) fun _ w' => TailTo S w.store.code w'.store.code := by
  refine .bind (silently (activeBlock_along hg S.module)) fun r w1 _ ⟨r1, hs1, hclosed1, _⟩ => ?_
  have hg1 := r1.good hg
  refine .bind (silently (isTerminated_active hg1 S.module)) fun ended w2 _ ⟨r2, hs2, hclosed2⟩ => ?_
  have hg2 := r2.good hg1
  have hr := trans_of Silent r1 r2
  rw [← hr.code]
  refine .ite (fun h => .pure (.ended ?_)) fun _ => ?_
  · rw [hr.code]
    rw [r1.code] at hclosed2
    rcases Bool.or_eq_true_iff.1 h with h | h
    · exact hclosed1 (Option.isNone_iff_eq_none.1 h)
    · exact hclosed2 h
  · refine .bind (silently (funcRetType_along hg2 S.module (hfn.mono hr.toStep))) fun x w3 _ ⟨r3, hx⟩ => ?_
    have hg3 := r3.good hg2
    rw [← r3.code]
    cases x with
    | none =>
      refine .look (need_along _) fun fn' _ => ?_
      refine .look (typeOf_sound hg3 fn') fun T _ => ?_
      refine .look (typeName_along T) fun _ _ => ?_
      exact fail_along
    | some T =>
      refine .look (typeKind_along hg3 (hx T rfl)) fun k _ => ?_
      refine .ite (fun _ => ?_) fun _ => ?_
      · exact .bind (retVoid_along hg3 S.module) fun _ w5 _ h => .pure (.void h.1 h.2)
      · refine .bind (silently (defaultValue_along hg3 (hm.mono (trans_of Silent hr r3).toStep) (hx T rfl))) ?_
        rintro v w5 - ⟨r5, k, hk, hv⟩
        refine .bind (retValue_along (r5.good hg3) S.module hv) fun _ w6 _ hend => .pure ?_
        rw [r5.code] at hend
        exact .zero hk hend

lemma callRuntime_along (hsc : Scoped w S Γ L) (name) (hargs : List.Forall₂ (fun a p => Is w a p.1 p.2) args vals) :
    Along Steady w (callRuntime S.module name args) fun x w' => ∃ v r,
      CallsNamed Γ w.store.code name vals w'.store.code v r ∧ Is w' x v r := by
  refine .look ((valueSymbol_found hsc name).weaken fun _ r => r.toSteady) fun r _ => ?_
  cases r with
  | some _ => exact callNamed_along hg hsc name hargs
  | none => exact .bind ((report_along S.module _).weaken fun _ r => r.toSteady) fun _ _ _ _ => .throw

lemma makeSized_along (hsc : Scoped w S Γ L) (hT : w.store.type? T.handle = some t)
    (hsize : Is w size op u) (check) :
    Along Steady w (makeSized S.module T size check) fun x w' => ∃ v,
      Makes S Γ w.store.code t op check w'.store.code v (.ptr t) ∧ Is w' x v (.ptr t) := by
  refine .bind (callRuntime_along hg hsc "malloc" (.cons (b := (op, u)) hsize .nil)) ?_
  rintro raw w1 r1 ⟨opr, r, hcall, hraw⟩
  have hg1 := r1.good hg
  have hsc1 := hsc.mono r1
  have hrest : ∀ {w2 : World σ}, Steady w1 w2 → Along Steady w2 (do
      let pt ← pointerTo T
      bitcast S.module raw pt) fun x w' => ∃ h,
        w2.store.code.Emits h (.cast .bitcast opr (.ptr t)) (.ptr t) w'.store.code ∧ Is w' x (.inst h) (.ptr t) := by
    intro w2 r2
    have hg2 := r2.good hg1
    refine .bind (silently (pointerTo_along hg2 (r2.store.type? (r1.store.type? hT)))) fun P w3 _ ⟨r3, hP⟩ => ?_
    rw [← r3.code]
    exact bitcast_along (r3.good hg2) ((hsc1.mono r2).live.mono r3.toStep) ((hraw.mono r2.toStep).mono r3.toStep) hP
  cases check with
  | false =>
    refine (hrest (refl_of Steady w1)).mono fun x w2 _ ⟨h, hcast, hx⟩ => ?_
    exact ⟨_, .plain hcall hcast, hx⟩
  | true =>
    refine .look (typeOf_along hraw) fun R hR => ?_
    refine .bind (silently (defaultValue_along hg1 hsc1.live hR)) fun null w1 _ ⟨r2, k, hk, hnull⟩ => ?_
    have hg2 := r2.good hg1
    have hsc2 := hsc1.mono r2.toSteady
    refine .bind (stmtBranch_along (fun _ _ => id) (fun _ _ r => r.toStep) hg2 hsc2
      (Y := fun Γ c Γ' c' => Γ' = Γ ∧ c' = c) (N := fun Γ c Γ' c' => Γ' = Γ ∧ c' = c)
      (E := fun c op t => Combines .eq w1.store.code opr (.const k) c op t) ?_ ?_ ?_) ?_
    · refine .bind (applyBinary_along hg2 hsc2.live .eq (hraw.mono r2.toStep) hnull) ?_
      rintro x w3 - ⟨-, opx, tx, hcomb, hx⟩
      refine .pure fun v hv => ?_
      cases hv
      exact ⟨opx, tx, hcomb, hx⟩
    · exact fun u Γ' _ hu => .pure ⟨.refl _, Γ', hu, rfl, rfl⟩
    · exact fun u Γ' _ hu => runOptional_none ⟨.refl _, Γ', hu, rfl, rfl⟩
    · rintro _ w3 r3 ⟨c0, x, tx, opx, t', c1, c2, c3, c4, c5, c6, c7, c8, c9, Γ1, Γ2, yes, no, after, hcomb, hd, hyes, hno,
        hafter, hfork, ⟨rfl, rfl⟩, hjoin, ⟨rfl, rfl⟩, hmeet, hcode, -⟩
      refine (hrest (trans_of Steady r2.toSteady r3)).mono fun z w4 _ ⟨h, hcast, hz⟩ => ?_
      rw [hcode] at hcast
      rw [r2.code] at hcomb
      exact ⟨_, .checked hcall hk hcomb hd (.mk hyes hno hafter hfork hjoin hmeet) hcast, hz⟩

lemma make_along (hsc : Scoped w S Γ L) (hT : w.store.type? T.handle = some t) :
    Along Steady w (make S.module T) fun x w' => ∃ n v,
      Makes S Γ w.store.code t (.const (.int .w64 n)) true w'.store.code v (.ptr t) ∧ Is w' x v (.ptr t) := by
  refine .bind (silently (typeSize_along hg hsc.live T)) fun size w1 _ ⟨r1, n, hsize⟩ => ?_
  refine (makeSized_along (r1.good hg) (hsc.mono r1.toSteady) (r1.store.type? hT) hsize true).mono ?_
  rintro x w2 - ⟨v, hmake, hx⟩
  rw [r1.code] at hmake
  exact ⟨n, v, hmake, hx⟩

lemma makeMany_along (hsc : Scoped w S Γ L) (hT : w.store.type? T.handle = some t)
    (hcount : Is w count op u) (hop : ¬w.store.code.IsSlot op) :
    Along Steady w (makeMany S.module T count) fun x w' => ∃ c1 c2 n v' u' z rz y,
      Converts w.store.code op u .i64 c1 v' u' ∧ Combines .mul c1 (.const (.int .w64 n)) v' c2 z rz ∧
      Makes S Γ c2 t z false w'.store.code y (.ptr t) ∧ Is w' x y (.ptr t) := by
  refine .bind (silently (typeSize_along hg hsc.live T)) fun size w1 _ ⟨r1, n, hsize⟩ => ?_
  have hg1 := r1.good hg
  have hsc1 := hsc.mono r1.toSteady
  refine .bind (ptrVal_along hg1 hsc1.live (hcount.mono r1.toStep)) fun k w2 r2 ⟨op', u', hd, hk⟩ => ?_
  rw [r1.code] at hd
  obtain ⟨hcode, rfl, rfl⟩ := hd.eq_of_not_slot hop
  have hg2 := r2.good hg1
  have hsc2 := hsc1.mono r2
  have hsize2 := hsize.mono r2.toStep
  refine .look (typeOf_along hk) fun K hK => ?_
  refine .look (view_along hg2 hK) fun V _ => ?_
  refine fail_ite fun _ => ?_
  refine .look (typeOf_along hsize2) fun Z hZ => ?_
  refine .bind (convert_along hg2 hsc2.live hk hZ) fun k' w4 r4 ⟨v', u', hconv, hk'⟩ => ?_
  rw [hcode] at hconv
  have hg4 := r4.good hg2
  have hsc4 := hsc2.mono r4
  refine .bind (applyBinary_along hg4 hsc4.live .mul (hsize2.mono r4.toStep) hk') ?_
  rintro total w5 r5 ⟨-, z, rz, hz, htotal⟩
  have hT5 := r5.store.type? (r4.store.type? (r2.store.type? (r1.store.type? hT)))
  refine (makeSized_along (r5.good hg4) (hsc4.mono r5) hT5 htotal false).mono fun x w6 _ ⟨y, hmake, hx⟩ => ?_
  exact ⟨_, _, n, v', u', z, rz, y, hconv, hz, hmake, hx⟩

lemma drop_along (hsc : Scoped w S Γ L) (hptr : Is w ptr op t) :
    Along Steady w (drop S.module ptr) fun _ w' => ∃ c1 c2 v v' t' x r, Deref w.store.code op t c1 v t' ∧
      ((c2 = c1 ∧ v' = v) ∨ ∃ h, v' = .inst h ∧ c1.Emits h (.cast .bitcast v .bytes) .bytes c2) ∧
      ∃ u, CallsNamed Γ c2 (Text.ofString "free") [(v', u)] w'.store.code x r := by
  refine .bind (ptrVal_along hg hsc.live hptr) fun p w1 r1 ⟨v, t', hd, hp⟩ => ?_
  have hg1 := r1.good hg
  have hsc1 := hsc.mono r1
  refine .bind (typeOf_along hp) ?_
  rintro P w2 - ⟨rfl, hP⟩
  refine .bind (view_along hg1 hP) ?_
  rintro V w2 - ⟨rfl, -⟩
  refine fail_ite fun _ => ?_
  refine .ite (fun _ => ?_) fun _ => ?_
  · refine .bind (P := fun x w' => w' = w2 ∧ x = p) (.pure ⟨rfl, rfl⟩) ?_
    rintro _ _ - ⟨rfl, rfl⟩
    refine .bind (callRuntime_along hg1 hsc1 "free" (.cons (b := (v, t')) hp .nil)) fun _ w3 _ ⟨x, r, hcall, _⟩ => ?_
    exact .pure ⟨_, _, v, v, t', x, r, hd, .inl ⟨rfl, rfl⟩, t', hcall⟩
  · refine .bind (silently (prim_along hg1 S.module .bytes)) fun B w3 _ ⟨r3, hB⟩ => ?_
    have hg3 := r3.good hg1
    have hsc3 := hsc1.mono r3.toSteady
    refine .bind (bitcast_along hg3 hsc3.live (hp.mono r3.toStep) hB) fun q w4 r4 ⟨h, hcast, hq⟩ => ?_
    rw [r3.code] at hcast
    refine .bind (callRuntime_along (r4.good hg3) (hsc3.mono r4) "free" (.cons (b := (.inst h, .bytes)) hq .nil)) ?_
    rintro _ w5 - ⟨x, r, hcall, -⟩
    exact .pure ⟨_, _, v, .inst h, t', x, r, hd, .inr ⟨h, rfl, hcast⟩, .bytes, hcall⟩

end

end Act

end Arbor.Build
