import Arbor.Proofs.Signatures

/-! Loading modules. A module that loads has well-formed control flow, whatever was loaded before it
and whether or not that failed. -/

namespace Arbor.Build

open IR Diag Proofs Lower IR.Code Arbor.Tree

variable {σ : Type} {w w' : World σ} {m : Handle}
variable {α : Type} {cancelled : Act σ Bool} {P : Handle → World σ → Prop} {types : List TypeId}
variable {fill : Handle → Act σ Unit}

lemma Top.ready (hg : Good w) (h : Top w S Γ) : Ready w S.module := by
  obtain ⟨M, l, imp, hout⟩ := h
  obtain ⟨sc, ls, hget, -, hl, hchain⟩ := hout.chain.uncons (by simp)
  cases (List.cons.inj hl).2
  have hparent : sc.parent = 0 := by
    generalize sc.parent = p at hchain
    cases hchain
    rfl
  exact ⟨M, hout.module, (hg.scopes _ M hout.module).root _ sc hget hparent, hout.loop⟩

lemma function_framed (hw : Declares m w) (d) (hfn : Act.IsFunc w fn) :
    Along Step w (function m d fn) fun _ w' => Ready w' m ∧ Framed w.store.code w'.store.code := by
  obtain ⟨h, r, ps, va, his⟩ := hfn
  obtain ⟨M, hM⟩ := hw.2.live
  obtain ⟨Γ, htop, -⟩ := exists_top hw (hw.1.named hM h r)
  refine (function_along hw.1 htop his d).mono fun _ w' hstep ⟨htop', hfunc⟩ => ?_
  exact ⟨htop'.ready (hstep.good hw.1), hfunc.framed⟩

namespace Act

def Aside {α : Type} (a : Act σ α) : Prop := ∀ w, Along (fun w w' => w'.store = w.store ∧ w'.modules = w.modules) w a

lemma Aside.silent (h : Aside a) : Along Silent w a := (h w).weaken fun _ r => silent_of_eq r.1 r.2

end Act

lemma checkpoint_along (hc : Act.Aside cancelled) : Along Silent w (checkpoint cancelled) := by
  exact .bind hc.silent fun b w1 _ _ => .ite (fun _ => .throw) fun _ => .pure trivial

lemma bodies_along (hc : Act.Aside cancelled) (hw : Declares m w)
    {funcs : List (Decl × ValueId)} (hfuncs : ∀ p ∈ funcs, Act.IsFunc w p.2) :
    Along Step w (bodies m cancelled funcs) fun _ w' => Ready w' m ∧ Framed w.store.code w'.store.code := by
  refine (Along.forM (I := fun w' => Declares m w' ∧ Step w w' ∧ Framed w.store.code w'.store.code) funcs
    (fun p hp w1 ⟨hw1, r1, hf1⟩ => ?_) w ⟨hw, refl_of Step w, .refl _⟩).mono fun _ _ _ h => ⟨h.1.2, h.2.2⟩
  obtain ⟨d, fn⟩ := p
  refine .bind ((checkpoint_along hc).keep fun _ r => r.toStep) fun _ w2 _ ⟨r2, _⟩ => ?_
  have hfn := ((hfuncs _ hp).mono r1).mono r2.toStep
  refine .bind (Act.attempt_along (function_framed (hw1.mono r2.outer) d hfn)) fun r w3 r3 hr => ?_
  cases r with
  | error f => exact .throw
  | ok u =>
    obtain ⟨hready, hframed⟩ := hr u rfl
    exact .pure ⟨⟨r3.good (r2.good hw1.1), hready⟩, trans_of Step r1 (trans_of Step r2.toStep r3),
      (hf1.trans r2.outer.framed).trans hframed⟩

lemma pass_along [IsPreorder (World σ) R] (hr : ∀ w w', Silent w w' → R w w') (hc : Act.Aside cancelled)
    (hQ : ∀ x w1 w2, Silent w1 w2 → Q x w1 → Q x w2) (src name) (hbody : ∀ w1, Silent w w1 → Along R w1 body Q) :
    Along R w (Lower.pass m src cancelled name body) Q := by
  have lift : ∀ {α : Type} {w1 : World σ} {a : Act σ α}, (Along Silent w1 a) →
      Along R w1 a fun _ w2 => Silent w1 w2 := fun h =>
    (h.mono fun _ _ r _ => r).weaken (hr _)
  refine .bind (lift (checkpoint_along hc)) fun _ w1 _ r1 => ?_
  refine .look (Act.module_along m) fun M _ => ?_
  refine .bind (lift (Act.beginSpan_along ..)) fun span w3 _ r3 => ?_
  refine .bind (Act.attempt_along (hbody w3 (trans_of Silent r1 r3))) fun r w4 _ hx => ?_
  cases r with
  | ok x => exact .bind (lift (Act.endSpan_along ..)) fun _ w5 _ r5 => .pure (hQ x w4 w5 r5 (hx x rfl))
  | error f => exact .bind (lift (Act.endSpan_along ..)) fun _ _ _ _ => .throw

lemma pass_outer (hc : Act.Aside cancelled) (src) {P : α → World σ → Prop} (name)
    (hP : ∀ x w1 w2, Silent w1 w2 → P x w1 → P x w2) (hbody : ∀ w1, Silent w w1 → Along Outer w1 body P) :
    Along Step w (Lower.pass m src cancelled name body) fun x w1 => Outer w w1 ∧ P x w1 :=
  (pass_along (fun _ _ r => r.outer) hc hP src name hbody).keep fun _ r => r.toStep

lemma passes_along (hc : Act.Aside cancelled) (hw : Declares m w) (src) :
    Along Step w (passes m src cancelled) fun _ w' => Framed w.store.code w'.store.code := by
  have stable : ∀ {α : Type} (_ : α) (w1 w2 : World σ), Silent w1 w2 → True → True := fun _ _ _ _ => id
  refine .bind (pass_outer hc src "imports" stable fun w1 r1 => useImports_along (hw.mono r1.outer) src) ?_
  rintro _ w1 - ⟨r1, -⟩
  have hw1 := hw.mono r1
  refine .bind (pass_outer hc src "structs" stable fun w2 r2 =>
    (declareStructs_items (hw1.mono r2.outer) src).mono fun _ _ _ _ => trivial) ?_
  rintro decls w2 - ⟨r2, -⟩
  have hw2 := hw1.mono r2
  refine .bind (pass_outer hc src "signatures" (fun funcs w3 w4 r h p hp => (h p hp).mono r.toStep)
    fun w3 r3 => declareFuncs_along (hw2.mono r3.outer) decls) ?_
  rintro funcs w3 - ⟨r3, hfuncs⟩
  have hw3 := hw2.mono r3
  refine .bind (pass_outer hc src "lets" stable fun w4 r4 =>
    (declareLets_stated decls (hw3.mono r4.outer)).mono fun _ _ _ _ => trivial) ?_
  rintro _ w4 - ⟨r4, -⟩
  have hw4 := hw3.mono r4
  refine .bind (pass_along (Q := fun _ w' => Ready w' m ∧ Framed w4.store.code w'.store.code)
    (fun _ _ r => r.toStep) hc (fun _ w5 w6 r h => ⟨h.1.mono r.outer, h.2.trans r.outer.framed⟩) src "bodies"
    fun w5 r5 => ?_) ?_
  · refine (bodies_along hc (hw4.mono r5.outer) fun p hp => ((hfuncs p hp).mono r4.toStep).mono r5.toStep).mono ?_
    exact fun _ _ _ h => ⟨h.1, r5.outer.framed.trans h.2⟩
  rintro _ w5 r5 ⟨hready, hframed⟩
  refine (pass_outer hc src "exports" stable fun w6 r6 => (exportNames_kept
    ⟨r6.good (r5.good hw4.1), hready.mono r6.outer⟩ decls).mono fun _ _ _ _ => trivial).mono ?_
  rintro _ w6 - ⟨r6, -⟩
  exact (((((r1.framed.trans r2.framed).trans r3.framed).trans r4.framed).trans hframed).trans r6.framed)

namespace Act

lemma prim_plain (hg : Good w) (m p) : Along Silent w (prim m p) fun T w' => Nameable w' (some T) := by
  refine (prim_along hg m p).mono fun T w' _ hT T' hT' => ?_
  cases hT'
  exact ⟨_, hT, by cases p <;> trivial⟩

lemma declareAll_along (l) : ∀ {w : World σ}, Declares m w →
    Along Outer w (declareAll m l) fun _ w' => Declares m w' := by
  induction l with
  | nil => exact fun hw => .pure hw
  | cons d l ih =>
    intro w hw
    refine .bind (outwardly (Along.mapM (I := Sane m) (P := fun T w => Nameable w (some T))
      (fun T _ _ r h => h.mono r.toStep) d.args (fun p _ w1 hw1 => ?_) w ⟨hw.1, hw.2.live⟩)) fun args w1 r1 hargs => ?_
    · exact (prim_plain hw1.1 m p).mono fun T _ r h => ⟨hw1.mono r.toStep, h⟩
    have hw1 := hw.mono r1
    refine .bind (outwardly (prim_plain hw1.1 m d.ret)) fun ret w2 r2 hret => ?_
    have hw2 := hw1.mono r2
    refine .bind (declareFunc_along hw2.1 hw2.2.live _ _ hret fun T hT => (hargs.2 T hT).mono r2.toStep T rfl)
      fun fn w3 r3 hfn => ?_
    refine .bind (addValueSymbol_outer m _ hfn.bindable) fun _ w4 r4 _ => ?_
    exact ih ((hw2.mono r3).mono r4)

lemma addMethod_along (hw : Declares m w) (T name) {ret self : TypeId}
    (hret : Nameable w (some ret)) (hself : Nameable w (some self)) :
    Along Outer w (addMethod m T name ret self) fun _ w' => Declares m w' := by
  refine Along.mono (P := fun _ _ => True) ?_ fun _ _ r _ => hw.mono r
  refine .bind (typeName_same T) ?_
  rintro owner w1 - rfl
  refine .bind (declareFunc_along hw.1 hw.2.live _ _ hret fun U hU => ?_) fun fn w2 _ _ => ?_
  · rw [List.mem_singleton.1 hU]
    exact hself self rfl
  · exact .bind (outwardly (addMember_along T name none (some fn))) fun _ _ _ _ => .pure trivial

lemma pointerTo_plain (hg : Good w) {T : TypeId} (hT : Nameable w (some T)) :
    Along Silent w (pointerTo T) fun P w' => Nameable w' (some P) := by
  obtain ⟨t, ht, hp⟩ := hT T rfl
  refine (pointerTo_along hg ht).mono fun P w' _ hP P' hP' => ?_
  cases hP'
  exact ⟨_, hP, hp⟩

lemma newStruct_plain (hg : Good w) (m name) : Along Silent w (newStruct m name) fun T w' => Nameable w' (some T) := by
  refine (newStruct_along hg m name).mono fun T w' _ hT T' hT' => ?_
  cases hT'
  exact hT

structure Knows (m : Handle) (types : List TypeId) (w : World σ) : Prop where
  declares : Declares m w
  types : ∀ T ∈ types, Nameable w (some T)

lemma Knows.mono (r : Outer w w') (h : Knows m types w) : Knows m types w' :=
  ⟨h.declares.mono r, fun T hT => (h.types T hT).mono r.toStep⟩

lemma Knows.cons (h : Knows m types w) (hT : Nameable w (some T)) : Knows m (T :: types) w := by
  refine ⟨h.declares, fun U hU => ?_⟩
  rcases List.mem_cons.1 hU with rfl | hU
  · exact hT
  · exact h.types U hU

lemma Knows.bind {β : Type} {a : Act σ TypeId} {f : TypeId → Act σ β}
    {Q : β → World σ → Prop} (h : Knows m types w) (ha : Along Silent w a fun T w' => Nameable w' (some T))
    (hf : ∀ T w', Knows m (T :: types) w' → Along Outer w' (f T) Q) : Along Outer w (a >>= f) Q :=
  .bind (outwardly ha) fun T w' r hT => hf T w' ((h.mono r).cons hT)

lemma Knows.next {β : Type} {a : Act σ Unit} {f : Unit → Act σ β}
    {P : Unit → World σ → Prop} {Q : β → World σ → Prop} (h : Knows m types w) (ha : Along Outer w a P)
    (hf : ∀ u w', Knows m types w' → Along Outer w' (f u) Q) : Along Outer w (a >>= f) Q :=
  .bind ha fun u w' r _ => hf u w' (h.mono r)

lemma fillCore_along (hw : Declares m w) : Along Outer w (fillCore m) := by
  have hk : Knows m [] w := ⟨hw, by simp⟩
  have field : ∀ {w : World σ} (T U : TypeId) name, Along Outer w (addField T name U) :=
    fun T U name => .bind (outwardly (addMember_along T name (some U) none)) fun _ _ _ _ => .pure trivial
  refine hk.next (Along.forM _ (fun p _ w1 hw1 => ?_) w hw) fun _ w hk => ?_
  · refine .bind (outwardly (prim_plain hw1.1 m p.2)) fun T w2 r2 hT => ?_
    exact (addTypeSymbol_outer (hw1.2.mono r2) _ hT).mono fun _ _ r _ => (hw1.mono r2).mono r
  refine hk.bind (newStruct_plain hk.declares.1 m _) fun object w hk => ?_
  refine hk.bind (newStruct_plain hk.declares.1 m _) fun typeInfo w hk => ?_
  refine hk.bind (newStruct_plain hk.declares.1 m _) fun str w hk => ?_
  refine hk.next (Along.forM _ (fun T hT w1 hk1 => ?_) w hk) fun _ w hk => ?_
  · refine .bind (typeName_same T) ?_
    rintro name w2 - rfl
    refine (addTypeSymbol_outer hk1.declares.2 _ (hk1.types T ?_)).mono fun _ _ r _ => hk1.mono r
    simp only [List.mem_cons] at hT ⊢
    tauto
  refine hk.bind (pointerTo_plain hk.declares.1 (hk.types object (by simp))) fun objectPtr w hk => ?_
  refine hk.bind (pointerTo_plain hk.declares.1 (hk.types typeInfo (by simp))) fun typeInfoPtr w hk => ?_
  refine hk.bind (pointerTo_plain hk.declares.1 (hk.types str (by simp))) fun strPtr w hk => ?_
  refine hk.bind (prim_plain hk.declares.1 m .bytes) fun bytes w hk => ?_
  refine hk.bind (prim_plain hk.declares.1 m .i32) fun i32 w hk => ?_
  refine hk.bind (prim_plain hk.declares.1 m .i64) fun i64 w hk => ?_
  have method : ∀ {w : World σ} {l} T name (ret self : TypeId), Knows m l w → ret ∈ l → self ∈ l →
      Along Outer w (addMethod m T name ret self) fun _ w' => Declares m w' := fun T name ret self hk hr hs =>
    addMethod_along hk.declares T name (hk.types ret hr) (hk.types self hs)
  iterate 3 refine hk.next (method object _ _ _ hk (by simp) (by simp)) fun _ w hk => ?_
  refine hk.next (outwardly (extendStruct_along typeInfo (some object))) fun _ w hk => ?_
  refine hk.next (field typeInfo bytes _) fun _ w hk => ?_
  refine hk.next (field typeInfo i32 _) fun _ w hk => ?_
  refine hk.next (field typeInfo i32 _) fun _ w hk => ?_
  refine hk.next (method typeInfo _ _ _ hk (by simp) (by simp)) fun _ w hk => ?_
  refine hk.next (outwardly (extendStruct_along str (some object))) fun _ w hk => ?_
  refine hk.next (field str bytes _) fun _ w hk => ?_
  refine hk.next (field str i64 _) fun _ w hk => ?_
  iterate 3 refine hk.next (method str _ _ _ hk (by simp) (by simp)) fun _ w hk => ?_
  refine .bind (declareFunc_along hk.declares.1 hk.declares.2.live _ _ (hk.types i32 (by simp)) fun T hT => ?_)
    fun print w1 r1 hprint => ?_
  · rw [List.mem_singleton.1 hT]
    exact hk.types bytes (by simp) bytes rfl
  refine .bind (addValueSymbol_outer m _ hprint.bindable) fun _ w2 r2 _ => ?_
  exact exportAll_along ((hk.declares.mono r1).mono r2)

end Act

lemma Scopes.initial_sound (w : World σ) : Scopes.initial.Sound w := by
  have hdata : Scopes.initial.data =
      #[{}, { parent := 0, children := #[2, 3] }, { parent := 1 }, { parent := 1 }] := rfl
  have hcases : ∀ id sc, Scopes.initial.get? id = some sc →
      (id = 1 ∧ sc = { parent := 0, children := #[2, 3] }) ∨ ((id = 2 ∨ id = 3) ∧ sc = { parent := 1 }) := by
    intro id sc hsc
    obtain ⟨h0, hget⟩ := Scopes.get?_eq_some.1 hsc
    rcases id with _ | _ | _ | _ | n
    · exact absurd rfl h0
    · exact .inl ⟨rfl, (Option.some.inj hget).symm⟩
    · exact .inr ⟨.inl rfl, (Option.some.inj hget).symm⟩
    · exact .inr ⟨.inr rfl, (Option.some.inj hget).symm⟩
    · cases hget
  refine ⟨by decide, fun id sc hsc => ?_, fun id sc hsc h0 => ?_, fun id sc hsc sym hsym => ?_,
    fun id sc hsc sym hsym => ?_⟩
  all_goals rcases hcases id sc hsc with ⟨rfl, rfl⟩ | ⟨rfl | rfl, rfl⟩
  all_goals first | decide | cases h0 | simp at hsym

lemma step_insert (hnew : w.modules[m]? = none) (hm : m < w.store.entries.size)
    (hsound : M.Sound w.store) (hscopes : ∀ w' : World σ, M.scopes.Sound w')
    (hcurrent : 0 < M.current ∧ M.current < M.scopes.data.size) :
    Step w { w with modules := w.modules.insert m M } := by
  have hget : ∀ k K, (w.modules.insert m M)[k]? = some K →
      (k = m ∧ K = M) ∨ w.modules[k]? = some K := by
    intro k K hK
    rw [Std.HashMap.getElem?_insert] at hK
    split at hK
    · next h => exact .inl ⟨(beq_iff_eq.1 h).symm, (Option.some.inj hK).symm⟩
    · exact .inr hK
  have hkeep : ∀ (k : Handle) K, w.modules[k]? = some K → (w.modules.insert m M)[k]? = some K := by
    intro k K hK
    rw [Std.HashMap.getElem?_insert, if_neg, hK]
    rw [beq_iff_eq]
    rintro rfl
    cases hnew.symm.trans hK
  have his : ∀ v op t, Is w v op t → Is { w with modules := w.modules.insert m M } v op t := by
    rintro v op t ⟨K, x, hK, hx, ht, hop⟩
    exact ⟨K, x, hkeep _ K hK, hx, ht, hop⟩
  have hle : ∀ (k : Handle) (K K' : Module), w.modules[k]? = some K → (w.modules.insert m M)[k]? = some K' →
      K.scopes.Le K'.scopes := by
    intro k K K' hK hK'
    cases Option.some.inj ((hkeep k K hK).symm.trans hK')
    exact .refl _
  refine ⟨refl_of Store.Grows w.store, fun k K hK => ⟨K, hkeep k K hK, fun _ _ => id⟩, hle, fun hg =>
    ⟨hg.store, fun k K hK => ?_, fun k K hK => ?_, fun k K hK => ?_, fun k K hK => ?_⟩⟩
  all_goals obtain ⟨rfl, rfl⟩ | hK' := hget k K hK
  · exact hsound
  · exact hg.sound k K hK'
  · exact hscopes _
  · exact Scopes.Sound.mono (w := w) (.refl _) his (hg.scopes k K hK')
  · exact hcurrent
  · exact hg.current k K hK'
  · exact hm
  · exact hg.handles k K hK'

def Bare (m : Handle) (w : World σ) : Prop := ∀ g F, w.store.code.funcs g = some F → F.module = m → F.blocks = []

lemma Bare.mono (r : Outer w w') (h : Bare m w) : Bare m w' := fun g F hF hm =>
  (r.adds.bare g F hF).elim (fun hF' => h g F hF' hm) id

structure Finished (w : World σ) (m : Handle) (w' : World σ) : Prop where
  step : Step w w'
  new : w.store.entries.size ≤ m
  framed : Framed w.store.code w'.store.code
  alive : ∃ M, w'.store.module? m = some M ∧ M.dropped = false

lemma alive_mono (r : Step w w') (hM : w.store.module? m = some M) (hd : M.dropped = false) :
    ∃ M', w'.store.module? m = some M' ∧ M'.dropped = false := by
  obtain ⟨M', hM', hle⟩ := r.store.module (Store.module?_eq_some.1 hM)
  exact ⟨M', Store.module?_eq_some.2 hM', hle.dropped.trans hd⟩

lemma Finished.after (h : Finished w m w1) (r : Silent w1 w') : Finished w m w' := by
  obtain ⟨M, hM, hd⟩ := h.alive
  exact ⟨trans_of Step h.step r.toStep, h.new, h.framed.trans r.outer.framed, alive_mono r.toStep hM hd⟩

lemma Finished.before (r : Silent w w1) (h : Finished w1 m w') : Finished w m w' :=
  ⟨trans_of Step r.toStep h.step, Nat.le_trans r.store.size_le h.new, r.outer.framed.trans h.framed, h.alive⟩

namespace Act

lemma newModule_along (hg : Good w) (name : Text) :
    Along Step w (newModule name) fun m w' => Declares m w' ∧ Bare m w' ∧ Finished w m w' := by
  refine .bind ((emit_silent (Emit.makeModule_along hg.store name)).keep fun _ r => r.toStep) ?_
  rintro r w1 - ⟨r1, hmods, hok⟩
  cases r with
  | error e => exact .throw
  | ok m =>
    obtain ⟨hnew, h0, hmod⟩ := hok m rfl
    have hm : m < w1.store.entries.size := Store.lt_size_of_entry_ne (by rw [Store.module?_eq_some.1 hmod]; simp)
    have hfresh : w1.modules[m]? = none := by
      rw [hmods]
      cases hM : w.modules[m]? with
      | none => rfl
      | some M => exact absurd (hg.handles m M hM) (Nat.not_lt_of_le hnew)
    have hstep := step_insert (M := { name, scopes := Scopes.initial, span := w1.loading }) hfresh hm
      ⟨fun h V hV => by simp at hV, fun h x hx => by simp at hx⟩ Scopes.initial_sound
      ⟨Nat.one_pos, (Scopes.initial_sound w1).size.trans' (Nat.lt_succ_of_lt (Nat.lt_succ_self 1))⟩
    refine ⟨hstep, ⟨hstep.good (r1.good hg), _, Std.HashMap.getElem?_insert_self, rfl, rfl⟩, fun g F hF hFm => ?_, ?_⟩
    · obtain ⟨f, hf, rfl⟩ := Option.map_eq_some_iff.1 hF
      have hok := (r1.good hg).store.entries g
      rw [Store.func?_eq_some.1 hf] at hok
      obtain ⟨⟨M, hM, hmem⟩, -⟩ := hok
      rw [show f.module = m from hFm, Store.module?_eq_some.1 hmod] at hM
      cases hM
      simp at hmem
    · exact ⟨trans_of Step r1.toStep hstep, hnew, r1.outer.framed, _, hmod, rfl⟩

def Fills (fill : Handle → Act σ Unit) : Prop := ∀ {w : World σ} {m : Handle}, Declares m w →
    Along Step w (fill m) fun _ w' => Framed w.store.code w'.store.code

lemma building_of (hg : Good w) (name)
    (hfill : ∀ m w1, Declares m w1 → Bare m w1 → Finished w m w1 → Along Step w1 (fill m) fun _ w' => P m w') :
    Along Step w (building name fill) fun b w' => b.fault = none → ∃ m, b.module = some m ∧ P m w' := by
  refine .bind (attempt_along (newModule_along hg name)) fun r w1 _ hr => ?_
  cases r with
  | error f => exact .pure nofun
  | ok m =>
    obtain ⟨hw1, hbare, hb⟩ := hr m rfl
    refine .bind (attempt_along (hfill m w1 hw1 hbare hb)) fun r w2 r2 hf => ?_
    cases r with
    | error f => exact .pure nofun
    | ok u => exact .pure fun _ => ⟨m, rfl, hf u rfl⟩

lemma Fills.finished (hfill : Fills fill) (hw1 : Declares m w1)
    (hb : Finished w m w1) : Along Step w1 (fill m) fun _ w' => Finished w m w' := by
  refine (hfill hw1).mono fun _ w2 r2 hf => ?_
  obtain ⟨M, hM, hd⟩ := hb.alive
  exact ⟨trans_of Step hb.step r2, hb.new, hb.framed.trans hf, alive_mono r2 hM hd⟩

end Act

lemma Good.of_dropped (hg : Good w) (d : Emit.Dropped w.store s) : Good { w with store := s } := by
  have htype := d.type?_eq
  have hoperand := d.operand?_eq
  have hvalue : ∀ v, s.code.valueTy v = w.store.code.valueTy v := fun v => by
    rw [d.code_eq]
    cases v <;> rfl
  have hsettled : ∀ v, Settled s v ↔ Settled w.store v := fun v => by
    unfold Settled
    rw [d.code_eq]
    rfl
  refine ⟨d.wf hg.store, fun m M hM => ⟨fun h V hV => ?_, fun h x hx => ?_⟩, fun m M hM => ?_, hg.current,
    fun m M hM => d.size ▸ hg.handles m M hM⟩
  · simp only [htype]
    exact (hg.sound m M hM).types h V hV
  · simp only [htype, hoperand, hvalue, hsettled]
    exact (hg.sound m M hM).values h x hx
  · have hold := hg.scopes m M hM
    refine ⟨hold.size, hold.parent, hold.root, fun id sc hsc sym hsym => ?_, fun id sc hsc sym hsym => ?_⟩
    · obtain ⟨v, op, t, hv, ⟨K, x, hK, hx, ht, hop⟩, hfix⟩ := hold.values id sc hsc sym hsym
      exact ⟨v, op, t, hv, ⟨K, x, hK, hx, fun T hT => (htype _).trans (ht T hT), (hoperand _).trans hop⟩, hfix⟩
    · simp only [htype]
      exact hold.types id sc hsc sym hsym

def Keeps (w w' : World σ) : Prop := Good w → Good w'

instance : IsPreorder (World σ) Keeps where
  refl _ := id
  trans _ _ _ h k := k ∘ h

lemma Silent.keeps (r : Silent w w') : Keeps w w' := r.good

namespace Act

lemma discard_along (m) : Along Keeps w (discard m) := by
  refine .bind (P := fun _ _ => True) ⟨Silent.keeps (silent_of_eq rfl rfl), trivial⟩ fun _ w1 _ _ => ?_
  exact .bind (emit_of (fun s d hg => hg.of_dropped d) (Emit.dropModule_along m)) fun _ _ _ _ => .pure trivial

lemma addModule_along (m) : Along Silent w (addModule m) := by
  refine .bind (P := fun _ w' => w' = w) (.bind (module_along m) ?_) ?_
  · rintro M w1 - ⟨rfl, -⟩
    exact .pure rfl
  rintro name w1 - rfl
  refine .bind (loaded?_along name) ?_
  rintro found w2 - rfl
  cases found with
  | some _ => exact .throw
  | none => exact ⟨silent_of_eq rfl rfl, trivial⟩

lemma accept_along (name b) : Along Silent w (accept name b) fun m _ => b = some m := by
  cases b with
  | none => exact .throw
  | some m =>
    refine .bind (P := fun _ w' => w' = w) (.bind (module_along m) ?_) ?_
    · rintro M w1 - ⟨rfl, -⟩
      exact .pure rfl
    rintro got w1 - rfl
    refine .ite (fun _ => raise_bind) fun _ => ?_
    refine .bind (loaded?_along name) ?_
    rintro found w2 - rfl
    exact .ite (fun _ => .bind (addModule_along m) fun _ _ _ _ => .pure rfl) fun _ => .pure rfl

lemma setLoading_along (n) : Along Silent w (modify fun w => { w with loading := n } : Act σ Unit)
    fun _ _ => True := ⟨silent_of_eq rfl rfl, trivial⟩

lemma keeping (h : Along Silent w a Q) : Along Keeps w a fun x w' => Silent w w' ∧ Q x w' := h.keep fun _ r => r.keeps

lemma abandon_along (name span outer made f)
    (Q : Handle → World σ → Prop) : Along Keeps w (abandon name span outer made f) Q := by
  have hrecord : ∀ f {w1 : World σ}, Along Keeps w1 (do
      modify fun w => { w with diags := w.diags.addFault name f }
      endSpan (span.withExtra "status" "failed") f.text
      modify fun w => { w with loading := outer }
      raise f : Act σ Handle) Q := by
    intro f w1
    refine .bind (P := fun _ _ => True) ⟨Silent.keeps (silent_of_eq rfl rfl), trivial⟩ fun _ _ _ _ => ?_
    refine .bind (keeping (endSpan_along ..)) fun _ _ _ _ => ?_
    exact .bind (keeping (setLoading_along _)) fun _ _ _ _ => .throw
  cases made with
  | none => exact hrecord _
  | some m => exact .bind (discard_along m) fun _ _ _ _ => hrecord _

lemma conclude_along (hP : ∀ m w1 w2, Silent w1 w2 → P m w1 → P m w2) (name)
    (span outer) (hb : b.fault = none → ∃ m, b.module = some m ∧ P m w) :
    Along Keeps w (conclude name span outer b) P := by
  unfold conclude
  extract_lets finish
  have hfail : ∀ f {w1 : World σ}, Along Keeps w1 (finish (.error f)) P := fun f => abandon_along ..
  cases hf : b.fault with
  | some f => exact hfail f
  | none =>
    obtain ⟨m, hm, hfin⟩ := hb hf
    refine .bind (keeping (attempt_along (accept_along name b.module))) fun result w1 _ ⟨r1, hr⟩ => ?_
    cases result with
    | error f => exact hfail f
    | ok m' =>
      cases Option.some.inj (hm.symm.trans (hr m' rfl))
      refine .bind (keeping (endSpan_along ..)) fun _ w2 _ ⟨r2, _⟩ => ?_
      refine .bind (keeping (setLoading_along _)) fun _ w3 _ ⟨r3, _⟩ => ?_
      exact .pure (hP m w2 w3 r3 (hP m w1 w2 r2 (hP m w w1 r1 hfin)))

lemma loadModule_of (hg : Good w) (name)
    (hP : ∀ m w1 w2, Silent w1 w2 → P m w1 → P m w2) (hfill : ∀ m w1, Declares m w1 → Bare m w1 → Finished w m w1 →
      Along Step w1 (fill m) fun _ w' => P m w') : Along Keeps w (loadModule name (building name fill)) P := by
  refine .bind (loaded?_along name) ?_
  rintro found w1 - rfl
  refine .ite (fun _ => raise_bind) fun _ => ?_
  refine .bind (keeping (beginSpan_along ..)) fun span w2 _ ⟨r2, _⟩ => ?_
  rw [along_get_bind]
  refine .bind (keeping (setLoading_along span.id)) fun _ w3 _ ⟨r3, _⟩ => ?_
  have r := trans_of Silent r2 r3
  refine .bind ((building_of (r.good hg) name fun m w4 hw4 hbare hfin => hfill m w4 hw4 hbare (hfin.before r)).weaken
    fun _ r => r.good) fun b w4 _ hb => ?_
  exact conclude_along hP name span _ hb

lemma loadModule_along (hg : Good w) (name) (hfill : Fills fill) :
    Along Keeps w (loadModule name (building name fill)) fun m w' => Finished w m w' :=
  loadModule_of hg name (fun _ _ _ r h => h.after r) fun _ _ hw1 _ hfin => hfill.finished hw1 hfin

end Act

end Arbor.Build
