import Arbor.Proofs.Lowering
import Arbor.Proofs.Confined

/-! Declarations. Outside of functions a module binds names, lays out structs and declares functions;
none of this touches the blocks and instructions of the store. -/

namespace Arbor.Build

open IR Diag Proofs Lower IR.Code Arbor.Tree

variable {σ : Type} {w w' : World σ} {m : Handle}
variable {M : Module} {t : Option TypeId} {k : ScopeId} {sym : Symbol}

def Sane (m : Handle) (w : World σ) : Prop := Good w ∧ Live w m

lemma Sane.mono (r : Step w w') (h : Sane m w) : Sane m w' := ⟨r.good h.1, h.2.mono r⟩

structure Outer (w w' : World σ) : Prop extends Step w w' where
  adds : w.store.code.Adds w'.store.code
  still : ∀ (m : Handle) (M : Module), w.modules[m]? = some M → ∃ M', w'.modules[m]? = some M' ∧
    M'.current = M.current ∧ M'.loop = M.loop

instance : IsPreorder (World σ) Outer where
  refl w := ⟨refl_of Step w, .refl _, fun m M hM => ⟨M, hM, rfl, rfl⟩⟩
  trans _ _ _ h k := by
    refine ⟨trans_of Step h.toStep k.toStep, h.adds.trans k.adds, fun m M hM => ?_⟩
    obtain ⟨M', hM', hc, hl⟩ := h.still m M hM
    obtain ⟨M'', hM'', hc', hl'⟩ := k.still m M' hM'
    exact ⟨M'', hM'', hc'.trans hc, hl'.trans hl⟩

lemma Outer.framed (r : Outer w w') : Framed w.store.code w'.store.code := .adds r.adds

lemma Steady.outer (r : Steady w w') (ha : w.store.code.Adds w'.store.code) : Outer w w' := by
  refine ⟨r.toStep, ha, fun m M hM => ?_⟩
  obtain ⟨M', hM', -, hc, hl⟩ := r.still m M hM
  exact ⟨M', hM', hc, hl⟩

lemma Silent.outer (r : Silent w w') : Outer w w' := r.toSteady.outer (r.code.symm ▸ .refl _)

instance : Act.Lenient (Outer (σ := σ)) := ⟨fun r => r.outer⟩

lemma outwardly {a : Act σ α} {Q : α → World σ → Prop} (h : Along Silent w a Q) :
    Along Outer w a Q := h.weaken fun _ r => r.outer

def Ready (w : World σ) (m : Handle) : Prop := ∃ M, w.modules[m]? = some M ∧ M.current = rootScope ∧ M.loop = none

lemma Ready.live (h : Ready w m) : Live w m := h.imp fun _ hM => hM.1

lemma Ready.mono (r : Outer w w') (h : Ready w m) : Ready w' m := by
  obtain ⟨M, hM, hc, hl⟩ := h
  obtain ⟨M', hM', hc', hl'⟩ := r.still m M hM
  exact ⟨M', hM', hc'.trans hc, hl'.trans hl⟩

lemma Scopes.search_mem {S : Scopes} {id : ScopeId} (h : S.search id outward probe = some sym) :
    ∃ k sc, S.get? k = some sc ∧ probe sc = some sym := by
  refine search.partial_correctness S outward probe (fun _ sym => ∃ k sc, S.get? k = some sc ∧ probe sc = some sym)
    (fun search ih id sym h => ?_) id sym h
  cases hsc : S.get? id with
  | none => simp [hsc] at h
  | some sc =>
    simp only [hsc] at h
    cases hp : probe sc with
    | some s =>
      simp only [hp] at h
      exact ⟨id, sc, hsc, hp.trans h⟩
    | none =>
      simp only [hp] at h
      split at h
      · exact ih _ _ h
      · cases h

lemma Good.lookupType (hg : Good w) (hM : w.modules[m]? = some M) {id : ScopeId} {name : Text}
    (h : M.scopes.lookupType id name outward = some sym) (hT : sym.type = some T) :
    ∃ t, w.store.type? T.handle = some t ∧ t.Plain := by
  obtain ⟨k, sc, hsc, hsym⟩ := Scopes.search_mem h
  exact ((hg.scopes m M hM).types k sc hsc sym (SymbolTable.mem_of_get? hsym)).2 T hT

lemma Good.typeNamed (hg : Good w) (hM : w.modules[m]? = some M) {name : Text} {T : TypeId}
    (h : typeNamed M name = some T) : ∃ t, w.store.type? T.handle = some t ∧ t.Plain := by
  obtain ⟨sym, hsym, hT⟩ := Option.bind_eq_some_iff.1 h
  cases hl : M.scopes.lookupType M.current name true with
  | some s =>
    rw [hl] at hsym
    cases hsym
    exact hg.lookupType hM hl hT
  | none =>
    rw [hl] at hsym
    exact hg.lookupType hM hsym hT

def siteOf (w : World σ) (m : Handle) (M : Module) (func : Handle) (ret : Ty) : Site where
  module := m
  func := func
  ret := ret
  types name := (typeNamed M name).bind fun T => w.store.type? T.handle

lemma Good.named (hg : Good w) (hM : w.modules[m]? = some M) (func ret) : Named w (siteOf w m M func ret) := by
  refine ⟨M, hM, fun name T hT => ?_⟩
  obtain ⟨t, ht, hp⟩ := hg.typeNamed hM hT
  exact ⟨t, ht, hp, by simp only [siteOf, hT, Option.bind_some, ht]⟩

lemma typeOf_plain (hg : Good w) (hm : Live w m) (ref) :
    Along Silent w (Lower.typeOf m ref) fun T w' => ∃ t, w'.store.type? T.handle = some t ∧ t.Plain := by
  obtain ⟨M, hM⟩ := hm
  refine (Lower.typeOf_along hg (hg.named hM noHandle .void) ref).mono fun T w' _ ⟨t, _, hp, ht⟩ => ?_
  exact ⟨t, ht, hp⟩

lemma constant_literal (hg : Good w) (hm : Live w m) (e) :
    Along Silent w (constant m e) fun v w' => ∃ e' k t, e = some e' ∧ Literal m e' (.const k) t ∧ Is w' v (.const k) t := by
  cases e with
  | none => exact .throw
  | some e =>
    refine .ite (fun _ => ?_) fun _ => .throw
    refine (literal_along hg hm e).mono fun v w' _ ⟨op, t, hl, hv⟩ => ?_
    have hconst : ∃ k, op = .const k := by cases hl <;> exact ⟨_, rfl⟩
    obtain ⟨k, rfl⟩ := hconst
    exact ⟨e, k, t, rfl, hl, hv⟩

namespace Act

section Reading

variable {R : World σ → World σ → Prop} [IsPreorder (World σ) R]

lemma raise_bind {k : α → Act σ β} {Q : β → World σ → Prop} :
    Along R w (raise f >>= k) Q := .bind (P := fun _ _ => False) .throw fun _ _ _ h => h.elim

lemma view_same (T) : Along R w (view T) fun _ w' => w' = w := by
  refine .look (module_along T.module) fun M _ => ?_
  exact (need_along _).mono fun _ _ _ h => h.1

lemma typeOf_same (v) : Along R w (typeOf v) fun _ w' => w' = w := by
  refine .look (module_along v.module) fun M _ => ?_
  refine .look (need_along _) fun x _ => ?_
  exact (need_along x).mono fun _ _ _ h => h.1

lemma typeKind_same (T) : Along R w (typeKind T) fun _ w' => w' = w := by
  refine .bind (view_same T) ?_
  rintro V w1 - rfl
  exact .pure rfl

lemma typeName_same (T) : Along R w (typeName T) fun _ w' => w' = w := (typeName_along T).mono fun _ _ _ h => h.1

lemma typeSymbol_along (m name outward) : Along R w (typeSymbol m name outward) fun _ w' => w' = w := by
  refine .look (module_along m) fun M _ => ?_
  exact .pure rfl

lemma valueSymbol_along (m name outward) : Along R w (valueSymbol m name outward) fun _ w' => w' = w := by
  refine .look (module_along m) fun M _ => ?_
  exact .pure rfl

lemma loaded?_along (name) : Along R w (loaded? name) fun _ w' => w' = w := ⟨refl_of R w, rfl⟩

lemma holds_same (struct fuel) : ∀ (seen) (T), Along R w (holds struct fuel seen T) fun _ w' => w' = w := by
  induction fuel with
  | zero => exact fun _ _ => .pure rfl
  | succ fuel ih =>
    intro seen T
    refine .bind (view_same T) ?_
    rintro V w1 - rfl
    refine .ite (fun _ => .pure rfl) fun _ => .ite (fun _ => .pure rfl) fun _ => .ite (fun _ => .pure rfl) fun _ => ?_
    generalize V.members.toList = l
    generalize (false, T.handle :: seen) = acc
    induction l generalizing acc with
    | nil => exact .pure rfl
    | cons mem l ihl =>
      refine .bind (.ite (fun _ => .pure rfl) fun _ => ih _ _) ?_
      rintro acc' w2 - rfl
      exact ihl acc'

end Reading

lemma beginSpan_along (scope module name parent) :
    Along Silent w (beginSpan scope module name parent) := ⟨silent_of_eq rfl rfl, trivial⟩

lemma endSpan_along (span detail) : Along Silent w (endSpan span detail) := ⟨silent_of_eq rfl rfl, trivial⟩

lemma syncBody_along (T) : Along Silent w (syncBody T) := by
  refine .bind (view_same T) ?_
  rintro V w1 - rfl
  refine .bind (emit_silent (Emit.setStructBody_along _ _)) fun r w2 _ _ => ?_
  cases r with
  | ok x => exact .pure trivial
  | error r => exact .throw

lemma newStruct_along (hg : Good w) (m name) :
    Along Silent w (newStruct m name) fun T w' => ∃ t, w'.store.type? T.handle = some t ∧ t.Plain := by
  refine .bind (backend_silent (Emit.struct_along hg.store m name)) fun h w1 r1 ⟨_, hh⟩ => ?_
  refine .bind (backend_silent (Emit.setStructBody_along h [])) fun _ w2 r2 _ => ?_
  have hh2 := r2.store.type? hh
  refine .bind (typeAt_along fun _ => ⟨_, hh2⟩) fun x w3 r3 ⟨_, hx, _⟩ => ?_
  refine .look (need_along x) fun T hT => ?_
  obtain ⟨-, rfl⟩ := hx T hT
  refine .bind (updateType_along (fun _ => rfl) fun _ _ => .inl) fun _ w5 r5 _ => .pure ?_
  exact ⟨.struct h, r5.store.type? (r3.store.type? hh2), trivial⟩

lemma addMember_along (T name type value) : Along Silent w (addMember T name type value) := by
  refine .bind (view_same T) ?_
  rintro V w1 - rfl
  refine .ite (fun _ => raise_bind) fun _ => ?_
  beta_reduce
  extract_lets rest
  have hrest : ∀ type {w2 : World σ}, Along Silent w2 (rest type) := by
    intro type w2
    refine .bind store_along ?_
    rintro s w3 - ⟨rfl, rfl⟩
    refine .bind (holds_same _ _ _ _) ?_
    rintro ⟨inside, seen⟩ w4 - rfl
    refine .ite (fun _ => raise_bind) fun _ => ?_
    refine .bind (updateType_along (fun _ => rfl) fun _ _ => .inl) fun _ w5 _ _ => ?_
    refine .bind (attempt_along (syncBody_along T)) fun r w6 _ _ => ?_
    cases r with
    | ok x => exact .pure trivial
    | error f => exact .bind (updateType_along (fun _ => rfl) fun _ _ => .inl) fun _ _ _ _ => .throw
  cases type with
  | some t => exact hrest t
  | none =>
    cases value with
    | some v => exact .bind (typeOf_same v) fun type _ _ _ => hrest type
    | none => exact raise_bind

lemma extendStruct_along (T base) : Along Silent w (extendStruct T base) := by
  refine .bind (view_same T) ?_
  rintro V w1 - rfl
  cases base with
  | none => exact .throw
  | some base =>
    refine .ite (fun _ => raise_bind) fun _ => ?_
    refine .bind (P := fun _ w' => w' = w1) (.bind (view_same base) ?_) ?_
    · rintro U w2 - rfl
      exact .pure rfl
    rintro inherited w2 - rfl
    refine .bind (addMember_along T _ _ _) fun _ w3 _ _ => ?_
    refine Along.forM _ (fun mem _ w4 _ => ?_) w3 trivial
    exact .ite (fun _ => .bind (addMember_along T _ _ _) fun _ _ _ _ => .pure trivial) fun _ => .pure trivial

lemma extendNamed_along (T name) : Along Silent w (extendNamed T name) := by
  refine .bind (view_same T) ?_
  rintro V w1 - rfl
  refine .bind (typeSymbol_along T.module name true) ?_
  rintro sym w2 - rfl
  cases sym.bind Symbol.type with
  | none => exact .throw
  | some base =>
    refine .bind (typeKind_same base) ?_
    rintro k w3 - rfl
    refine .ite (fun _ => raise_bind) fun _ => ?_
    exact extendStruct_along T (some base)

end Act

lemma layoutField_along (hg : Good w) (hm : Live w m) (owner T f) : Along Silent w (layoutField m owner T f) := by
  unfold layoutField
  extract_lets withType
  have hwith : ∀ type {w1 : World σ}, Good w1 → Live w1 m → Along Silent w1 (withType type) := by
    intro type w1 hg1 hm1
    unfold withType
    extract_lets withValue
    have hvalue : ∀ value {w2 : World σ}, Along Silent w2 (withValue value) := by
      intro value w2
      have hdone : Along Silent w2 (Act.addMember T f.name type value >>= fun _ => pure ()) :=
        .bind (Act.addMember_along T _ _ _) fun _ _ _ _ => .pure trivial
      cases value with
      | none => exact hdone
      | some v =>
        cases type with
        | none => exact hdone
        | some want =>
          refine .bind (Act.typeOf_same v) ?_
          rintro got w3 - rfl
          refine .ite (fun _ => ?_) fun _ => hdone
          refine .bind (Act.typeName_same got) fun _ _ _ _ => ?_
          exact .bind (Act.typeName_same want) fun _ _ _ _ => Act.raise_bind
    cases f.init with
    | none => exact hvalue none
    | some e =>
      exact .bind (P := fun _ _ => True) (.map ((constant_literal hg1 hm1 (some e)).mono fun _ _ _ _ => trivial))
        fun value _ _ _ => hvalue value
  cases f.type with
  | none => exact hwith none hg hm
  | some ref =>
    exact .bind (P := fun _ _ => True) (.map ((typeOf_plain hg hm (some ref)).mono fun _ _ _ _ => trivial))
      fun type w1 r1 _ => hwith type (r1.good hg) (hm.mono r1.toStep)

lemma layout_along (fuel) : ∀ {w : World σ} (visiting done)
    (d), Sane m w → Along Silent w (layout m structs fuel visiting done d) fun _ w' => Sane m w' := by
  induction fuel with
  | zero => exact fun _ _ _ _ => .throw
  | succ fuel ih =>
    intro w visiting done d hw
    refine .ite (fun _ => .pure hw) fun _ => .ite (fun _ => Act.raise_bind) fun _ => ?_
    obtain ⟨M, hM⟩ := hw.2
    refine .look (Act.resolveType_along (hw.1.named hM noHandle .void) d.name) fun T _ => ?_
    extract_lets fields
    have hfields : ∀ done {w2 : World σ}, Sane m w2 → Along Silent w2 (fields done) fun _ w' => Sane m w' := by
      intro done w2 hw2
      refine .bind (.forM _ (fun f _ w3 hw3 => ?_) w2 hw2) fun _ _ _ h => .pure h
      refine .look (Act.need_along f) fun f _ => ?_
      exact (layoutField_along hw3.1 hw3.2 d.name T f).mono fun _ _ r _ => hw3.mono r.toStep
    refine .ite (fun _ => hfields done hw) fun _ => ?_
    have hextend : ∀ done {w2 : World σ}, Sane m w2 →
        Along Silent w2 (do Act.extendNamed T d.base; fields done) fun _ w' => Sane m w' := fun done w2 hw2 =>
      .bind (Act.extendNamed_along T d.base) fun _ _ r _ => hfields done (hw2.mono r.toStep)
    cases structs.lookup d.base with
    | none => exact hextend done hw
    | some base => exact .bind (ih _ done base hw) fun done w2 _ hw2 => hextend done hw2

namespace Act

lemma outer_rescope (h : Step w { w with modules := w.modules.modify m fun i => { i with scopes := D } }) :
    Outer w { w with modules := w.modules.modify m fun i => { i with scopes := D } } := by
  refine ⟨h, .refl _, fun k K hK => ?_⟩
  rw [modify_at, hK]
  refine ⟨_, rfl, ?_⟩
  split <;> exact ⟨rfl, rfl⟩

lemma addType_ok {D D' : Scopes} {id : ScopeId} (h : D.addType id name t = .ok D') :
    ∃ sc, D.get? id = some sc ∧ sc.types.get? name.composed = none ∧
      D' = { data := D.data.setIfInBounds id { sc with types := (sc.types.add { name := name.composed, type := t }).2 } } := by
  unfold Scopes.addType at h
  cases hsc : D.get? id with
  | none =>
    rw [hsc] at h
    cases h
  | some sc =>
    rw [hsc] at h
    simp only at h
    split at h
    · next hadd =>
      refine ⟨sc, rfl, ?_, hadd ▸ (Except.ok.inj h).symm⟩
      simpa [hadd] using sc.types.add_fresh { name := name.composed, type := t }
    · cases h

def Nameable (w : World σ) (t : Option TypeId) : Prop :=
  ∀ T, t = some T → ∃ u, w.store.type? T.handle = some u ∧ u.Plain

lemma Nameable.mono (r : Step w w') (h : Nameable w t) : Nameable w' t := fun T hT => by
  obtain ⟨u, hu, hp⟩ := h T hT
  exact ⟨u, r.store.type? hu, hp⟩

lemma step_addType (hM : w.modules[m]? = some M) (hk : k ≤ exportScope) (ht : Nameable w t)
    (hD : M.scopes.addType k name t = .ok D) :
    Step w { w with modules := w.modules.modify m fun i => { i with scopes := D } } := by
  obtain ⟨sc, hsc, hnone, rfl⟩ := addType_ok hD
  have horder := SymbolTable.order_add { name := name.composed, type := t } hnone
  refine step_update (fun K hK => ?_) (fun _ _ _ _ => id) (fun K hg hK => ⟨(hg.sound _ K hK).types, (hg.sound _ K hK).values⟩)
    (fun K hg hK => ?_) fun K w1 hg hs his hK => ?_
  · cases Option.mem_unique hM hK
    exact Scopes.le_set hsc (by simp [horder]) List.prefix_rfl
  · cases Option.mem_unique hM hK
    simpa only [Array.size_setIfInBounds] using hg.current m M hM
  · refine Scopes.Sound.mono (hs ▸ .refl _) his
      ((hg.scopes m M hM).set hsc rfl (fun sym hsym => .inl hsym) fun sym hsym => ?_)
    rcases Array.mem_push.1 (horder ▸ hsym) with hold | rfl
    · exact .inl hold
    · exact .inr ⟨hk, ht⟩

lemma addType_along (hk : k ≤ exportScope) (name) (ht : Nameable w t) :
    Along Outer w (rescope m fun s => s.addType k name t) fun _ w' => w'.store = w.store :=
  rescope_along fun _ _ hM hD => ⟨outer_rescope (step_addType hM hk ht hD), rfl⟩

def Bindable (w : World σ) (v : Option ValueId) : Prop := ∃ x op t, v = some x ∧ Is w x op t ∧ IsFixed op

lemma Bindable.mono (r : Step w w') (h : Bindable w v) : Bindable w' v := by
  obtain ⟨x, op, t, hv, hx, hfix⟩ := h
  exact ⟨x, op, t, hv, hx.mono r, hfix⟩

lemma addValue_along (k name T) (hv : Bindable w v) :
    Along Outer w (rescope m fun s => s.addValue k name T v) fun _ w' => w'.store = w.store := by
  obtain ⟨x, op, t, rfl, hx, hfix⟩ := hv
  exact rescope_along fun _ _ hM hD => ⟨outer_rescope (step_addValue hM hx (fun _ => hfix) hD), rfl⟩

lemma addTypeSymbol_outer (hr : Ready w m) (name) (ht : Nameable w t) :
    Along Outer w (addTypeSymbol m name t) fun _ w' => w'.store = w.store := by
  obtain ⟨M, hM, hcur, -⟩ := hr
  refine .look (module_along m) fun M' hM' => ?_
  cases Option.mem_unique hM hM'
  refine rescopeTraced_along (fun _ _ q => q.outer) fun K D hK hD => ⟨outer_rescope (step_addType hK ?_ ht hD), rfl⟩
  rw [hcur]
  decide

lemma addValueSymbol_outer (m name) (hv : Bindable w v) :
    Along Outer w (addValueSymbol m name v) fun _ w' => w'.store = w.store := by
  obtain ⟨x, op, t, rfl, hx, hfix⟩ := hv
  refine .look (module_along m) fun M _ => ?_
  refine .bind (valueType?_along _) ?_
  rintro T w2 - rfl
  exact rescopeTraced_along (fun _ _ q => q.outer) fun K D hK hD =>
    ⟨outer_rescope (step_addValue hK hx (fun _ => hfix) hD), rfl⟩

end Act

lemma declareStruct_along (hg : Good w) (hr : Ready w m) (d) : Along Outer w (declareStruct m d) := by
  refine .ite (fun _ => ?_) fun _ => .pure trivial
  refine .bind (outwardly (Act.newStruct_along hg m d.name)) fun T w1 r1 hT => ?_
  refine (Act.addTypeSymbol_outer (hr.mono r1) d.name fun T' hT' => ?_).mono fun _ _ _ _ => trivial
  cases hT'
  exact hT

def Declares (m : Handle) (w : World σ) : Prop := Good w ∧ Ready w m

lemma Declares.mono (r : Outer w w') (h : Declares m w) : Declares m w' := ⟨r.good h.1, h.2.mono r⟩

namespace Act

lemma exists_types {args : List TypeId} (h : ∀ T ∈ args, ∃ t, w.store.type? T.handle = some t ∧ t.Plain) :
    ∃ ps : List Ty, (args.map TypeId.handle).map w.store.type? = ps.map some ∧ ∀ t ∈ ps, t.Plain := by
  induction args with
  | nil => exact ⟨[], rfl, by simp⟩
  | cons T args ih =>
    obtain ⟨t, ht, hp⟩ := h T (by simp)
    obtain ⟨ps, hps, hplain⟩ := ih fun T' hT' => h T' (by simp [hT'])
    refine ⟨t :: ps, ?_, ?_⟩
    · simp only [List.map_cons, ht, hps]
    · rintro u hu
      rcases List.mem_cons.1 hu with rfl | hu
      · exact hp
      · exact hplain u hu

def IsFunc (w : World σ) (v : ValueId) : Prop := ∃ h r ps va, Is w v (.func h) (.func r ps va)

lemma IsFunc.mono (r : Step w w') (h : IsFunc w v) : IsFunc w' v := by
  obtain ⟨g, ret, ps, va, hv⟩ := h
  exact ⟨g, ret, ps, va, hv.mono r⟩

lemma IsFunc.bindable (h : IsFunc w v) : Bindable w (some v) := by
  obtain ⟨g, ret, ps, va, hv⟩ := h
  exact ⟨v, _, _, rfl, hv, trivial⟩

lemma importTypes_along (hw : Declares m w) (source syms) :
    (∀ sym ∈ syms, Nameable w sym.type) → Along Outer w (importTypes m source syms) := by
  induction syms generalizing w with
  | nil => exact fun _ => .pure trivial
  | cons sym rest ih =>
    intro hsyms
    refine .bind (typeSymbol_along m sym.name true) ?_
    rintro found w1 - rfl
    refine fail_ite fun _ => ?_
    have hown : Along Silent w1 (sym.type.mapM (ownType m)) fun t w' => Nameable w' t := by
      cases hT : sym.type with
      | none => exact .pure nofun
      | some T =>
        refine .map ((ownType_along T hw.1 hw.2.live).mono fun T' w2 r2 hT' => ?_)
        rintro T1 h1
        cases h1
        obtain ⟨u, hu, hp⟩ := hsyms sym (by simp) T hT
        exact ⟨u, hT' ▸ r2.store.type? hu, hp⟩
    refine .bind (outwardly hown) fun t w2 r2 ht => ?_
    refine .bind (addType_along (by decide) sym.name ht) fun _ w3 r3 _ => ?_
    have r := trans_of Outer r2 r3
    exact ih (hw.mono r) fun sym' hs' => (hsyms sym' (by simp [hs'])).mono r.toStep

lemma ownValue_bindable (hg : Good w) (hm : Live w m) (hv : Bindable w v) :
    Along Silent w (ownValue m v) fun x w' => Bindable w' x := by
  refine (adoptWith_along v hg hm fun T => ownType_along T hg hm).mono fun x w1 r1 hx => ?_
  obtain ⟨y, op, t, rfl, hy, hfix⟩ := hv
  cases x with
  | none => cases hx.handle
  | some x =>
    have hh : x.handle = y.handle := Option.some.inj hx.handle
    rcases hx.known x rfl with h | ⟨op', t', h⟩
    · cases h
      exact ⟨_, op, t, rfl, hy.mono r1.toStep, hfix⟩
    · have hop := h.operand
      rw [hh, r1.store.operand? hy.operand] at hop
      cases hop
      exact ⟨x, op, t', rfl, h, hfix⟩

lemma importValues_along (hw : Declares m w) (source syms) :
    (∀ sym ∈ syms, Bindable w sym.value) → Along Outer w (importValues m source syms) := by
  induction syms generalizing w with
  | nil => exact fun _ => .pure trivial
  | cons sym rest ih =>
    intro hsyms
    refine .bind (valueSymbol_along m sym.name true) ?_
    rintro found w1 - rfl
    refine fail_ite fun _ => ?_
    refine .bind (outwardly (ownValue_bindable hw.1 hw.2.live (hsyms sym (by simp)))) fun v w2 r2 hv => ?_
    refine .bind (valueType?_along v) ?_
    rintro T w3 - rfl
    refine .bind (addValue_along importScope sym.name T hv) fun _ w4 r4 _ => ?_
    have r := trans_of Outer r2 r4
    exact ih (hw.mono r) fun sym' hs' => (hsyms sym' (by simp [hs'])).mono r.toStep

lemma nameable_of_mem (hg : Good w) (hM : w.modules[m]? = some M) (h : sym ∈ M.scopes.types k) :
    Nameable w sym.type := by
  unfold Scopes.types at h
  cases hsc : M.scopes.get? k with
  | none => simp [hsc] at h
  | some sc =>
    rw [hsc] at h
    exact ((hg.scopes m M hM).types k sc hsc sym (by simpa using h)).2

lemma bindable_of_mem (hg : Good w) (hM : w.modules[m]? = some M) (hk : k ≤ exportScope)
    (h : sym ∈ M.scopes.values k) : Bindable w sym.value := by
  unfold Scopes.values at h
  cases hsc : M.scopes.get? k with
  | none => simp [hsc] at h
  | some sc =>
    rw [hsc] at h
    obtain ⟨v, op, t, hv, his, hfix⟩ := (hg.scopes m M hM).values k sc hsc sym (by simpa using h)
    exact ⟨v, op, t, hv, his, hfix hk⟩

lemma useModule_along (hw : Declares m w) (name) : Along Outer w (useModule m name) fun _ w' => Declares m w' := by
  have hdone : ∀ {w1 : World σ}, Outer w w1 → Declares m w1 := fun r => hw.mono r
  refine Along.mono (P := fun _ _ => True) ?_ fun _ _ r _ => hdone r
  refine .look (module_along m) fun M hM => ?_
  refine .bind (loaded?_along name) ?_
  rintro found w2 - rfl
  cases found with
  | none => exact fail_along
  | some dep =>
    refine fail_ite fun _ => fail_ite fun _ => ?_
    have hdeps : Silent w2 { w2 with modules := w2.modules.modify m fun i => { i with deps := i.deps ++ [name] } } :=
      silent_update (fun _ _ _ _ => id) (fun K hg hK => ⟨(hg.sound _ K hK).types, (hg.sound _ K hK).values⟩)
        fun _ => ⟨rfl, rfl, rfl⟩
    refine .bind (P := fun _ _ => True) (update_along hdeps.outer trivial) fun _ w3 r3 _ => ?_
    refine .bind (outwardly (beginSpan_along ..)) fun span w4 r4 _ => ?_
    refine ensuring_along (P := fun _ _ => True) ?_ (fun _ _ => outwardly (endSpan_along span [])) fun _ _ _ _ =>
      outwardly (endSpan_along span [])
    have hw4 := hdone (trans_of Outer r3 r4)
    refine .look (module_along dep) fun D hD => ?_
    refine .bind (importTypes_along hw4 name _ fun sym hsym => nameable_of_mem hw4.1 hD hsym) fun _ w6 r6 _ => ?_
    have hw6 := hw4.mono r6
    refine .look (module_along dep) fun D' hD' => ?_
    exact importValues_along hw6 name _ fun sym hsym => bindable_of_mem hw6.1 hD' (by decide) hsym

end Act

lemma useImports_along (hw : Declares m w) (src) : Along Outer w (useImports m src) := by
  refine .look (mapM_need_along _) fun imports _ => ?_
  refine .bind (Along.forM _ (fun name _ w2 hw2 => ?_) w hw) fun _ w2 _ hw2 => ?_
  · refine .bind (Act.loaded?_along name) ?_
    rintro found w3 - rfl
    exact .ite (fun _ => Act.useModule_along hw2 name) fun _ => .pure hw2
  · exact (Along.forM _ (fun name _ w3 hw3 => Act.useModule_along hw3 name) w2 hw2).mono
      fun _ _ _ _ => trivial

lemma Scopes.Sound.search_root {S : Scopes} (hS : S.Sound w) (h : S.search rootScope outward probe = some sym) :
    ∃ sc, S.get? rootScope = some sc ∧ probe sc = some sym := by
  rw [search] at h
  cases hsc : S.get? rootScope with
  | none => simp [hsc] at h
  | some sc =>
    have hp : sc.parent = 0 := Nat.lt_one_iff.1 (hS.parent rootScope sc hsc)
    have hend : S.search 0 outward probe = none := by
      rw [search]
      rfl
    simp only [hsc, hp, hend] at h
    cases hprobe : probe sc with
    | some s =>
      simp only [hprobe] at h
      exact ⟨sc, rfl, hprobe.trans h⟩
    | none => simp [hprobe] at h

namespace Act

lemma exportAll_along (hw : Declares m w) : Along Outer w (exportAll m) := by
  refine .look (module_along m) fun M hM => ?_
  refine .bind (Along.forM _ (fun sym hsym w2 r2 => ?_) w (refl_of Outer _)) fun _ w2 _ r2 => ?_
  · refine .look (module_along m) fun M' _ => ?_
    refine .ite (fun _ => ?_) fun _ => .pure r2
    exact (addType_along (by decide) sym.name ((nameable_of_mem hw.1 hM hsym).mono r2.toStep)).mono
      fun _ _ r _ => trans_of Outer r2 r
  · refine (Along.forM _ (fun sym hsym w2 r3 => ?_) w2 r2).mono fun _ _ _ _ => trivial
    refine .look (module_along m) fun M' _ => ?_
    refine .ite (fun _ => ?_) fun _ => .pure r3
    refine .bind (valueType?_along _) ?_
    rintro T w5 - rfl
    exact (addValue_along exportScope sym.name T ((bindable_of_mem hw.1 hM (by decide) hsym).mono r3.toStep)).mono
      fun _ _ r _ => trans_of Outer r3 r

end Act

end Arbor.Build
