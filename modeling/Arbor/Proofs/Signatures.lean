import Arbor.Proofs.Declaring

/-! What the declarations of a module leave behind. A name of the root scope keeps what it stands for,
the names of types mean the same once the structs are declared, and functions get their signatures
before any of them gets a body. -/

namespace Arbor.Build

open IR Diag Proofs Lower IR.Code Arbor.Tree List Option Scopes

variable {σ : Type} {w w' : World σ} {m : Handle}
variable {op : Operand}

lemma get?_of_lt {S : Scopes} (h0 : k ≠ 0) (hk : k < S.data.size) : ∃ sc, S.get? k = some sc :=
  ⟨_, get?_eq_some.2 ⟨h0, Array.getElem?_eq_getElem hk⟩⟩

/-! ### Names of values -/

def Bound (w : World σ) (m : Handle) (name : Text) (op : Operand) : Prop :=
  ∃ M sc sym v t, w.modules[m]? = some M ∧ M.scopes.get? rootScope = some sc ∧
    sc.values.get? name.composed = some sym ∧ sym.value = some v ∧ Is w v op t

lemma Bound.mono (r : Step w w') (h : Bound w m name op) : Bound w' m name op := by
  obtain ⟨M, sc, sym, v, t, hM, hsc, hsym, hv, his⟩ := h
  obtain ⟨M', hM', -⟩ := r.values m M hM
  obtain ⟨sc', hsc', -, hprefix⟩ := r.names m M M' hM hM' rootScope sc hsc
  refine ⟨M', sc', sym, v, t, hM', hsc', ?_, hv, his.mono r⟩
  rw [SymbolTable.get?_eq, ← Array.find?_toList] at hsym ⊢
  exact hprefix.find?_eq_some hsym

lemma exists_fixed_frame (hg : Good w) {values : Array Symbol}
    (h : ∀ sym ∈ values, ∃ v op t, sym.value = some v ∧ Is w v op t ∧ IsFixed op) :
    ∃ frame, FrameIs w values frame ∧ ∀ p ∈ frame, p.2.2 = w.store.code.valueTy p.2.1 := by
  unfold FrameIs
  have hlist : ∀ sym ∈ values.toList, ∃ v op t, sym.value = some v ∧ Is w v op t ∧ IsFixed op := by simpa using h
  generalize values.toList = syms at hlist
  induction syms with
  | nil => exact ⟨[], .nil, by simp⟩
  | cons sym syms ih =>
    obtain ⟨v, op, t, hv, his, hfix⟩ := hlist sym (by simp)
    obtain ⟨frame, hframe, htypes⟩ := ih fun s hs => hlist s (by simp [hs])
    refine ⟨(sym.name, op, w.store.code.valueTy op) :: frame,
      .cons ⟨rfl, v, hv, his.valueTy hg (by rintro g i t rfl; cases hfix)⟩ hframe, fun p hp => ?_⟩
    rcases mem_cons.1 hp with rfl | hp
    · rfl
    · exact htypes p hp

lemma Env.mem_of_find? {Γ : Env} {t : Ty} (h : Γ.find? name = some (op, t)) :
    ∃ frame ∈ Γ, ∃ key, (key, op, t) ∈ frame := by
  obtain ⟨frame, hframe, hlook⟩ := exists_of_findSome?_eq_some h
  obtain ⟨before, after, rfl, -⟩ := lookup_eq_some_iff.1 hlook
  exact ⟨_, hframe, name.composed, by simp⟩

lemma exists_top (hw : Declares S.module w) (hn : Named w S) : ∃ Γ, Top w S Γ ∧
    ∀ name op, Bound w S.module name op → Γ.find? name = some (op, w.store.code.valueTy op) := by
  obtain ⟨hg, M, hM, hcur, hloop⟩ := hw
  have hscopes := hg.scopes _ M hM
  obtain ⟨sc, hsc⟩ := get?_of_lt (k := rootScope) (by decide)
    (Nat.lt_trans (by decide) hscopes.size)
  obtain ⟨imp, himp⟩ := get?_of_lt (k := importScope) (by decide)
    (Nat.lt_trans (by decide) hscopes.size)
  have hvalues : ∀ {k sck}, k ≤ exportScope → M.scopes.get? k = some sck → ∃ frame, FrameIs w sck.values.order frame ∧
      ∀ p ∈ frame, p.2.2 = w.store.code.valueTy p.2.1 := fun hk hsck =>
    exists_fixed_frame hg fun sym hsym => by
      obtain ⟨v, op, t, hv, his, hfix⟩ := hscopes.values _ _ hsck sym hsym
      exact ⟨v, op, t, hv, his, hfix hk⟩
  obtain ⟨frame, hframe, htypes⟩ := hvalues (by decide) hsc
  obtain ⟨imports, himports, htypes'⟩ := hvalues (by decide) himp
  have hlt := hscopes.parent rootScope sc hsc
  have hparent : sc.parent = 0 := Nat.lt_one_iff.1 hlt
  obtain ⟨_, hK, hnamed⟩ := hn
  cases mem_unique hM hK
  have hchain : Chain M.scopes rootScope [sc.level rootScope] := .cons hsc hlt (hparent ▸ .nil)
  have hframes : Forall₂ (FrameIs w) [sc.values.order, imp.values.order] [frame, imports] := .cons hframe (.cons himports .nil)
  refine ⟨[frame, imports], ⟨M, sc.level rootScope, imp, hM, hcur ▸ hchain, himp, hframes, hnamed, hloop⟩, ?_⟩
  rintro name op ⟨M', sc', sym, v, t, hM', hsc', hsym, hv, his⟩
  cases mem_unique hM hM'
  cases mem_unique hsc hsc'
  have hfind := frames_find name hframes
  rw [List.findSome?_cons, show (sc.values.order.find? fun sym => sym.name = name.composed) = some sym from (sc.values.get?_eq _).symm.trans hsym] at hfind
  obtain ⟨v', op', t', hv', his', hΓ⟩ := hfind
  cases mem_unique hv hv'
  cases mem_unique his.operand his'.operand
  obtain ⟨fr, hfr, key, hmem⟩ := Env.mem_of_find? hΓ
  have ht' : t' = w.store.code.valueTy op := by
    simp only [mem_cons, not_mem_nil, or_false] at hfr
    rcases hfr with rfl | rfl
    · exact htypes _ hmem
    · exact htypes' _ hmem
  rw [hΓ, ht']

/-! ### Names of types -/

section

variable {S S' : Scopes} {P : ScopeId → Prop} {probe : Scope → Option Symbol}
  (h : ∀ k, P k → (S'.get? k).map (fun sc => (probe sc, sc.parent)) = (S.get? k).map fun sc => (probe sc, sc.parent))

include h

lemma search_of_search (hP : ∀ k sc, P k → S.get? k = some sc → P sc.parent) (hk : P k)
    (hs : S.search k outward probe = some sym) : S'.search k outward probe = some sym := by
  refine search.partial_correctness S outward probe (fun k sym => P k → S'.search k outward probe = some sym)
    (fun search ih k sym hs hk => ?_) k sym hs hk
  rw [Scopes.search]
  have heq := h k hk
  cases hsc : S.get? k with
  | none => simp [hsc] at hs
  | some sc =>
    rw [hsc, map_some, map_eq_some_iff] at heq
    obtain ⟨sc', hsc', heq⟩ := heq
    obtain ⟨hprobe, hparent⟩ : probe sc' = probe sc ∧ sc'.parent = sc.parent := Prod.ext_iff.1 heq
    simp only [hsc, ← hprobe, ← hparent] at hs
    simp only [hsc']
    cases hp : probe sc' with
    | some s => simpa only [hp] using hs
    | none =>
      simp only [hp] at hs ⊢
      split at hs
      · rw [if_pos ‹_›]
        exact ih _ _ hs (hparent ▸ hP k sc hk hsc)
      · cases hs

lemma search_congr (hP : ∀ k sc, P k → S.get? k = some sc → P sc.parent) (hk : P k) :
    S'.search k outward probe = S.search k outward probe := by
  refine Option.ext fun sym => ⟨search_of_search (fun k hk => (h k hk).symm) (fun k sc' hk hsc' => ?_) hk,
    search_of_search h hP hk⟩
  have heq := (h k hk).symm
  rw [hsc', map_some, map_eq_some_iff] at heq
  obtain ⟨sc, hsc, heq⟩ := heq
  have hparent : sc.parent = sc'.parent := (Prod.ext_iff.1 heq).2
  exact hparent ▸ hP k sc hk hsc

end

def Kept (m : Handle) (w w' : World σ) : Prop :=
  ∀ M, w.modules[m]? = some M → ∃ M', w'.modules[m]? = some M' ∧ typeNamed M' = typeNamed M

lemma Kept.refl (m) (w : World σ) : Kept m w w := fun M hM => ⟨M, hM, rfl⟩

lemma Kept.trans (h : Kept m w w1) (k : Kept m w1 w') : Kept m w w' := fun M hM => by
  obtain ⟨M1, hM1, h1⟩ := h M hM
  obtain ⟨M', hM', h'⟩ := k M1 hM1
  exact ⟨M', hM', h'.trans h1⟩

lemma Silent.kept (r : Silent w w') : Kept m w w' := fun M hM => by
  obtain ⟨M', hM', hs, hc, -⟩ := r.still m M hM
  refine ⟨M', hM', funext fun name => ?_⟩
  unfold typeNamed
  rw [hs, hc]

lemma search_set {S : Scopes} (hsc : S.get? k = some sc) (hprobe : p d = p sc) (hparent : d.parent = sc.parent)
    (j outward) :
    search { data := S.data.setIfInBounds k d } j outward p = S.search j outward p := by
  refine search_congr (P := fun _ => True) (fun i _ => ?_) (fun _ _ _ _ => trivial) trivial
  rw [get?_set (get?_eq_some.1 hsc).1 (get?_lt hsc)]
  split
  · next hi => rw [hi, hsc, map_some, map_some, hprobe, hparent]
  · rfl

lemma kept_rescope (hM : w.modules[m]? = some M) (h : typeNamed { M with scopes := D } = typeNamed M) :
    Kept m w { w with modules := w.modules.modify m fun i => { i with scopes := D } } := by
  intro K hK
  cases mem_unique hM hK
  exact ⟨{ M with scopes := D }, by simp [hM], h⟩

lemma kept_addValue (hM : w.modules[m]? = some M) (hD : M.scopes.addValue k name t v = .ok D) :
    Kept m w { w with modules := w.modules.modify m fun i => { i with scopes := D } } := by
  obtain ⟨sc, hsc, -, rfl⟩ := Act.addValue_ok hD
  refine kept_rescope hM (funext fun name' => ?_)
  have hlook := search_set (p := fun sc => sc.types.get? name'.composed)
    (d := { sc with values := (sc.values.add ⟨name.composed, t, v⟩).2 }) hsc rfl rfl
  simp only [typeNamed, lookupType, hlook]

lemma lookupType_export {S : Scopes} (hS : S.Sound w) (hsc : S.get? exportScope = some sc)
    (hk : k ≤ importScope) (name outward) :
    lookupType { data := S.data.setIfInBounds exportScope sc' } k name outward = S.lookupType k name outward := by
  refine search_congr (P := (· ≤ importScope)) (fun i hi => ?_)
    (fun i sci hi hsci => (Nat.le_of_lt (hS.parent i sci hsci)).trans hi) hk
  rw [get?_set (by decide) (get?_lt hsc), if_neg (Nat.ne_of_lt (Nat.lt_of_le_of_lt hi (by decide)))]

lemma kept_exportType (hg : Good w) (hM : w.modules[m]? = some M)
    (hcur : M.current = rootScope) (hD : M.scopes.addType exportScope name t = .ok D) :
    Kept m w { w with modules := w.modules.modify m fun i => { i with scopes := D } } := by
  obtain ⟨sc, hsc, -, rfl⟩ := Act.addType_ok hD
  refine kept_rescope hM (funext fun name' => ?_)
  have hroot : rootScope ≤ importScope := by decide
  simp only [typeNamed, hcur, lookupType_export (hg.scopes m M hM) hsc hroot,
    lookupType_export (hg.scopes m M hM) hsc (Nat.le_refl _)]

/-! ### Declarations -/

lemma Act.addValueSymbol_bound (hr : Ready w m) (name) (hx : Is w x op t) (hfix : IsFixed op) :
    Along Outer w (addValueSymbol m name (some x)) fun _ w' => w'.store = w.store ∧ Kept m w w' ∧ Bound w' m name op ∧
      ∀ op', ¬Bound w m name op' := by
  obtain ⟨M, hM, hcur, -⟩ := hr
  refine .look (module_along m) fun M' hM' => ?_
  cases mem_unique hM hM'
  refine .bind (valueType?_along _) ?_
  rintro T w2 - rfl
  refine rescopeTraced_along (fun _ _ q => q.outer) fun K D hK hD => ?_
  cases mem_unique hM hK
  have hstep := step_addValue hM hx (fun _ => hfix) hD
  have hkept := kept_addValue hM hD
  rw [hcur] at hD
  obtain ⟨sc, hsc, hnone, hDeq⟩ := addValue_ok hD
  refine ⟨outer_rescope hstep, rfl, hkept, ?_, fun op' ⟨M', sc', sym, v, t, hM', hsc', hsym, _⟩ => ?_⟩
  rotate_left
  · cases mem_unique hM hM'
    cases mem_unique hsc hsc'
    cases hnone.symm.trans hsym
  refine ⟨{ M with scopes := D }, { sc with values := (sc.values.add { name := name.composed, type := T, value := some x }).2 },
    { name := name.composed, type := T, value := some x }, x, t, by simp [hM], ?_, ?_, rfl, hx.mono hstep⟩
  · rw [hDeq]
    exact (get?_set (by decide) (get?_lt hsc)).trans (if_pos rfl)
  · exact SymbolTable.get?_add_self hnone

lemma Named.kept (h : Named w S) (r : Step w w') (k : Kept S.module w w') : Named w' S := by
  obtain ⟨M, hM, htypes⟩ := h
  obtain ⟨M', hM', heq⟩ := k M hM
  refine ⟨M', hM', fun name T hT => ?_⟩
  obtain ⟨t, ht, hp, hS⟩ := htypes name T (heq ▸ hT)
  exact ⟨t, r.store.type? ht, hp, hS⟩

def Typed (S : Site) (params : List (Option Param)) (ts : List Ty) : Prop :=
  List.Forall₂ (fun p t => ∃ q : Param, p = some q ∧ S.type? q.type = some t) params ts

lemma paramTypes_typed (func params) : ∀ {w : World σ}, Good w → Named w S →
    Along Silent w (paramTypes S.module func params) fun Ts w' => ∃ ts, Typed S params ts ∧ (∀ t ∈ ts, t.Plain) ∧
      (Ts.map TypeId.handle).map w'.store.type? = ts.map some := by
  unfold paramTypes
  induction params with
  | nil => exact fun _ _ => .pure ⟨[], .nil, by simp, rfl⟩
  | cons p params ih =>
    intro w hg hn
    rw [mapM_cons]
    refine .bind (P := fun T w' => ∃ q t, p = some q ∧ S.type? q.type = some t ∧ t.Plain ∧
      w'.store.type? T.handle = some t) (.bind (Act.need_along p) ?_) fun T w1 r1 hT => ?_
    · rintro q w1 - ⟨rfl, rfl⟩
      refine .bind (typeOf_along hg hn q.type) fun T w2 _ ⟨t, hS, hp, ht⟩ => ?_
      refine .bind (Act.typeKind_same T) ?_
      rintro k w3 - rfl
      exact .ite (fun _ => Act.raise_bind) fun _ => .pure ⟨q, t, rfl, hS, hp, ht⟩
    obtain ⟨q, t, rfl, hS, hp, ht⟩ := hT
    refine .bind (ih (r1.good hg) (hn.kept r1.toStep r1.kept)) fun Ts w2 r2 hTs => .pure ?_
    obtain ⟨ts, htyped, hplain, hts⟩ := hTs
    refine ⟨t :: ts, .cons ⟨q, rfl, hS⟩ htyped, fun u hu => ?_, ?_⟩
    · rcases mem_cons.1 hu with rfl | hu
      · exact hp
      · exact hplain u hu
    · simp only [map_cons, r2.store.type? ht, hts]

structure Made (w : World σ) (m : Handle) (name : Text) (v : ValueId) (g : Handle) (r : Ty) (ps : List Ty) (va : Bool) :
    Prop where
  value : Is w v (.func g) (.func r ps va)
  func : ∃ f, w.store.func? g = some f ∧ f.module = m ∧ f.ident.name = name ∧ f.signature = .func r ps va

lemma Made.mono (s : Step w w') (h : Made w m name v g r ps va) : Made w' m name v g r ps va := by
  obtain ⟨f, hf, hm, hname, hsig⟩ := h.func
  obtain ⟨f', hf', hle⟩ := s.store.func (Store.func?_eq_some.1 hf)
  refine ⟨h.value.mono s, f', Store.func?_eq_some.2 hf', hle.module.trans hm, hle.ident ▸ hname, ?_⟩
  have hparams : f'.params.toList.map ParamInfo.ty = f.params.toList.map ParamInfo.ty := hle.params
  rw [← hsig, FuncInfo.signature, FuncInfo.signature, hle.ret, hle.variadic, hparams]

lemma Act.declareFunc_made (hg : Good w) (hm : Live w m) (name) {ret : TypeId}
    (va) (hr : w.store.type? ret.handle = some r) (hrp : r.Plain)
    (hps : (args.map TypeId.handle).map w.store.type? = ps.map some) (hpp : ∀ t ∈ ps, t.Plain) :
    Along Outer w (declareFunc m name (some ret) args va) fun v w' => Kept m w w' ∧ ∃ g, Made w' m name v g r ps va := by
  have hret : RetIs w.store (some ret) r := hr
  refine .bind ((funcType_along hg m hret hps).keep fun _ q => q.outer) fun F w1 _ ⟨r1, hF⟩ => ?_
  have hparts : w1.store.funcParts? F.handle = some (r, ps, va) := by simp only [Store.funcParts?, hF]
  have hemit := Emit.declareFunc_along (r1.good hg).store m name F.handle fun r' ps' va' h' => by
    cases hparts.symm.trans h'
    exact ⟨hrp, hpp⟩
  refine .bind (emit_of (fun s a => (steady_of_store a.toGrows).outer a.adds) hemit)
    fun x w2 r2 hx => ?_
  cases x with
  | error e => exact fail_along
  | ok h =>
    obtain ⟨r', ps', va', f, hparts', hne, hf, hfm, hname, hcases⟩ := hx.2 h rfl
    cases hparts.symm.trans hparts'
    have hsig : f.signature = .func r ps va := by
      rcases hcases with ⟨-, ht⟩ | ⟨rfl, -⟩
      · exact (mem_unique hF ht).symm
      · rw [← FuncInfo.code_signature, Emit.code_bodiless]
        rfl
    have hval : w2.store.code.valueTy (.func h) = .func r ps va := (Store.valueTy_func hf).trans hsig
    have hop : w2.store.operand? h = some (.func h) := by
      simp only [Store.operand?, Store.func?_eq_some.1 hf]
    refine ((valueWith_settled (r2.good (r1.good hg)) ((hm.mono r1.toStep).mono r2.toStep) hop
      (settled_func h) fun T hT => ?_).keep fun _ q => q.outer).mono ?_
    · cases hT
      rw [hval]
      exact r2.store.type? hF
    · rintro v w3 - ⟨r3, -, hv⟩
      have hmade : Made w3 m name v h r ps va := by
        rw [hval] at hv
        obtain ⟨f', hf', hle⟩ := r3.store.func (Store.func?_eq_some.1 hf)
        have hparams : f'.params.toList.map ParamInfo.ty = f.params.toList.map ParamInfo.ty := hle.params
        refine ⟨hv, f', Store.func?_eq_some.2 hf', hle.module.trans hfm, hle.ident ▸ hname, ?_⟩
        rw [← hsig, FuncInfo.signature, FuncInfo.signature, hle.ret, hle.variadic, hparams]
      exact ⟨(r1.kept.trans (fun M hM => ⟨M, hx.1 ▸ hM, rfl⟩)).trans r3.kept, h, hmade⟩

structure Signed (w : World σ) (S : Site) (d : Decl) (v : ValueId) (g : Handle) (r : Ty) (ps : List Ty) : Prop where
  made : Made w S.module d.name v g r ps (d.kind? = some .foreign && d.variadic)
  bound : Bound w S.module d.name (.func g)
  ret : S.type? d.ret = some r
  params : Typed S d.params.items ps

lemma Signed.mono (s : Step w w') (h : Signed w S d v g r ps) :
    Signed w' S d v g r ps := ⟨h.made.mono s, h.bound.mono s, h.ret, h.params⟩

lemma declareFunc_signed (hw : Declares S.module w) (hn : Named w S) (d) :
    Along Outer w (declareFunc S.module d) fun v w' => Kept S.module w w' ∧ (∀ op, ¬Bound w S.module d.name op) ∧
      ∃ g r ps, Signed w' S d v g r ps := by
  refine .bind ((typeOf_along hw.1 hn d.ret).keep fun _ q => q.outer) fun ret w1 _ ⟨r1, t, hS, hp, ht⟩ => ?_
  have hw1 := hw.mono r1.outer
  refine .bind ((paramTypes_typed d.name _ hw1.1 (hn.kept r1.toStep r1.kept)).keep fun _ q => q.outer) ?_
  rintro args w2 - ⟨r2, ts, htyped, hplain, hts⟩
  have hw2 := hw1.mono r2.outer
  refine .bind (Act.declareFunc_made hw2.1 hw2.2.live d.name _ (r2.store.type? ht) hp hts hplain) fun fn w3 r3 hfn => ?_
  obtain ⟨k3, g, hmade⟩ := hfn
  refine .bind (Act.addValueSymbol_bound (hw2.2.mono r3) d.name hmade.value trivial) fun _ w4 r4 hbound => .pure ?_
  obtain ⟨-, k4, hbound, hnot⟩ := hbound
  have r := trans_of Outer (trans_of Outer r1.outer r2.outer) r3
  refine ⟨((r1.kept.trans r2.kept).trans k3).trans k4, fun op h => hnot op (h.mono r.toStep), g, t, ts, ?_⟩
  exact ⟨hmade.mono r4.toStep, hbound, hS, htyped⟩

lemma Bound.congr (hname : name.composed = name'.composed) (h : Bound w m name op) :
    Bound w m name' op := by
  unfold Bound at h ⊢
  rwa [← hname]

structure Roster (w w' : World σ) (S : Site) (decls : List Decl) (funcs : List (Decl × ValueId)) : Prop where
  order : funcs.map Prod.fst = decls.filter fun d => d.kind? = some .func
  signed : ∀ p ∈ funcs, ∃ g r ps, Signed w' S p.1 p.2 g r ps
  fresh : ∀ p ∈ funcs, ∀ op, ¬Bound w S.module p.1.name op
  distinct : funcs.Pairwise fun p q => p.1.name.composed ≠ q.1.name.composed

lemma Roster.skip {funcs : List (Decl × ValueId)} (r : Step w w1) (hk : d.kind? ≠ some .func)
    (h : Roster w1 w' S decls funcs) : Roster w w' S (d :: decls) funcs where
  order := by rw [filter_cons_of_neg (by simpa using hk), h.order]
  signed := h.signed
  fresh p hp op hb := h.fresh p hp op (hb.mono r)
  distinct := h.distinct

lemma Roster.cons {funcs : List (Decl × ValueId)} (r : Step w w1) (r' : Step w1 w')
    (hk : d.kind? = some .func) (hnot : ∀ op, ¬Bound w S.module d.name op) (hs : Signed w1 S d v g ret ps)
    (h : Roster w1 w' S decls funcs) : Roster w w' S (d :: decls) ((d, v) :: funcs) where
  order := by rw [filter_cons_of_pos (by simpa using hk), map_cons, h.order]
  signed p hp := by
    rcases mem_cons.1 hp with rfl | hp
    · exact ⟨g, ret, ps, hs.mono r'⟩
    · exact h.signed p hp
  fresh p hp op hb := by
    rcases mem_cons.1 hp with rfl | hp
    · exact hnot op hb
    · exact h.fresh p hp op (hb.mono r)
  distinct := pairwise_cons.2 ⟨fun p hp heq => h.fresh p hp _ (hs.bound.congr heq), h.distinct⟩

lemma declareFuncs_roster (decls) : ∀ {w : World σ}, Declares S.module w → Named w S →
    Along Outer w (declareFuncs S.module decls) fun funcs w' => Kept S.module w w' ∧ Roster w w' S decls funcs := by
  unfold declareFuncs
  induction decls with
  | nil => exact fun _ _ => .pure ⟨.refl _ _, rfl, by simp, by simp, .nil⟩
  | cons d decls ih =>
    intro w hw hn
    rw [filterMapM_cons]
    have hfunc := declareFunc_signed hw hn d
    refine .bind (P := fun x w1 => Outer w w1 ∧ Kept S.module w w1 ∧ ((x = none ∧ d.kind? ≠ some .func) ∨
      ∃ v, x = some (d, v) ∧ d.kind? = some .func ∧ (∀ op, ¬Bound w S.module d.name op) ∧
        ∃ g r ps, Signed w1 S d v g r ps)) ?_ ?_
    · split
      · next hk =>
        refine .bind (hfunc.keep fun _ q => q) fun v w1 r1 hv => .pure ?_
        exact ⟨hv.1, hv.2.1, .inr ⟨v, rfl, hk, hv.2.2⟩⟩
      · next hk =>
        refine .bind (hfunc.keep fun _ q => q) fun v w1 r1 hv => .pure ⟨hv.1, hv.2.1, .inl ⟨rfl, ?_⟩⟩
        simp [hk]
      · next hk _ => exact .pure ⟨refl_of Outer w, .refl _ _, .inl ⟨rfl, hk⟩⟩
    · rintro x w1 - ⟨r1, k1, hx⟩
      have hrest := ih (hw.mono r1) (hn.kept r1.toStep k1)
      rcases hx with ⟨rfl, hk⟩ | ⟨v, rfl, hk, hnot, g, r, ps, hs⟩
      · exact hrest.mono fun funcs w2 _ h => ⟨k1.trans h.1, h.2.skip r1.toStep hk⟩
      · refine .bind hrest fun funcs w2 r2 h => .pure ⟨k1.trans h.1, ?_⟩
        exact .cons r1.toStep r2.toStep hk hnot hs h.2

def Stated (w : World σ) (m : Handle) (d : Decl) : Prop :=
  ∃ e op t, d.init = some e ∧ Literal m e op t ∧ Bound w m d.name op

lemma Stated.mono (r : Step w w') (h : Stated w m d) : Stated w' m d := by
  obtain ⟨e, op, t, he, hl, hb⟩ := h
  exact ⟨e, op, t, he, hl, hb.mono r⟩

lemma declareLets_stated (decls) : ∀ {w : World σ}, Declares m w →
    Along Outer w (declareLets m decls) fun _ w' => Kept m w w' ∧
      ∀ d ∈ decls, d.kind? = some .bind → Stated w' m d := by
  unfold declareLets
  induction decls with
  | nil => exact fun _ => .pure ⟨.refl _ _, by simp⟩
  | cons d decls ih =>
    intro w hw
    by_cases hk : d.kind? = some .bind
    · rw [filter_cons_of_pos (by simpa using hk)]
      refine .bind (P := fun _ w1 => Kept m w w1 ∧ Stated w1 m d) ?_ fun _ w1 r1 h1 =>
        (ih (hw.mono r1)).mono fun _ w2 r2 h2 => ⟨h1.1.trans h2.1, fun d' hd' hk' => ?_⟩
      · refine .bind ((constant_literal hw.1 hw.2.live d.init).keep fun _ q => q.outer) ?_
        rintro v w1 - ⟨r1, e, k, t, he, hl, hv⟩
        have hw1 := hw.mono r1.outer
        have hbind : ∀ {w2 : World σ}, Silent w1 w2 → Along Outer w2 (Act.addValueSymbol m d.name (some v))
            fun _ w' => Kept m w w' ∧ Stated w' m d := by
          intro w2 r2
          refine (Act.addValueSymbol_bound (hw1.2.mono r2.outer) d.name (hv.mono r2.toStep) trivial).mono fun _ w3 _ h => ?_
          exact ⟨(r1.kept.trans r2.kept).trans h.2.1, e, _, t, he, hl, h.2.2.1⟩
        cases d.type with
        | none => exact hbind (refl_of Silent _)
        | some ref =>
          refine .bind ((typeOf_plain hw1.1 hw1.2.live (some ref)).keep fun _ q => q.outer) fun want w2 _ ⟨r2, _⟩ => ?_
          refine .bind (Act.typeOf_same v) ?_
          rintro got w3 - rfl
          refine .ite (fun _ => ?_) fun _ => hbind r2
          refine .bind (Act.typeName_same got) fun _ _ _ _ => ?_
          exact .bind (Act.typeName_same want) fun _ _ _ _ => Act.raise_bind
      · rcases mem_cons.1 hd' with rfl | hd'
        · exact h1.2.mono r2.toStep
        · exact h2.2 d' hd' hk'
    · rw [filter_cons_of_neg (by simpa using hk)]
      refine (ih hw).mono fun _ w1 _ h => ⟨h.1, fun d' hd' hk' => ?_⟩
      rcases mem_cons.1 hd' with rfl | hd'
      · exact absurd hk' hk
      · exact h.2 d' hd' hk'

lemma Act.exportName_kept (hw : Declares m w) (name) :
    Along Outer w (exportName m name) fun _ w' => Kept m w w' := by
  refine .look (module_along m) fun M hM => ?_
  obtain ⟨M', hM', hcur, -⟩ := hw.2
  cases mem_unique hM hM'
  rw [hcur]
  have hscopes := hw.1.scopes m M hM
  have htypes : ∀ sym, M.scopes.lookupType rootScope name true = some sym → Nameable w sym.type :=
    fun sym hsym T hT => hw.1.lookupType hM hsym hT
  have hvalues : ∀ sym, M.scopes.lookupValue rootScope name true = some sym → Bindable w sym.value := by
    intro sym hsym
    obtain ⟨sc, hsc, hprobe⟩ := hscopes.search_root hsym
    obtain ⟨v, op, t, hv, his, hfix⟩ := hscopes.values rootScope sc hsc sym (SymbolTable.mem_of_get? hprobe)
    exact ⟨v, op, t, hv, his, hfix (by decide)⟩
  refine fail_ite fun _ => ?_
  beta_reduce
  extract_lets exportValue
  have hexport : ∀ u {w2 : World σ}, Outer w w2 → Kept m w w2 → Along Outer w2 (exportValue u) fun _ w' => Kept m w w' := by
    intro u w2 r2 k2
    unfold exportValue
    cases hv : M.scopes.lookupValue rootScope name true with
    | none => exact .pure k2
    | some sym =>
      refine .bind (valueType?_along _) ?_
      rintro T w3 - rfl
      obtain ⟨x, op, t, hx, his, hfix⟩ := (hvalues sym hv).mono r2.toStep
      rw [hx]
      refine rescope_along fun K D hK hD => ?_
      exact ⟨outer_rescope (step_addValue hK his (fun _ => hfix) hD), k2.trans (kept_addValue hK hD)⟩
  cases ht : M.scopes.lookupType rootScope name true with
  | none => exact hexport () (refl_of Outer _) (.refl _ _)
  | some sym =>
    refine .bind (rescope_along (Q := fun _ w' => Outer w w' ∧ Kept m w w') fun K D hK hD => ?_)
      fun _ w2 _ h => hexport () h.1 h.2
    cases mem_unique hM hK
    have houter := outer_rescope (step_addType hM (by decide) (htypes sym ht) hD)
    exact ⟨houter, houter, kept_exportType hw.1 hM hcur hD⟩

lemma exportNames_kept (hw : Declares m w) (decls) :
    Along Outer w (exportNames m decls) fun _ w' => Kept m w w' := by
  refine (Along.forM (I := fun w' => Declares m w' ∧ Kept m w w') _ (fun name _ w1 hw1 => ?_) w ⟨hw, .refl _ _⟩).mono
    fun _ _ _ h => h.2
  exact (Act.exportName_kept hw1.1 name).mono fun _ _ r h => ⟨hw1.1.mono r, hw1.2.trans h⟩

lemma declareStructs_items (hw : Declares m w) (src) :
    Along Outer w (declareStructs m src) fun decls _ => src.decls.items = decls.map some := by
  refine .bind (P := fun decls w' => src.decls.items = decls.map some ∧ Declares m w') ?_ fun decls w1 r1 h => ?_
  · generalize src.decls.items = l
    induction l generalizing w with
    | nil => exact .pure ⟨rfl, hw⟩
    | cons d l ih =>
      rw [mapM_cons]
      refine .bind (P := fun d' w1 => d = some d' ∧ Declares m w1) (.bind (Act.need_along d) ?_) ?_
      · rintro d w1 - ⟨rfl, rfl⟩
        exact .bind (declareStruct_along hw.1 hw.2 d) fun _ w2 r2 _ => .pure ⟨rfl, hw.mono r2⟩
      · rintro d' w1 - ⟨rfl, hw1⟩
        refine .bind (ih hw1) fun decls w2 _ h => .pure ⟨?_, h.2⟩
        rw [map_cons, h.1]
  · obtain ⟨hitems, hw1⟩ := h
    exact .bind (outwardly (Along.foldlM _ (fun done d _ w2 hw2 => layout_along _ [] done d hw2) []
      w1 ⟨hw1.1, hw1.2.live⟩)) fun _ _ _ _ => .pure hitems

/-! ### That functions are made -/

lemma Made.isFunc (h : Made w m name v g r ps va) : Act.IsFunc w v := ⟨g, r, ps, va, h.value⟩

lemma Act.declareFunc_along (hg : Good w) (hm : Live w m) (name) {ret : TypeId} (va) (hret : Nameable w (some ret))
    (hargs : ∀ T ∈ args, ∃ t, w.store.type? T.handle = some t ∧ t.Plain) :
    Along Outer w (declareFunc m name (some ret) args va) fun v w' => IsFunc w' v := by
  obtain ⟨r, hr, hrp⟩ := hret ret rfl
  obtain ⟨ps, hps, hpp⟩ := exists_types hargs
  exact (declareFunc_made hg hm name va hr hrp hps hpp).mono fun _ _ _ h => h.2.elim fun _ hmade => hmade.isFunc

lemma declareFuncs_along (hw : Declares m w) (decls) :
    Along Outer w (declareFuncs m decls) fun funcs w' => ∀ p ∈ funcs, Act.IsFunc w' p.2 := by
  obtain ⟨M, hM⟩ := hw.2.live
  refine (declareFuncs_roster decls hw (hw.1.named hM noHandle .void)).mono ?_
  rintro funcs w' - ⟨-, hroster⟩ p hp
  obtain ⟨g, r, ps, hs⟩ := hroster.signed p hp
  exact hs.made.isFunc

end Arbor.Build
