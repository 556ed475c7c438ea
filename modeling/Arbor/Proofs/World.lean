import Arbor.Build.Heap
import Arbor.Proofs.Instructions

/-! What building keeps: each module's views of types and values agree with the store, and the names
in scope stand for values. `Step` is what every action keeps, `Steady` what actions on values keep,
and `Silent` what actions keep that leave the code alone. -/

namespace Arbor.Build

open IR Diag Proofs Option

variable {σ : Type}
variable {h m : Handle} {w : World σ}
/-- The type of a value is known from the store, unless the value is a call or a phi. -/
def Settled (s : Store) (v : Operand) : Prop :=
  ∀ h i t, v = .inst h → s.code.insts h = some (i, t) → (∀ c args, i ≠ .call c args) ∧ i.isPhi = false

/-- A value as a module sees it: the operand and the type it counts as, if it is known. -/
def Is (w : World σ) (v : ValueId) (op : Operand) (t : Ty) : Prop :=
  ∃ M x, w.modules[v.module]? = some M ∧ M.values[v.handle]? = some x ∧
    (∀ T, x = some T → w.store.type? T.handle = some t) ∧ w.store.operand? v.handle = some op

namespace SymbolTable

variable {t : SymbolTable} {sym : Symbol}

lemma get?_eq (t : SymbolTable) (name) : t.get? name = t.order.find? fun sym => sym.name = name := t.agree name

@[simp] lemma order_empty : empty.order = #[] := rfl

@[simp] lemma get?_empty (name) : empty.get? name = none := get?_eq empty name

lemma mem_of_get? (h : t.get? name = some sym) : sym ∈ t.order := Array.mem_of_find?_eq_some ((t.get?_eq name).symm.trans h)

lemma add_fresh (t : SymbolTable) (sym) : (t.add sym).1 = (t.get? sym.name).isNone := by
  unfold add
  split <;> simp [get?, *]

lemma order_add (sym) (h : t.get? sym.name = none) : (t.add sym).2.order = t.order.push sym := by
  unfold add
  split
  · next hsome => cases h.symm.trans hsome
  · rfl

lemma get?_add_self (h : t.get? sym.name = none) : (t.add sym).2.get? sym.name = some sym := by
  rw [get?_eq] at h
  rw [get?_eq, order_add _ ((t.get?_eq _).trans h), Array.find?_push, h]
  simp

lemma get?_add_of_ne {name : Text} (h : sym.name ≠ name) : (t.add sym).2.get? name = t.get? name := by
  unfold add
  split
  · rfl
  · simp [get?, Std.HashMap.getElem?_insert, h]

end SymbolTable

namespace Module

/-- The views of a module agree with the store. -/
structure Sound (s : Store) (M : Module) : Prop where
  types : ∀ (h : Handle) (V : TypeView), M.types[h]? = some V → ∃ t, s.type? h = some t ∧
    V.kind = t.kind ∧ ∀ e, V.elem = some e → ∃ u, t = .ptr u ∧ s.type? e.handle = some u
  values : ∀ (h : Handle) (x : Option TypeId), M.values[h]? = some x → ∃ v, s.operand? h = some v ∧
    ∀ T, x = some T → ∃ t, s.type? T.handle = some t ∧ (Settled s v → s.code.valueTy v = t)

end Module

def IsFixed : Operand → Prop
  | .const _ | .func _ => True
  | .param .. | .inst _ | .block _ => False

/-- The scopes of a module: inner ones come after outer ones and are inside the root, names stand for
values, and what the module itself binds needs no code. Only the outer scopes name types. -/
structure Scopes.Sound (w : World σ) (S : Scopes) : Prop where
  size : exportScope < S.data.size
  parent : ∀ id sc, S.get? id = some sc → sc.parent < id
  root : ∀ id sc, S.get? id = some sc → sc.parent = 0 → id = rootScope
  values : ∀ id sc, S.get? id = some sc → ∀ sym ∈ sc.values.order, ∃ v op t, sym.value = some v ∧ Is w v op t ∧
    (id ≤ exportScope → IsFixed op)
  types : ∀ id sc, S.get? id = some sc → ∀ sym ∈ sc.types.order, id ≤ exportScope ∧
    ∀ T, sym.type = some T → ∃ t, w.store.type? T.handle = some t ∧ t.Plain

/-- A world that can be built in. -/
structure Good (w : World σ) : Prop where
  store : w.store.WF
  sound : ∀ (m : Handle) (M : Module), w.modules[m]? = some M → M.Sound w.store
  scopes : ∀ (m : Handle) (M : Module), w.modules[m]? = some M → M.scopes.Sound w
  current : ∀ (m : Handle) (M : Module), w.modules[m]? = some M → 0 < M.current ∧ M.current < M.scopes.data.size
  handles : ∀ (m : Handle) (M : Module), w.modules[m]? = some M → m < w.store.entries.size

/-- Later scopes: what was bound in one of them is bound there still, before what is new. -/
def Scopes.Le (S S' : Scopes) : Prop := ∀ id sc, S.get? id = some sc → ∃ sc', S'.get? id = some sc' ∧
  sc.types.order.toList <+: sc'.types.order.toList ∧ sc.values.order.toList <+: sc'.values.order.toList

lemma Scopes.Le.refl (S : Scopes) : S.Le S := fun _ sc hsc => ⟨sc, hsc, List.prefix_rfl, List.prefix_rfl⟩

lemma Scopes.Le.trans {S : Scopes} (h : S.Le S') (k : S'.Le S'') : S.Le S'' := fun id sc hsc => by
  obtain ⟨sc', hsc', ht, hv⟩ := h id sc hsc
  obtain ⟨sc'', hsc'', ht', hv'⟩ := k id sc' hsc'
  exact ⟨sc'', hsc'', ht.trans ht', hv.trans hv'⟩

/-- What every action keeps, also one that fails. -/
structure Step (w w' : World σ) : Prop where
  store : Store.Grows w.store w'.store
  values : ∀ (m : Handle) (M : Module), w.modules[m]? = some M → ∃ M', w'.modules[m]? = some M' ∧
    ∀ (h : Handle) (x : Option TypeId), M.values[h]? = some x → M'.values[h]? = some x
  names : ∀ (m : Handle) (M M' : Module), w.modules[m]? = some M → w'.modules[m]? = some M' → M.scopes.Le M'.scopes
  good : Good w → Good w'

/-- What actions keep that bind no names. -/
structure Steady (w w' : World σ) : Prop extends Step w w' where
  still : ∀ (m : Handle) (M : Module), w.modules[m]? = some M → ∃ M', w'.modules[m]? = some M' ∧
    M'.scopes = M.scopes ∧ M'.current = M.current ∧ M'.loop = M.loop

structure Silent (w w' : World σ) : Prop extends Steady w w' where
  code : w'.store.code = w.store.code

instance : IsPreorder (World σ) Step where
  refl w := by
    refine ⟨refl_of Store.Grows w.store, fun m M hM => ⟨M, hM, fun _ _ => id⟩, fun m M M' hM hM' => ?_, id⟩
    cases Option.mem_unique hM hM'
    exact .refl _
  trans _ _ _ h k := by
    refine ⟨trans_of Store.Grows h.store k.store, fun m M hM => ?_, fun m M M'' hM hM'' => ?_, k.good ∘ h.good⟩
    all_goals obtain ⟨M', hM', hv⟩ := h.values m M hM
    · obtain ⟨M'', hM'', hv'⟩ := k.values m M' hM'
      exact ⟨M'', hM'', fun x y hx => hv' x y (hv x y hx)⟩
    · exact (h.names m M M' hM hM').trans (k.names m M' M'' hM' hM'')

instance : IsPreorder (World σ) Steady where
  refl w := ⟨refl_of Step w, fun m M hM => ⟨M, hM, rfl, rfl, rfl⟩⟩
  trans _ _ _ h k := by
    refine ⟨trans_of Step h.toStep k.toStep, fun m M hM => ?_⟩
    obtain ⟨M', hM', hs, hc, hl⟩ := h.still m M hM
    obtain ⟨M'', hM'', hs', hc', hl'⟩ := k.still m M' hM'
    exact ⟨M'', hM'', hs'.trans hs, hc'.trans hc, hl'.trans hl⟩

instance : IsPreorder (World σ) Silent where
  refl w := ⟨refl_of Steady w, rfl⟩
  trans _ _ _ h k := ⟨trans_of Steady h.toSteady k.toSteady, k.code.trans h.code⟩

lemma Settled.mono (g : Store.Mono s s') (hv : s.operand? h = some v) (hs : Settled s' v) : Settled s v := by
  rintro x i t rfl hi
  simp only [Store.code, map_eq_some_iff] at hi
  obtain ⟨j', hj', he⟩ := hi
  obtain ⟨k, hk, hle⟩ := g.inst (Store.inst?_eq_some.1 hj')
  cases he
  have hk' := hs x k.inst k.ty rfl (Store.inst?_code (Store.inst?_eq_some.2 hk))
  rwa [hle.inst] at hk'

lemma valueTy_mono (hs : s.WF) (g : Store.Mono s s') (hv : s.operand? h = some v) :
    s'.code.valueTy v = s.code.valueTy v ∧ s'.code.tyOf v = s.code.tyOf v := by
  cases v with
  | const c => exact ⟨rfl, rfl⟩
  | param f i =>
    have hok := hs.entries h
    rw [Store.operand?_param hv] at hok
    obtain ⟨F, hF, -⟩ := hok
    obtain ⟨F', hF', hle⟩ := g.func hF
    have hparams := hle.params
    simp only [Code.valueTy, Code.tyOf, Store.func?_code (Store.func?_eq_some.2 hF'),
      Store.func?_code (Store.func?_eq_some.2 hF), bind_some, hparams, and_self]
  | func x =>
    obtain ⟨rfl, f, hf⟩ := Store.operand?_func hv
    obtain ⟨f', hf', hle⟩ := g.func (Store.func?_eq_some.1 hf)
    have hsig : f'.code.signature = f.code.signature := by
      have hparams := hle.params
      have hret : f'.code.ret = f.code.ret := hle.ret
      have hva : f'.code.variadic = f.code.variadic := hle.variadic
      simp only [FuncCode.signature, hparams, hret, hva]
    simp only [Code.valueTy, Code.tyOf, Store.func?_code (Store.func?_eq_some.2 hf'),
      Store.func?_code hf, elim_some, hsig, and_self]
  | inst x =>
    obtain ⟨rfl, i, hi⟩ := Store.operand?_inst hv
    obtain ⟨i', hi', hle⟩ := g.inst (Store.inst?_eq_some.1 hi)
    simp only [Code.valueTy, Code.tyOf, Store.inst?_code (Store.inst?_eq_some.2 hi'),
      Store.inst?_code hi, elim_some, hle.ty, and_self]
  | block x => exact ⟨rfl, rfl⟩

lemma Module.Sound.mono {M : Module} (hs : s.WF) (g : Store.Mono s s') (h : M.Sound s) : M.Sound s' where
  types x V hV := by
    obtain ⟨t, ht, hk, he⟩ := h.types x V hV
    refine ⟨t, g.type? ht, hk, fun e hVe => ?_⟩
    obtain ⟨u, hu, hue⟩ := he e hVe
    exact ⟨u, hu, g.type? hue⟩
  values x y hy := by
    obtain ⟨v, hv, hT⟩ := h.values x y hy
    refine ⟨v, g.operand? hv, fun T hyT => ?_⟩
    obtain ⟨t, ht, hset⟩ := hT T hyT
    refine ⟨t, g.type? ht, fun hs' => ?_⟩
    rw [(valueTy_mono hs g hv).1]
    exact hset (hs'.mono g hv)

namespace Is

variable {w w' : World σ}

lemma mono (r : Step w w') (hv : Is w v op t) : Is w' v op t := by
  obtain ⟨M, x, hM, hx, ht, hop⟩ := hv
  obtain ⟨M', hM', hvals⟩ := r.values _ M hM
  exact ⟨M', x, hM', hvals _ _ hx, fun T hT => r.store.type? (ht T hT), r.store.operand? hop⟩

lemma operand (hv : Is w v op t) : w.store.operand? v.handle = some op := hv.choose_spec.choose_spec.2.2.2

lemma of_settled (hg : Good w) (hM : w.modules[m]? = some M)
    (hx : M.values[h]? = some x) (hop : w.store.operand? h = some op) (hs : Settled w.store op) :
    Is w ⟨m, h⟩ op (w.store.code.valueTy op) := by
  obtain ⟨u, hu, hty⟩ := (hg.sound _ M hM).values _ _ hx
  cases mem_unique hop hu
  refine ⟨M, x, hM, hx, fun T hT => ?_, hop⟩
  obtain ⟨t', ht', hset⟩ := hty T hT
  exact (hset hs) ▸ ht'

lemma valueTy (hg : Good w) (hv : Is w v op t) (hs : Settled w.store op) : Is w v op (w.store.code.valueTy op) := by
  obtain ⟨M, x, hM, hx, -, hop⟩ := hv
  exact of_settled hg hM hx hop hs

end Is

lemma Scopes.Sound.mono {S : Scopes} (r : Store.Mono w.store w'.store)
    (hv : ∀ v op t, Is w v op t → Is w' v op t) (h : S.Sound w) : S.Sound w' where
  size := h.size
  parent := h.parent
  root := h.root
  values id sc hsc sym hsym := by
    obtain ⟨v, op, t, hval, his, hfix⟩ := h.values id sc hsc sym hsym
    exact ⟨v, op, t, hval, hv v op t his, hfix⟩
  types id sc hsc sym hsym := by
    obtain ⟨hid, ht⟩ := h.types id sc hsc sym hsym
    refine ⟨hid, fun T hT => ?_⟩
    obtain ⟨t, ht', hp⟩ := ht T hT
    exact ⟨t, r.type? ht', hp⟩

lemma Good.of_store (hg : Good w) (g : Store.Grows w.store s) : Good { w with store := s } where
  store := g.wf hg.store
  sound _ M hM := (hg.sound _ M hM).mono hg.store g.toMono
  scopes m M hM := by
    refine Scopes.Sound.mono g.toMono (fun v op t hv => ?_) (hg.scopes m M hM)
    obtain ⟨M', x, hM', hx, ht, hop⟩ := hv
    exact ⟨M', x, hM', hx, fun T hT => g.type? (ht T hT), g.operand? hop⟩
  current := hg.current
  handles m M hM := Nat.lt_of_lt_of_le (hg.handles m M hM) g.size_le

lemma steady_of_store (g : Store.Grows w.store s) : Steady w { w with store := s } where
  store := g
  values _ M hM := ⟨M, hM, fun _ _ => id⟩
  names _ M M' hM hM' := by
    cases mem_unique hM hM'
    exact .refl _
  good hg := hg.of_store g
  still _ M hM := ⟨M, hM, rfl, rfl, rfl⟩

lemma silent_of_eq (hs : w'.store = w.store) (hm : w'.modules = w.modules) : Silent w w' where
  store := hs ▸ refl_of Store.Grows w.store
  values m M hM := ⟨M, hm ▸ hM, fun _ _ => id⟩
  names m M M' hM hM' := by
    cases some.inj (hM.symm.trans (hm ▸ hM'))
    exact .refl _
  good hg := by
    refine ⟨hs ▸ hg.store, fun m M hM => ?_, fun m M hM => ?_, fun m M hM => ?_, fun m M hM => ?_⟩
    · rw [hs]
      exact hg.sound m M (hm ▸ hM)
    · refine (hg.scopes m M (hm ▸ hM)).mono (hs ▸ .refl _) fun v op t hv => ?_
      obtain ⟨M', x, hM', hx, ht, hop⟩ := hv
      exact ⟨M', x, hm ▸ hM', hx, fun T hT => hs ▸ ht T hT, hs ▸ hop⟩
    · exact hg.current m M (hm ▸ hM)
    · rw [hs]
      exact hg.handles m M (hm ▸ hM)
  still m M hM := ⟨M, hm ▸ hM, rfl, rfl, rfl⟩
  code := by rw [hs]

lemma modify_at {modules : Std.HashMap Handle Module} (k) :
    (modules.modify m f)[k]? = modules[k]?.map (if m = k then f else id) := by
  rw [Std.HashMap.getElem?_modify]
  by_cases h : m = k <;> simp [h]

lemma step_update (hnames : ∀ M, w.modules[m]? = some M → M.scopes.Le (f M).scopes)
    (hvalues : ∀ (M), w.modules[m]? = some M →
      ∀ (h : Handle) (x), M.values[h]? = some x → (f M).values[h]? = some x)
    (hsound : ∀ M, Good w → w.modules[m]? = some M → (f M).Sound w.store)
    (hcurrent : ∀ M, Good w → w.modules[m]? = some M → 0 < (f M).current ∧ (f M).current < (f M).scopes.data.size)
    (hscopes : ∀ M (w' : World σ), Good w → w'.store = w.store → (∀ v op t, Is w v op t → Is w' v op t) →
      w.modules[m]? = some M → (f M).scopes.Sound w') : Step w { w with modules := w.modules.modify m f } := by
  have hget : ∀ k K, (w.modules.modify m f)[k]? = some K →
      ∃ K0, w.modules[k]? = some K0 ∧ ((k = m ∧ K = f K0) ∨ (k ≠ m ∧ K = K0)) := by
    intro k K hK
    rw [modify_at, map_eq_some_iff] at hK
    obtain ⟨K0, hK0, rfl⟩ := hK
    refine ⟨K0, hK0, ?_⟩
    split
    · next h => exact .inl ⟨h.symm, rfl⟩
    · next h => exact .inr ⟨Ne.symm h, rfl⟩
  have hmod : ∀ (k : Handle) K, w.modules[k]? = some K → ∃ K', (w.modules.modify m f)[k]? = some K' ∧
        ∀ (h : Handle) x, K.values[h]? = some x → K'.values[h]? = some x := by
    intro k K hK
    rw [modify_at, hK]
    refine ⟨_, rfl, ?_⟩
    split
    · next h => exact hvalues K (h ▸ hK)
    · exact fun _ _ => id
  have his : ∀ v op t, Is w v op t → Is { w with modules := w.modules.modify m f } v op t := by
    rintro v op t ⟨K, x, hK, hx, ht, hop⟩
    obtain ⟨K', hK', hv⟩ := hmod _ K hK
    exact ⟨K', x, hK', hv _ _ hx, ht, hop⟩
  have hle : ∀ (k : Handle) (K K' : Module), w.modules[k]? = some K → (w.modules.modify m f)[k]? = some K' →
      K.scopes.Le K'.scopes := by
    intro k K K' hK hK'
    obtain ⟨K0, hK0, hcases⟩ := hget k K' hK'
    cases mem_unique hK hK0
    rcases hcases with ⟨rfl, rfl⟩ | ⟨-, rfl⟩
    · exact hnames K hK
    · exact .refl _
  refine ⟨refl_of Store.Grows w.store, hmod, hle, fun hg => ⟨hg.store, fun k K hK => ?_, fun k K hK => ?_,
    fun k K hK => ?_, fun k K hK => ?_⟩⟩
  all_goals obtain ⟨K0, hK0, ⟨rfl, rfl⟩ | ⟨-, rfl⟩⟩ := hget k K hK
  · exact hsound K0 hg hK0
  · exact hg.sound k K hK0
  · exact hscopes K0 _ hg rfl his hK0
  · exact Scopes.Sound.mono (w := w) (.refl _) his (hg.scopes k K hK0)
  · exact hcurrent K0 hg hK0
  · exact hg.current k K hK0
  · exact hg.handles k K0 hK0
  · exact hg.handles k K hK0

lemma silent_update (hvalues : ∀ (M), w.modules[m]? = some M →
      ∀ (h : Handle) (x), M.values[h]? = some x → (f M).values[h]? = some x)
    (hsound : ∀ M, Good w → w.modules[m]? = some M → (f M).Sound w.store)
    (hstill : ∀ M, (f M).scopes = M.scopes ∧ (f M).current = M.current ∧ (f M).loop = M.loop) :
    Silent w { w with modules := w.modules.modify m f } := by
  refine ⟨⟨step_update (fun M _ => (hstill M).1 ▸ .refl _) hvalues hsound (fun M hg hM => ?_) (fun M w' hg hs his hM => ?_),
    fun k K hK => ?_⟩,
    rfl⟩
  · rw [(hstill M).1, (hstill M).2.1]
    exact hg.current m M hM
  · rw [(hstill M).1]
    exact (hg.scopes m M hM).mono (hs ▸ .refl _) his
  · rw [modify_at, hK]
    refine ⟨_, rfl, ?_⟩
    split
    · exact hstill K
    · exact ⟨rfl, rfl, rfl⟩

lemma silently (h : Along Silent w a Q) :
    Along Steady w a fun x w' => Silent w w' ∧ Q x w' := h.keep fun _ r => r.toSteady

lemma steadily (h : Along Steady w a Q) : Along Step w a fun x w' => Steady w w' ∧ Q x w' := h.keep fun _ r => r.toStep

namespace Act

variable {w : World σ} {α β : Type} {R : World σ → World σ → Prop}

lemma attempt_obeys (h : Obeys w a Q E) : Obeys w (attempt a)
    (fun r w' => (∃ x, r = .ok x ∧ Q x w') ∨ ∃ f, r = .error f ∧ E (.fault f) w')
    fun e w' => E e w' ∧ ∀ f, e ≠ .fault f := by
  refine .tryCatch (.bind h fun x _ hq => .inl ⟨x, rfl, hq⟩) fun e _ he => ?_
  cases e with
  | fault f => exact .inr ⟨f, rfl, he⟩
  | missing => exact ⟨he, nofun⟩
  | endless => exact ⟨he, nofun⟩

lemma attempt_along (h : Along R w a Q) : Along R w (attempt a) fun r w' => ∀ x, r = .ok x → Q x w' := by
  refine (attempt_obeys h).imp ?_ fun _ _ h => h.1
  rintro r w' - (⟨x, rfl, hr, hq⟩ | ⟨f, rfl, hr⟩)
  · exact ⟨hr, fun _ hy => Except.ok.inj hy ▸ hq⟩
  · exact ⟨hr, nofun⟩

lemma ensuring_obeys (h : Obeys w a P F) (hbad : ∀ e w', F e w' → Obeys w' (attempt after) (fun _ => E e) E)
    (hok : ∀ x w', P x w' → Obeys w' after (fun _ => Q x) E) : Obeys w (ensuring a after) Q E :=
  .bind (.tryCatch h fun e w' he => .bind (hbad e w' he) fun _ _ => id) fun x w' hp => .bind (hok x w' hp) fun _ _ => id

lemma ensuring_along [IsPreorder (World σ) R] (h : Along R w a P) (hafter : ∀ w', R w w' → Along R w' after)
    (hok : ∀ x w', R w w' → P x w' → Along R w' after fun _ w'' => Q x w'') : Along R w (ensuring a after) Q := by
  refine ensuring_obeys h (fun _ w' hr => ?_) fun x w' hp => ?_
  · exact Obeys.imp (attempt_along (hafter w' hr)) (fun _ _ _ h => trans_of R hr h.1) fun _ _ => trans_of R hr
  · exact Obeys.imp (hok x w' hp.1 hp.2) (fun _ _ _ h => ⟨trans_of R hp.1 h.1, h.2⟩) fun _ _ => trans_of R hp.1

lemma need_along [IsPreorder (World σ) R] (x : Option α) : Along R w (need x) fun y w' => w' = w ∧ x = some y := by
  cases x with
  | none => exact .throw
  | some x => exact .pure ⟨rfl, rfl⟩

lemma module_along [IsPreorder (World σ) R] (m) :
    Along R w (module m) fun M w' => w' = w ∧ w.modules[m]? = some M := need_along _

lemma module_known {M : Module} {E : Failure → World σ → Prop} (hM : w.modules[m]? = some M) :
    Obeys w (module m) (fun M' w' => w' = w ∧ M' = M) E := by
  unfold Obeys module
  rw [get_bind_apply, hM]
  exact ⟨rfl, rfl⟩

lemma report_along (m f) : Along Silent w (report m f) := by
  refine .look (module_along m) fun M _ => ?_
  exact ⟨silent_of_eq rfl rfl, trivial⟩

class Lenient (R : World σ → World σ → Prop) : Prop extends IsPreorder (World σ) R where
  of_silent : ∀ {w w'}, Silent w w' → R w w'

instance : Lenient (Silent (σ := σ)) := ⟨id⟩

instance : Lenient (Steady (σ := σ)) := ⟨fun r => r.toSteady⟩

instance : Lenient (Step (σ := σ)) := ⟨fun r => r.toStep⟩

lemma fail_along [Lenient R] : Along R w (fail m code message) Q :=
  .bind ((report_along m _).weaken fun _ => Lenient.of_silent) fun _ _ _ _ => .throw

lemma fail_bind [Lenient R] {f : α → Act σ β} : Along R w (fail m code message >>= f) Q :=
  .bind (P := fun _ _ => False) fail_along fun _ _ _ h => h.elim

lemma fail_ite [Lenient R] [Decidable c] {f : α → Act σ β} (h : ¬c → Along R w b Q) :
    Along R w (if c then fail m code message >>= f else b) Q := .ite (fun _ => fail_bind) h

lemma emit_of (hr : ∀ s, r w.store s → R w { w with store := s }) (h : Along r w.store e Q) :
    Along R w (emit e) fun x w' => w'.modules = w.modules ∧ ∀ y, x = .ok y → Q y w'.store := by
  unfold Along at h
  refine .modifyGet ?_ ?_
  all_goals
    simp only
    cases hx : e w.store with
    | ok x s =>
      rw [hx] at h
      first
        | exact hr s h.1
        | exact ⟨rfl, fun y hy => by cases hy; exact h.2⟩
    | error x s =>
      rw [hx] at h
      first
        | exact hr s h
        | exact ⟨rfl, nofun⟩

lemma emit_silent (h : Along Store.Quiet w.store e Q) :
    Along Silent w (emit e) fun x w' => w'.modules = w.modules ∧ ∀ y, x = .ok y → Q y w'.store :=
  emit_of (fun _ q => ⟨steady_of_store q.toGrows, q.code⟩) h

lemma emitQuiet_along (h : Along Store.Quiet w.store e Q) :
    Along Silent w (emitQuiet e) fun x w' => w'.modules = w.modules ∧ (Q x w'.store ∨ x = noHandle) := by
  refine .bind (emit_silent h) fun r w' _ hr => ?_
  cases r with
  | ok x => exact .pure ⟨hr.1, .inl (hr.2 x rfl)⟩
  | error r => exact .pure ⟨hr.1, .inr rfl⟩

lemma backend_along (h : Along Store.Grows w.store e Q) :
    Along Steady w (backend m message e) fun x w' => w'.modules = w.modules ∧ Q x w'.store := by
  refine .bind (emit_of (fun _ => steady_of_store) h) fun r w' _ hr => ?_
  cases r with
  | ok x => exact .pure ⟨hr.1, hr.2 x rfl⟩
  | error r => exact .bind ((report_along m _).weaken fun _ q => q.toSteady) fun _ _ _ _ => .throw

lemma backend_silent (h : Along Store.Quiet w.store e Q) :
    Along Silent w (backend m message e) fun x w' => w'.modules = w.modules ∧ Q x w'.store := by
  refine .bind (emit_silent h) fun r w' _ hr => ?_
  cases r with
  | ok x => exact .pure ⟨hr.1, hr.2 x rfl⟩
  | error r => exact .bind (report_along m _) fun _ _ _ _ => .throw

end Act

end Arbor.Build
