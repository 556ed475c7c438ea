import Arbor.Proofs.Embedding
import Arbor.Proofs.Registry

/-! However structs of a module are made, given members and made to extend each other, a struct's names are distinct
and found at their places, its body lists what its members are, and none holds itself by value, so that all have a
size. -/

namespace Arbor.Build

open IR Diag Proofs Relation Std Option List Store Emit World

variable {σ : Type} {w w' : World σ} {m : Handle}
variable {h : Handle} {mem : Member} {s : Store} {i : StructInfo} {t : Ty} {T : TypeId} {V : TypeView}

def Undropped (m : Handle) (s : Store) : Prop := ∃ M, s.module? m = some M ∧ M.dropped = false

lemma struct_cases (s m name) : ((∃ e, struct m name s = .error e s) ∧ ¬Undropped m s) ∨
    ∃ M N i, s.module? m = some M ∧ i.module = m ∧
      struct m name s = .ok s.entries.size ((s.push (.struct i)).2.setModule m N) ∧ N.dropped = false := by
  unfold struct
  rcases cases_of_along (moduleOf_along m) with ⟨e, he⟩ | ⟨M, ⟨-, hM, hopen⟩, hgo⟩
  · refine .inl ⟨⟨e, bind_of_error he⟩, fun ⟨M, hM, hopen⟩ => ?_⟩
    rw [moduleOf, get_bind_apply, hM] at he
    simp only [hopen] at he
    cases he
  · rw [bind_of_ok hgo]
    exact .inr ⟨M, _, _, hM, rfl, rfl, hopen⟩

lemma struct_fresh (hm : s.module? m = some M) : let s1 := ((s.push (.struct i)).2.setModule m N)
    s1.struct? s.entries.size = some i ∧ ∀ k, k ≠ s.entries.size → s1.struct? k = s.struct? k := by
  have hentry := module?_eq_some.1 hm
  have hne : s.entries.size ≠ m := by
    rintro rfl
    cases (entry_of_size_le (Nat.le_refl _)).symm.trans hentry
  have hget := entry_push_setModule hm (.struct i) N
  constructor
  · rw [struct?_eq_some, hget, if_neg hne, if_pos rfl]
  · intro k hk
    rw [struct?, hget, struct?]
    by_cases hkm : k = m
    · rw [if_pos hkm, hkm, hentry]
    · rw [if_neg hkm, if_neg hk]

namespace Act

lemma report_outcomes (f) : Obeys w (report m f)
    (fun _ w' => w'.store = w.store ∧ w'.modules = w.modules)
    fun _ w' => w'.store = w.store ∧ w'.modules = w.modules := by
  unfold Obeys report module need
  simp only [bind, EStateM.bind, get_apply]
  cases w.modules[m]? with
  | none => exact ⟨rfl, rfl⟩
  | some M => exact ⟨rfl, rfl⟩

lemma backend_outcomes {α : Type} (message) (e : Emit α) : Obeys w (backend m message e)
    (fun x w' => ∃ s, e w.store = .ok x s ∧ w'.store = s ∧ w'.modules = w.modules)
    fun _ w' => ∃ r s, e w.store = .error r s ∧ w'.store = s ∧ w'.modules = w.modules := by
  unfold backend
  cases he : e w.store with
  | ok x s =>
    rw [Obeys, bind_of_ok (emit_of_ok he)]
    exact ⟨s, rfl, rfl, rfl⟩
  | error r s =>
    rw [Obeys, bind_of_ok (emit_of_error he)]
    change Obeys { w with store := s } _ _ _
    refine .bind ((report_outcomes _).weaken fun _ w' h => ⟨r, s, rfl, h⟩) fun _ w' h => ?_
    exact .throw ⟨r, s, rfl, h⟩

lemma typeAt_fresh (hM : w.modules[m]? = some M) (h0 : h ≠ noHandle) (hnew : M.types[h]? = none) :
    Obeys w (typeAt m h)
      (fun r w' => r = some ⟨m, h⟩ ∧ w'.store = w.store ∧ ∃ V : TypeView, V.members = #[] ∧ V.places = {} ∧
        ∀ U, w'.view? U = if U = ⟨m, h⟩ then some V else w.view? U) fun _ _ => False := by
  unfold typeAt
  rw [if_neg h0]
  have hmodule : module m w = .ok M w := by
    simp only [module, bind, EStateM.bind, get_apply, hM]
    rfl
  have hcontains : M.types.contains h = false := by
    rw [HashMap.contains_eq_isSome_getElem?, hnew]
    rfl
  rw [Obeys, bind_of_ok hmodule]
  simp only [hcontains]
  exact ⟨rfl, rfl, { name := w.store.typeName h, kind := w.store.typeKind h }, rfl, rfl, view?_insert (T := ⟨m, h⟩) hM _⟩

lemma updateType_outcomes (hV : w.view? T = some V) (f : TypeView → TypeView) : Obeys w (updateType T f)
      (fun _ w' => w'.store = w.store ∧ ∀ U, w'.view? U = if U = T then some (f V) else w.view? U) E :=
  ⟨rfl, view?_modify hV⟩

lemma newStruct_outcomes (hg : Good w) (hm : Live w m) (name) : Obeys w (newStruct m name)
    (fun _ w' => ∃ h V, w.store.type? h = none ∧ w'.view? ⟨m, h⟩ = some V ∧ V.members = #[] ∧ V.places = {} ∧
      (∀ U, U ≠ ⟨m, h⟩ → w'.view? U = w.view? U) ∧ Owns m w'.store h ∧ w'.store.body? h = some [] ∧
      (∀ k, k ≠ h → w'.store.struct? k = w.store.struct? k) ∧ Undropped m w'.store)
    fun _ w' => Unchanged w w' ∧ ¬Undropped m w.store := by
  obtain ⟨M, hM⟩ := hm
  have hnone : w.store.type? w.store.entries.size = none := by
    rw [type?, entry_of_size_le (Nat.le_refl _)]
  have hunseen : M.types[w.store.entries.size]? = none := by
    cases hV : M.types[w.store.entries.size]? with
    | none => rfl
    | some V =>
      obtain ⟨t, ht, -⟩ := (hg.sound m M hM).types _ V hV
      cases hnone.symm.trans ht
  refine .bind ((backend_outcomes _ _).weaken ?_) ?_
  · rintro e w1 ⟨r, s, he, hs, hmods⟩
    rcases struct_cases w.store m name with ⟨⟨e', he'⟩, hgone⟩ | ⟨_, _, _, -, -, hok, -⟩
    · cases he.symm.trans he'
      refine ⟨⟨hs, fun T V hV => ⟨V, ?_, rfl, rfl, fun _ => rfl⟩⟩, hgone⟩
      rw [view?, hmods]
      exact hV
    · cases he.symm.trans hok
  rintro h w1 ⟨s1, hs1, hstore1, hmods1⟩
  rcases struct_cases w.store m name with ⟨⟨e', he'⟩, -⟩ | ⟨M', N, i, hM', hmod, hok, hopen⟩
  · cases hs1.symm.trans he'
  cases hs1.symm.trans hok
  obtain ⟨hnew, hold⟩ := struct_fresh hM'
  rw [← hstore1] at hnew hold
  -- The new struct gets its empty body, then its view.
  refine .bind ((backend_outcomes _ _).weaken ?_) ?_
  · rintro e w2 ⟨r, s, he, -, -⟩
    cases he.symm.trans (setStructBody_of hnew .nil)
  rintro _ w2 ⟨s2, hs2, hstore2, hmods2⟩
  cases hs2.symm.trans (setStructBody_of hnew .nil)
  have hmods : w2.modules = w.modules := hmods2.trans hmods1
  refine .bind ((typeAt_fresh (hmods ▸ hM) hg.store.size_pos.ne' hunseen).weaken fun _ _ h => h.elim) ?_
  rintro r w3 ⟨rfl, hstore3, V, hmembers, hplaces, hview3⟩
  refine .bind (P := fun T w' => w' = w3 ∧ T = ⟨m, w.store.entries.size⟩) ⟨rfl, rfl⟩ ?_
  rintro T w4 ⟨rfl, rfl⟩
  refine .bind (updateType_outcomes ((hview3 _).trans (if_pos rfl)) fun v => { v with name }) ?_
  rintro _ w5 ⟨hstore5, hview5⟩
  have hstore : w5.store = w1.store.withFields w.store.entries.size i [] := hstore5.trans (hstore3.trans hstore2)
  refine .pure ⟨_, _, hnone, (hview5 _).trans (if_pos rfl), hmembers, hplaces, fun U hU => ?_, ?_, ?_, fun k hk => ?_, N, ?_, hopen⟩
  · rw [hview5, if_neg hU, hview3, if_neg hU, view?, hmods, view?]
  · rw [hstore]
    exact (owns_withFields hnew [] _).2 ⟨i, hnew, hmod⟩
  · rw [hstore, body?_withFields hnew, if_pos rfl]
  · rw [hstore, ← hold k hk, withFields, setStruct, struct?, entry_setIfInBounds, if_neg (fun h => hk h.1), struct?]
  · rw [module?_eq_some, hstore, withFields, setStruct, entry_setIfInBounds, if_neg fun h => ?_, hstore1,
      entry_push_setModule hM', if_pos rfl]
    cases (entry_of_size_le h.1.ge).symm.trans (module?_eq_some.1 hM')

lemma newStruct_upholds (hc : Consistent m w) (name) : Along (Upholds m) w (newStruct m name) := by
  apply Obeys.along
  have hboth := (newStruct_outcomes hc.good hc.live name).and (.of_along (newStruct_along hc.good m name))
  refine (hboth.mono ?_).weaken ?_
  · rintro T w1 ⟨⟨h, V, hnone, hV, hmembers, hplaces, hviews, -, hbody, hstructs, -⟩, hsilent, -⟩
    have hstep := hsilent.toStep
    refine ⟨⟨hstep, fun _ => ⟨hstep.good hc.good, hc.live.mono hstep, fun k ho => ?_, fun k hk => ?_⟩⟩, trivial⟩
    · by_cases hk : k = h
      · -- The new struct has no members, no places and an empty body.
        subst hk
        refine ⟨V, hV, ?_, fun name j => ?_, ⟨[], hbody, ?_⟩, ?_⟩
        all_goals simp [hmembers, hplaces]
      · obtain ⟨i, hi, hmod⟩ := ho
        have ho : Owns m w.store k := ⟨i, hstructs k hk ▸ hi, hmod⟩
        obtain ⟨U, hU, hu⟩ := hc.views k ho
        have hbodyk : w1.store.body? k = w.store.body? k := by rw [body?, hstructs k hk, body?]
        refine ⟨U, ?_, hu.mono ⟨rfl, rfl, fun _ => rfl⟩ hbodyk (fun _ _ ht => hstep.store.type? ht) fun _ => hstep.owns⟩
        rw [hviews _ (by simpa using hk), hU]
    · -- An empty body holds nothing, so every step of a cycle was there before.
      refine hc.acyclic k (TransGen.mono ?_ _ _ hk)
      rintro x y ⟨⟨i, hi, hmod⟩, fields, hb, hmem⟩
      by_cases hx : x = h
      · cases (hx ▸ hb).symm.trans hbody
        cases hmem
      · rw [hstructs x hx] at hi
        rw [body?, hstructs x hx] at hb
        exact ⟨⟨i, hi, hmod⟩, fields, hb, hmem⟩
  · rintro e w1 ⟨⟨hsame, -⟩, hsilent⟩
    exact (hsame.aloof.spares hsilent.toStep).upholds

end Act

/-! ### Making types -/

instance : IsPreorder (World σ) Aloof where
  refl w := ⟨fun _ => rfl, (Unchanged.refl w).views⟩
  trans _ _ _ h k := by
    refine ⟨fun T => (k.structs T).trans (h.structs T), fun T V hV => ?_⟩
    obtain ⟨V1, hV1, hsame⟩ := h.views T V hV
    obtain ⟨V2, hV2, hsame'⟩ := k.views T V1 hV1
    exact ⟨V2, hV2, hsame'.kind.trans hsame.kind, hsame'.members.trans hsame.members,
      fun name => (hsame'.places name).trans (hsame.places name)⟩

lemma aloof_of_modules (hstore : w.store.SameCode w'.store) (hmodules : w'.modules = w.modules) : Aloof w w' := by
  refine ⟨hstore.structs, fun T V hV => ⟨V, ?_, rfl, rfl, fun _ => rfl⟩⟩
  rw [view?, hmodules]
  exact hV

namespace Act

lemma emit_aloof {α : Type} {e : Emit α} [he : Has Emit.Looks e] : Along Aloof w (emit e) :=
  (emit_of (fun _ h => aloof_of_modules h rfl) (he.out w.store)).mono fun _ _ _ _ => trivial

lemma backend_aloof {α : Type} {message : Text} {e : Emit α} [Has Emit.Looks e] :
    Along Aloof w (backend m message e) := by
  refine .bind emit_aloof fun r w1 _ _ => ?_
  cases r with
  | ok x => exact .pure trivial
  | error r =>
    have hsame : ∀ w', w'.store = w1.store ∧ w'.modules = w1.modules → Aloof w1 w' := fun _ h =>
      aloof_of_modules (h.1 ▸ .refl _) h.2
    refine .bind (Obeys.along (Q := fun _ _ => True) ?_) fun _ _ _ _ => .throw
    exact ((report_outcomes _).mono fun _ w' h => ⟨hsame w' h, trivial⟩).weaken fun _ w' h => hsame w' h

lemma typeAt_aloof (h) : Along Aloof w (typeAt m h) := by
  refine .ite (fun _ => .pure trivial) fun _ => .bind (module_along m) ?_
  rintro M w' - ⟨rfl, hM⟩
  refine .ite (fun hnew => ?_) fun _ => .pure trivial
  refine .bind store_along ?_
  rintro s w1 - ⟨rfl, rfl⟩
  refine .bind (P := fun _ _ => True) (update_along ⟨fun _ => rfl, fun T V hV => ⟨V, ?_, rfl, rfl, fun _ => rfl⟩⟩ trivial)
    fun _ _ _ _ => .pure trivial
  refine (view?_insert (T := ⟨m, h⟩) hM _ T).trans ?_
  rw [if_neg, hV]
  rintro rfl
  obtain ⟨M', hM', hV⟩ := view?_eq_some.1 hV
  cases mem_unique hM hM'
  rw [HashMap.contains_eq_isSome_getElem?, hV] at hnew
  cases hnew

lemma prim_aloof (p) : Along Aloof w (prim m p) := by
  refine .bind (P := fun _ _ => True) (.bind emit_aloof fun r _ _ _ => ?_) fun h _ _ _ => ?_
  · cases r <;> exact .pure trivial
  · exact .bind (typeAt_aloof h) fun _ _ _ _ => (need_along _).mono fun _ _ _ _ => trivial

lemma funcType_aloof (ret args variadic) : Along Aloof w (funcType m ret args variadic) := by
  have hrest : ∀ (r : TypeId) (w1 : World σ), Along Aloof w1 (do
      let h ← backend m "function type" (func r.handle (args.map TypeId.handle) variadic)
      need (← typeAt m h)) := fun r w1 =>
    .bind backend_aloof fun h _ _ _ => .bind (typeAt_aloof h) fun _ _ _ _ =>
      (need_along _).mono fun _ _ _ _ => trivial
  cases ret with
  | some r => exact hrest r w
  | none => exact .bind (prim_aloof .void) fun r w1 _ _ => hrest r w1

lemma pointerTo_aloof (T) : Along Aloof w (pointerTo T) := by
  refine .bind (typeName_same T) fun _ _ _ _ => .bind backend_aloof fun h w1 _ _ => ?_
  refine .bind (typeAt_aloof h) fun r w2 _ _ => .bind (need_along r) ?_
  rintro P w3 - ⟨rfl, -⟩
  refine .bind (view_reads P) ?_
  rintro V w4 - ⟨rfl, hV⟩
  refine .ite (fun _ => ?_) fun _ => .pure trivial
  -- The pointer is made where its target is, so that nothing is copied.
  refine .bind (P := fun _ w' => w' = w4) ?_ ?_
  · refine .bind (P := fun _ w' => w' = w4) (.bind store_along fun _ _ _ h => .pure h.1) ?_
    rintro n w5 - rfl
    cases n with
    | zero => exact .throw
    | succ n =>
      unfold adoptType
      rw [if_pos rfl]
      exact .pure rfl
  · rintro e w5 - rfl
    refine .bind (P := fun _ _ => True) (update_along ⟨fun _ => rfl, fun U W hW => ?_⟩ trivial) fun _ _ _ _ => .pure trivial
    have hview := view?_modify (f := fun v => { v with elem := some e }) hV U
    by_cases hU : U = P
    · cases Option.some.inj (hV.symm.trans (hU ▸ hW))
      exact ⟨_, hview.trans (if_pos hU), rfl, rfl, fun _ => rfl⟩
    · exact ⟨W, (hview.trans (if_neg hU)).trans hW, rfl, rfl, fun _ => rfl⟩

lemma spares_of_aloof {α : Type} {a : Act σ α} {P Q : α → World σ → Prop} (h : Along Aloof w a P)
    (hsilent : Along Silent w a Q) : Along (Spares m) w a :=
  ((((Obeys.of_along h).and (.of_along hsilent)).mono fun _ _ h => ⟨h.1.1.spares h.2.1.toStep, trivial⟩).weaken
    fun _ _ h => h.1.spares h.2.toStep).along

end Act

lemma MemberType.part (hviews : ∀ h, Owns m s h → ∃ V, Mirrors m s h V) (ht : MemberType m s t)
    (hp : s.Part t u) : MemberType m s u ∧ ∃ h, t = .struct h ∧ ∀ k, u = .struct k → Embeds m s h k := by
  cases hp with
  | elem n => exact ht.elim
  | @field h fields _ hb hmem =>
    obtain ⟨V, hv⟩ := hviews h ht
    obtain ⟨fields', hb', hall⟩ := hv.body
    cases mem_unique hb hb'
    obtain ⟨mem, hin, v, hv', rfl⟩ := Placement.exists_of_forall₂_of_mem hall hmem
    obtain ⟨-, v', hv'', hmember⟩ := hv.types mem hin
    cases mem_unique hv' hv''
    exact ⟨hmember.held, h, rfl, fun k hk => ⟨ht, fields, hb, hk ▸ hmem⟩⟩

lemma Consistent.reach (hc : Consistent m w) (ho : Owns m w.store h) (hr : TransGen w.store.Part (.struct h) u) :
    MemberType m w.store u ∧ ∀ k, u = .struct k → TransGen (Embeds m w.store) h k := by
  have hviews : ∀ h, Owns m w.store h → ∃ V, Mirrors m w.store h V := fun h ho => (hc.views h ho).imp fun _ => And.right
  induction hr with
  | single hp =>
    obtain ⟨hmember, h', heq, hin⟩ := MemberType.part (t := .struct h) hviews ho hp
    cases heq
    exact ⟨hmember, fun k hk => .single (hin k hk)⟩
  | tail _ hp ih =>
    obtain ⟨hmember, h', heq, hin⟩ := MemberType.part hviews ih.1 hp
    exact ⟨hmember, fun k hk => (ih.2 h' heq).tail (hin k hk)⟩

lemma Consistent.finite (hc : Consistent m w) (ho : Owns m w.store h) : w.store.Finite (.struct h) := by
  have hreach : ∀ u, ReflTransGen w.store.Part (.struct h) u → MemberType m w.store u := by
    intro u hr
    rcases Relation.reflTransGen_iff_eq_or_transGen.1 hr with rfl | hr
    · exact ho
    · exact (hc.reach ho hr).1
  constructor
  · intro u hr hu
    have hmember := hreach u hr
    cases u with
    | struct k =>
      obtain ⟨V, -, hv⟩ := hc.views k hmember
      obtain ⟨fields, hb, -⟩ := hv.body
      cases hb.symm.trans hu
    | int _ | float _ | ptr _ | func _ _ _ => exact hu
    | void | label | array _ _ => exact hmember
  · intro k hr hself
    exact hc.acyclic k ((hc.reach (hreach _ hr) hself).2 k rfl)

lemma typeSize_ok_iff (ht : s.type? h = some t) : (∃ v s', typeSize h s = .ok v s') ↔ ∃ x, s.extent t = .ok x := by
  rw [typeSize, bind_of_ok (typeOf_known ht), get_bind_apply]
  cases s.extent t with
  | ok x => exact ⟨fun _ => ⟨x, rfl⟩, fun _ => (Has.out (P := Total) (a := constant _)) s⟩
  | error e => exact ⟨nofun, nofun⟩

/-- Calls that make structs and the types of their members. -/
inductive StructCall where
  | prim (prim : Prim)
  | pointerTo (type : TypeId)
  | funcType (ret : Option TypeId) (args : List TypeId) (variadic : Bool)
  | struct (name : Text)
  | addMember (struct : TypeId) (name : Text) (type : Option TypeId) (value : Option ValueId)
  | extendNamed (struct : TypeId) (base : Text)
  | extendStruct (struct : TypeId) (base : Option TypeId)

namespace StructCall

def perform (m : Handle) : StructCall → Act σ Unit
  | .prim p => discard (Act.prim m p)
  | .pointerTo T => discard (Act.pointerTo T)
  | .funcType ret args variadic => discard (Act.funcType m ret args variadic)
  | .struct name => discard (Act.newStruct m name)
  | .addMember T name type value => discard (Act.addMember T name type value)
  | .extendNamed T base => Act.extendNamed T base
  | .extendStruct T base => Act.extendStruct T base

/-- The call is about types that there are and structs of the module, and members get only types they may have. -/
def Fits (m : Handle) (w : World σ) : StructCall → Prop
  | .prim _ | .struct _ => True
  | .pointerTo T => ∃ t, w.store.type? T.handle = some t
  | .funcType ret args _ => ∃ (r : Ty) (ps : List Ty), Act.RetIs w.store ret r ∧
      (args.map TypeId.handle).map w.store.type? = ps.map some
  | .addMember T _ type value => Own m w T ∧ ∀ U, memberType? w type value = some U → Embeddable m w.store U
  | .extendNamed T base => Own m w T ∧ ∀ sym U w', Act.typeSymbol T.module base true w = .ok sym w' →
      sym.bind Symbol.type = some U → w.store.typeKind U.handle = .struct → Own m w U
  | .extendStruct T base => Own m w T ∧ ∀ U, base = some U → Own m w U

lemma perform_upholds {c : StructCall} (hc : Consistent m w) (hfits : c.Fits m w) :
    Along (Upholds m) w (c.perform m) := by
  have hsparing : ∀ {α : Type} {a : Act σ α} {P Q : α → World σ → Prop}, Along Aloof w a P → Along Silent w a Q →
      Along (Upholds m) w (discard a) := fun h hsilent =>
    .map ((Act.spares_of_aloof h hsilent).weaken fun _ h => h.upholds)
  cases c with
  | prim p => exact hsparing (Act.prim_aloof p) (Act.prim_along hc.good m p)
  | pointerTo T =>
    obtain ⟨t, ht⟩ := hfits
    exact hsparing (Act.pointerTo_aloof T) (Act.pointerTo_along hc.good ht)
  | funcType ret args variadic =>
    obtain ⟨r, ps, hret, hargs⟩ := hfits
    exact hsparing (Act.funcType_aloof ret args variadic) (Act.funcType_along hc.good m hret hargs)
  | struct name => exact .map (Act.newStruct_upholds hc name)
  | addMember T name type value => exact .map (Act.addMember_upholds hc hfits.1 hfits.2)
  | extendNamed T base => exact Act.extendNamed_upholds hc hfits.1 hfits.2
  | extendStruct T base => exact Act.extendStruct_upholds hc hfits.1 hfits.2

end StructCall

/-- The worlds that lead from one where the module has no structs through calls that succeed or fail, with anything
in between that leaves its structs alone. -/
inductive Shaped (m : Handle) : World σ → Prop where
  | start {w : World σ} (hg : Good w) (hm : Live w m) (hnone : ∀ h, ¬Owns m w.store h) : Shaped m w
  | call {w : World σ} (c : StructCall) (h : Shaped m w) (hfits : c.Fits m w) : Shaped m (endState (c.perform m w))
  | other {w w' : World σ} (h : Shaped m w) (hs : Spares m w w') : Shaped m w'

lemma Shaped.consistent (h : Shaped m w) : Consistent m w := by
  induction h with
  | start hg hm hnone =>
    refine ⟨hg, hm, fun h ho => absurd ho (hnone h), fun h hh => ?_⟩
    obtain ⟨k, ⟨ho, -⟩, -⟩ := TransGen.head'_iff.1 hh
    exact hnone h ho
  | @call w c _ hfits ih =>
    exact (StructCall.perform_upholds ih hfits).endState.consistent ih
  | other _ hs ih => exact hs.upholds.consistent ih

/-- However the structs of a module came about, each has distinct member names found at their places and a body of its
members' types, none contains itself, and all have a size; a member that is refused changes nothing. -/
theorem structs_consistent (h : Shaped m w) :
    (∀ k, Owns m w.store k → ∃ V, w.view? ⟨m, k⟩ = some V ∧ Mirrors m w.store k V) ∧
    (∀ k, ¬TransGen (Embeds m w.store) k k) ∧
    (∀ k, Owns m w.store k → ∃ size s, Emit.typeSize k w.store = .ok size s) ∧
    ∀ T name type value e w', Act.addMember T name type value w = .error e w' → Unchanged w w' := by
  have hc := h.consistent
  refine ⟨hc.views, hc.acyclic, fun k ho => ?_, fun T name type value e w' hx => ?_⟩
  · exact (typeSize_ok_iff ho.type?).2 (Store.extent_ok_iff.2 (hc.finite ho))
  · have hout := Act.addMember_outcomes (w := w) T name type value
    unfold Obeys at hout
    rwa [hx] at hout

def freshWorld : World Unit := endState (Act.newModule [109] ({ user := () } : World Unit))

lemma freshWorld_shaped : Shaped 11 freshWorld := by
  have hgood : Good ({ user := () } : World Unit) := (Reachable.start rfl rfl).good
  have hrun : Act.newModule [109] ({ user := () } : World Unit) = .ok 11 freshWorld := rfl
  obtain ⟨-, ⟨hg, hready⟩, -⟩ := (Act.newModule_along hgood [109]).of_ok hrun
  refine .start hg hready.live fun h ⟨i, hi, _⟩ => ?_
  have hentry := struct?_eq_some.1 hi
  change ((initial.push (.module { name := [109] })).2).entry h = _ at hentry
  rw [entry_push] at hentry
  split at hentry
  · cases hentry
  · rcases entry_initial h with hnone | ⟨t, -, ht⟩
    · cases hnone.symm.trans hentry
    · cases ht.symm.trans hentry

lemma StructCall.perform_struct (hc : Consistent m w) (hopen : Undropped m w.store) (name) :
    let w' := endState ((struct name).perform m w)
    Undropped m w'.store ∧ ∃ h V, w.store.type? h = none ∧ w'.view? ⟨m, h⟩ = some V ∧ V.members = #[] ∧ V.places = {} ∧
      (∀ U, U ≠ ⟨m, h⟩ → w'.view? U = w.view? U) ∧ Owns m w'.store h := by
  have hout := Act.newStruct_outcomes hc.good hc.live name
  unfold Obeys at hout
  rw [show endState ((struct name).perform m w) = endState (Act.newStruct m name w) from endState_map _]
  cases hx : Act.newStruct m name w with
  | ok T w' =>
    rw [hx] at hout
    obtain ⟨h, V, hnone, hV, hmembers, hplaces, hviews, ho, -, -, hopen'⟩ := hout
    exact ⟨hopen', h, V, hnone, hV, hmembers, hplaces, hviews, ho⟩
  | error e w' =>
    rw [hx] at hout
    exact absurd hopen hout.2

lemma Act.extendStruct_accepts {A B : TypeId} {VA VB : TypeView} (hA : Own m w A) (hB : Own m w B)
    (hne : A.handle ≠ B.handle) (hVA : w.view? A = some VA) (hVB : w.view? B = some VB) (hnoneA : VA.members = #[])
    (hnoneB : VB.members = #[]) (hplaces : VB.places = {}) :
    ∃ w', extendStruct B (some A) w = .ok () w' ∧ w'.view? B = some (VB.extended ⟨"base", A, none⟩) := by
  obtain ⟨i, hi, -⟩ := hB.2
  have hfields : FieldsOf w.store (VB.members.toList.map (·.type.handle) ++ [A.handle]) [.struct A.handle] := by
    simp [FieldsOf, hnoneB, hA.2.type?, Ty.held]
  obtain ⟨w', hadd⟩ := addMember_accepts "base" none hVB (by simp [hplaces]) (holds_of_empty hVA hnoneA hne) hi hfields
  have hmembers : members A w = .ok [] w := by
    rw [members, bind_of_ok (view_known hVA), hnoneA]
    rfl
  have hrun : extendStruct B (some A) w = .ok () w' := by
    rw [extendStruct, bind_of_ok (view_known hVB)]
    dsimp only
    rw [if_neg hne, bind_of_ok hmembers]
    exact bind_of_ok hadd
  obtain ⟨-, -, -, ⟨V, hV, -, hview, -⟩, -⟩ := (addMember_outcomes _ _ _ _).of_ok hadd
  cases mem_unique hVB hV
  exact ⟨w', hrun, (hview B).trans (if_pos rfl)⟩

/-- A second struct extends the first, which then cannot have it as a member. -/
theorem structs_consistent_extended : ∃ (A B : TypeId) (w : World Unit) (V : TypeView), Shaped 11 w ∧
    w.view? B = some V ∧ V.members = #[⟨"base", A, none⟩] ∧ Mirrors 11 w.store B.handle V ∧
    (∃ size s, Emit.typeSize B.handle w.store = .ok size s) ∧
    ∃ e w', Act.addMember A [120] (some B) none w = .error e w' ∧ Unchanged w w' := by
  obtain ⟨hopen, a, VA, -, hVA, hnoneA, -, -, hoA⟩ :=
    StructCall.perform_struct freshWorld_shaped.consistent ⟨_, rfl, rfl⟩ [65]
  have hshaped1 := Shaped.call (.struct [65]) freshWorld_shaped trivial
  obtain ⟨-, b, VB, hnew, hVB, hnoneB, hplaces, hviews, hoB⟩ := StructCall.perform_struct hshaped1.consistent hopen [66]
  have hne : a ≠ b := by
    rintro rfl
    cases hnew.symm.trans hoA.type?
  have hshaped2 := Shaped.call (.struct [66]) hshaped1 trivial
  have hoA := (StructCall.perform_upholds (c := .struct [66]) hshaped1.consistent trivial).endState.owns hoA
  have hVA := (hviews ⟨11, a⟩ (by simpa using hne)).trans hVA
  obtain ⟨w, hrun, hV⟩ :=
    Act.extendStruct_accepts (A := ⟨11, a⟩) (B := ⟨11, b⟩) ⟨rfl, hoA⟩ ⟨rfl, hoB⟩ hne hVA hVB hnoneA hnoneB hplaces
  have hfits : (StructCall.extendStruct ⟨11, b⟩ (some ⟨11, a⟩)).Fits 11 _ :=
    ⟨⟨rfl, hoB⟩, fun U hU => Option.some.inj hU ▸ ⟨rfl, hoA⟩⟩
  have hend : endState ((StructCall.extendStruct ⟨11, b⟩ (some ⟨11, a⟩)).perform 11 _) = w := congrArg endState hrun
  have hshaped := hend ▸ Shaped.call _ hshaped2 hfits
  have hstep := hend ▸ (StructCall.perform_upholds hshaped2.consistent hfits).endState.toStep
  obtain ⟨hall, -, hsize, hrefused⟩ := structs_consistent hshaped
  have hoB := hstep.owns hoB
  obtain ⟨V, hV', hv⟩ := hall b hoB
  cases hV.symm.trans hV'
  -- The body of the second struct holds the first, so the first is not to hold the second.
  have hembeds : Embeds 11 w.store b a := by
    obtain ⟨fields, hbody, hall⟩ := hv.body
    have hmem : ⟨"base", ⟨11, a⟩, none⟩ ∈ (VB.extended ⟨"base", ⟨11, a⟩, none⟩).members.toList := by
      simp [TypeView.extended]
    obtain ⟨t, ht, u, hu, rfl⟩ := Placement.exists_of_forall₂_of_mem hall.flip hmem
    cases mem_unique (hstep.owns hoA).type? hu
    exact ⟨hoB, fields, hbody, ht⟩
  obtain ⟨e, w', hx⟩ := Act.addMember_refused (T := ⟨11, a⟩) (U := ⟨11, b⟩) hshaped.consistent ⟨rfl, hoB⟩
    (.single hembeds) [120] none
  exact ⟨⟨11, a⟩, ⟨11, b⟩, w, _, hshaped, hV, by simp [TypeView.extended, hnoneB], hv, hsize b hoB, e, w', hx,
    hrefused _ _ _ _ _ _ hx⟩

end Arbor.Build
