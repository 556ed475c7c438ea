import Arbor.Proofs.Members
import Arbor.Proofs.Signatures

/-! Using a module leaves the names that are in force alone. Its exports are copied into the imports one by one, each
only if nothing of its name is visible, so whether all are copied or a collision ends it, whatever resolved before
resolves to the same symbol. -/

namespace Arbor.Build

open IR Diag Proofs Option Scopes

/-- Types and values have names of their own. -/
inductive Space where
  | types
  | values
  deriving DecidableEq

variable {σ : Type} {m : Handle} {w w' : World σ} {M M' : Module} {name : Text} {l copies : List (Space × Symbol)}
  {S : Scopes} {sc : Scope} {sp : Space} {sym : Symbol}

namespace Scope

def find (sc : Scope) : Space → Text → Option Symbol
  | .types => sc.types.get?
  | .values => sc.values.get?

def enter (sc : Scope) : Space × Symbol → Scope
  | (.types, sym) => { sc with types := (sc.types.add sym).2 }
  | (.values, sym) => { sc with values := (sc.values.add sym).2 }

lemma find_enter_of_ne (h : sp ≠ sp' ∨ sym.name ≠ name) : (sc.enter (sp, sym)).find sp' name = sc.find sp' name := by
  cases sp <;> cases sp' <;> simp_all [find, enter, SymbolTable.get?_add_of_ne]

lemma find_enter (h : sc.find sp sym.name = none) : (sc.enter (sp, sym)).find sp sym.name = some sym := by
  cases sp <;> exact SymbolTable.get?_add_self h

end Scope

lemma search_enter {id : ScopeId} (hsc : S.get? k = some sc) (hnew : probe sc' = some new) (hnone : S.search id true probe = none)
    (h : search { data := S.data.setIfInBounds k sc' } id true probe = some sym) : sym = new := by
  refine search.partial_correctness _ true probe (fun id sym => S.search id true probe = none → sym = new)
    (fun search ih id sym h hnone => ?_) id sym h hnone
  rw [Scopes.search] at hnone
  rw [get?_set (get?_eq_some.1 hsc).1 (get?_lt hsc)] at h
  by_cases hid : id = k
  · simp only [if_pos hid, hnew] at h
    exact (some.inj h).symm
  · rw [if_neg hid] at h
    cases hget : S.get? id with
    | none => simp [hget] at h
    | some sc₁ =>
      simp only [hget] at h hnone
      cases hp : probe sc₁ with
      | none =>
        simp only [hp] at h hnone
        exact ih _ _ h hnone
      | some sym => simp [hp] at hnone

namespace Module

/-- What a module sees from its current scope outwards, or else among its imports. -/
def see (M : Module) (sp : Space) (name : Text) : Option Symbol :=
  M.scopes.search M.current true (fun sc => sc.find sp name.composed) <|>
    M.scopes.search importScope false fun sc => sc.find sp name.composed

/-- The imports grew by `l`, no other scope changed, and every name that resolved resolves to the same symbol. -/
structure Joins (M : Module) (l : List (Space × Symbol)) (M' : Module) : Prop where
  current : M'.current = M.current
  imports : M'.scopes.get? importScope = (M.scopes.get? importScope).map (l.foldl Scope.enter)
  others : ∀ k ≠ importScope, M'.scopes.get? k = M.scopes.get? k
  names : ∀ sp name sym, M.see sp name = some sym → M'.see sp name = some sym

lemma Joins.of_eq (hs : M'.scopes = M.scopes) (hc : M'.current = M.current) : M.Joins [] M' where
  current := hc
  imports := by
    rw [hs]
    exact map_id'.symm
  others k _ := by rw [hs]
  names sp name sym h := by
    unfold see at h ⊢
    rwa [hs, hc]

lemma Joins.trans (h : M.Joins l M1) (k : M1.Joins l' M') : M.Joins (l ++ l') M' where
  current := k.current.trans h.current
  imports := by
    rw [k.imports, h.imports, map_map]
    exact map_congr fun sc _ => (List.foldl_append ..).symm
  others x hx := (k.others x hx).trans (h.others x hx)
  names sp name sym hsym := k.names sp name sym (h.names sp name sym hsym)

lemma joins_enter (hsc : M.scopes.get? importScope = some sc) (hnone : M.see sp name = none) (hname : s.name = name.composed)
    (hM' : M' = { M with scopes := { data := M.scopes.data.setIfInBounds importScope (sc.enter (sp, s)) } }) :
    M.Joins [(sp, s)] M' ∧ M'.see sp name = some s := by
  subst hM'
  have hget (k) : get? { data := M.scopes.data.setIfInBounds importScope (sc.enter (sp, s)) } k = _ :=
    get?_set (by decide) (get?_lt hsc)
  refine ⟨⟨rfl, ?_, fun k hk => ?_, fun sp' name' s' hsym => ?_⟩, ?_⟩
  · rw [hget, hsc]
    rfl
  · rw [hget, if_neg hk]
  · have hne : sp ≠ sp' ∨ s.name ≠ name'.composed := by
      by_contra heq
      simp only [not_or, not_not] at heq
      obtain ⟨rfl, heq⟩ := heq
      rw [see, ← heq, hname] at hsym
      cases hnone.symm.trans hsym
    have hlook := search_set (p := fun sc => sc.find sp' name'.composed) hsc (Scope.find_enter_of_ne hne)
      (by cases sp <;> rfl)
    simp only [see, hlook]
    exact hsym
  · simp only [see, orElse_eq_orElse, orElse_eq_or, or_eq_none_iff, ← hname] at hnone ⊢
    have hfree : sc.find sp s.name = none := by
      have himports := hnone.2
      rw [search, hsc] at himports
      cases hp : sc.find sp s.name with
      | none => rfl
      | some sym => simp [hp] at himports
    have hfound := Scope.find_enter hfree
    have himports : search { data := M.scopes.data.setIfInBounds importScope (sc.enter (sp, s)) } importScope
        false (fun sc => sc.find sp s.name) = some s := by
      rw [search, hget, if_pos rfl]
      simp only [hfound]
    rw [himports]
    cases hw : search { data := M.scopes.data.setIfInBounds importScope (sc.enter (sp, s)) } M.current true
        fun sc => sc.find sp s.name with
    | none => rfl
    | some sym => rw [search_enter hsc hfound hnone.1 hw, some_or]

/-- A copy has the handle of what it is a copy of. A value that the back end does not know has no copy. -/
def SameHandle : Space → Symbol → Symbol → Prop
  | .types, a, b => b.type.map TypeId.handle = a.type.map TypeId.handle
  | .values, a, b => (∀ x ∈ a.value, x.handle ≠ noHandle) → b.value.map ValueId.handle = a.value.map ValueId.handle

/-- What is exported and its copy, which is what its name stands for. -/
def Copy (M : Module) (a b : Space × Symbol) : Prop :=
  b.1 = a.1 ∧ b.2.name = a.2.name.composed ∧ SameHandle a.1 a.2 b.2 ∧ M.see a.1 a.2.name = some b.2

/-- What a module exports: its types and then its values. -/
def exports (M : Module) : List (Space × Symbol) :=
  (M.scopes.types exportScope).map (.types, ·) ++ (M.scopes.values exportScope).map (.values, ·)

end Module

/-- No module but `m` changed, and copies of `l` joined the imports of `m`, which was `M`. -/
structure Brings (m : Handle) (M : Module) (l : List (Space × Symbol)) (w w' : World σ) : Prop where
  others : ∀ k ≠ m, w'.modules[k]? = w.modules[k]?
  own : ∃ M' copies, w'.modules[m]? = some M' ∧ M.Joins copies M' ∧ List.Forall₂ M'.Copy l copies

lemma Brings.trans (h : Brings m M l w w1) (hM1 : w1.modules[m]? = some M1) (k : Brings m M1 l' w1 w') :
    Brings m M (l ++ l') w w' := by
  obtain ⟨M1', copies, hM1', hj, hcopies⟩ := h.own
  cases mem_unique hM1 hM1'
  obtain ⟨hothers, M', copies', hM', hj', hcopies'⟩ := k
  refine ⟨fun x hx => (hothers x hx).trans (h.others x hx), M', _, hM', hj.trans hj', List.rel_append ?_ hcopies'⟩
  exact hcopies.imp fun _ _ hc => ⟨hc.1, hc.2.1, hc.2.2.1, hj'.names _ _ _ hc.2.2.2⟩

structure Notes (m : Handle) (w w' : World σ) : Prop where
  others : ∀ k ≠ m, w'.modules[k]? = w.modules[k]?
  own : (w'.modules[m]?).map (fun M => (M.scopes, M.current)) = (w.modules[m]?).map fun M => (M.scopes, M.current)

instance : IsPreorder (World σ) (Notes m) where
  refl _ := ⟨fun _ _ => rfl, rfl⟩
  trans _ _ _ h k := ⟨fun x hx => (k.others x hx).trans (h.others x hx), k.own.trans h.own⟩

lemma quiet_notes (h : w'.modules = w.modules) : Notes m w w' := by
  constructor <;> simp [h]

lemma Notes.brings (h : Notes m w w') (hM : w.modules[m]? = some M) :
    ∃ M', w'.modules[m]? = some M' ∧ M'.scopes = M.scopes ∧ M'.current = M.current ∧ Brings m M [] w w' := by
  have hown := h.own
  rw [hM, map_some, map_eq_some_iff] at hown
  obtain ⟨M', hM', heq⟩ := hown
  obtain ⟨hs, hc⟩ := Prod.ext_iff.mp heq
  exact ⟨M', hM', hs, hc, h.others, M', [], hM', .of_eq hs hc, .nil⟩

namespace Act

lemma update_notes {f : Module → Module} (hf : ∀ M, (f M).scopes = M.scopes ∧ (f M).current = M.current) :
    Along (Notes m) w (update m f) := by
  refine .modify ⟨fun k hk => ?_, ?_⟩ trivial
  · rw [Std.HashMap.getElem?_modify, if_neg (by simpa using Ne.symm hk)]
  · rw [Std.HashMap.getElem?_modify_self, map_map]
    exact map_congr fun M _ => Prod.ext (hf M).1 (hf M).2

lemma typeAt_notes (h) : Along (Notes m) w (typeAt m h) := by
  refine .ite (fun _ => .pure trivial) fun _ => .look (module_along m) fun M _ => ?_
  refine .ite (fun _ => .bind (P := fun _ _ => True) ⟨refl_of _ w, trivial⟩ fun s w1 _ _ => ?_) fun _ => .pure trivial
  exact .bind (update_notes fun _ => ⟨rfl, rfl⟩) fun _ _ _ _ => .pure trivial

lemma adoptWith_notes {adopt : TypeId → Act σ TypeId} {Q : TypeId → TypeId → World σ → Prop}
    (h : ∀ w t, Along (Notes m) w (adopt t) (Q t)) (v w) :
    Along (Notes m) w (adoptWith m adopt v) fun r _ => (∀ x ∈ v, x.handle ≠ noHandle) →
      r.map ValueId.handle = v.map ValueId.handle := by
  cases v with
  | none => exact .pure fun _ => rfl
  | some v =>
    refine .ite (fun _ => .pure fun _ => rfl) fun _ => .look (P := fun _ => True) ?_ fun T _ => .bind (h w T) fun T' w1 _ _ => ?_
    · exact .look (module_along _) fun M _ => .look (need_along _) fun t _ => (need_along _).mono fun _ _ _ h => ⟨h.1, trivial⟩
    · refine .ite (fun h0 => .pure fun hv => absurd h0 (hv v rfl)) fun _ => ?_
      exact .bind (update_notes fun _ => ⟨rfl, rfl⟩) fun _ _ _ _ => .pure fun _ => rfl

lemma adoptType_notes (depth : Nat) : ∀ (w : World σ) (T),
    Along (Notes m) w (adoptType m depth T) fun T' _ => T'.handle = T.handle := by
  induction depth with
  | zero => exact fun _ _ => .throw
  | succ depth ih =>
    intro w T
    have hset {f : TypeView → TypeView} (w : World σ) : Along (Notes m) w (updateType ⟨m, T.handle⟩ f) :=
      update_notes fun _ => ⟨rfl, rfl⟩
    refine .ite (fun _ => .pure rfl) fun _ => .look (view_reads T) fun V _ => .bind (typeAt_notes _) fun _ w1 _ _ => ?_
    extract_lets finish rest
    have hrest w : Along (Notes m) w (rest ()) fun T' _ => T'.handle = T.handle := by
      refine .look (view_reads _) fun _ _ => .look (view_reads _) fun _ _ => .ite (fun _ => ?_) fun _ => .pure rfl
      refine .bind (.forM (I := fun _ => True) _ (fun mem _ w _ => ?_) w trivial) fun _ _ _ _ => .pure rfl
      exact .bind (hset w) fun _ w _ _ => .bind (ih w _) fun _ w _ _ => .bind (adoptWith_notes ih _ w) fun _ w _ _ => hset w
    cases V.elem with
    | none => exact hrest w1
    | some e =>
      refine .look (view_reads _) fun _ _ => .ite (fun _ => .bind (ih w1 e) fun _ w2 _ _ => ?_) fun _ => hrest w1
      exact .bind (hset w2) fun _ w3 _ _ => hrest w3

lemma ownType_notes (w : World σ) (T) : Along (Notes m) w (ownType m T) fun T' _ => T'.handle = T.handle :=
  .look (P := fun _ => True) ⟨refl_of _ w, rfl, trivial⟩ fun depth _ => adoptType_notes depth w T

lemma reading {f : Module → Act σ α} (hM : w.modules[m]? = some M) (h : Obeys w (f M) Q E) : Obeys w (module m >>= f) Q E := by
  refine .bind (module_known hM) ?_
  rintro _ _ ⟨rfl, rfl⟩
  exact h

/-- The whole of `l` is brought in, or on a failure a beginning of it. -/
def Importing (m : Handle) (M : Module) (l : List (Space × Symbol)) (w : World σ) (a : Act σ Unit) : Prop :=
  Obeys w a (fun _ => Brings m M l w) fun _ w' => ∃ part, part <+: l ∧ Brings m M part w w'

lemma Importing.bind {f : Unit → Act σ Unit} (h : Importing m M l w a)
    (k : ∀ w1 M1, (∀ k ≠ m, w1.modules[k]? = w.modules[k]?) → w1.modules[m]? = some M1 → Importing m M1 l' w1 (f ())) :
    Importing m M (l ++ l') w (a >>= f) := by
  refine Obeys.bind (h.weaken fun _ _ ⟨part, hpart, hb⟩ => ⟨part, hpart.trans (List.prefix_append _ _), hb⟩)
    fun _ w1 hb => ?_
  obtain ⟨M1, _, hM1, _⟩ := hb.own
  refine ((k w1 M1 hb.others hM1).mono fun _ _ => hb.trans hM1).weaken fun _ _ ⟨part, hpart, hk⟩ => ?_
  exact ⟨l ++ part, (List.prefix_append_right_inj _).mpr hpart, hb.trans hM1 hk⟩

lemma Importing.noting {f : α → Act σ Unit} (hM : w.modules[m]? = some M) (h : Along (Notes m) w a Q)
    (k : ∀ x w1 M1, Notes m w w1 → Q x w1 → w1.modules[m]? = some M1 → M1.scopes = M.scopes → M1.current = M.current →
      Importing m M1 l w1 (f x)) : Importing m M l w (a >>= f) := by
  refine Obeys.bind ((Obeys.of_along h).weaken fun _ _ hn => ?_) fun x w1 ⟨hn, hq⟩ => ?_
  · obtain ⟨_, _, _, _, hb⟩ := hn.brings hM
    exact ⟨[], List.nil_prefix, hb⟩
  · obtain ⟨M1, hM1, hs, hc, hb⟩ := hn.brings hM
    exact ((k x w1 M1 hn hq hM1 hs hc).mono fun _ _ => hb.trans hM1).weaken fun _ _ ⟨part, hpart, hk⟩ =>
      ⟨part, hpart, hb.trans hM1 hk⟩

lemma nil_importing (hM : w.modules[m]? = some M) : Importing m M [] w (pure ()) := by
  obtain ⟨_, _, _, _, hb⟩ := (refl_of (Notes m) w).brings hM
  exact .pure hb

lemma rescope_importing {f : Scopes → Except Fault Scopes} (hM : w.modules[m]? = some M)
    (hnone : M.see sp sym.name = none) (hsame : Module.SameHandle sp sym ⟨sym.name.composed, t, v⟩)
    (hf : ∀ D, f M.scopes = .ok D → ∃ sc, M.scopes.get? importScope = some sc ∧
      D = { data := M.scopes.data.setIfInBounds importScope (sc.enter (sp, ⟨sym.name.composed, t, v⟩)) }) :
    Importing m M [(sp, sym)] w (rescope m f) := by
  refine reading hM ?_
  cases hD : f M.scopes with
  | error e =>
    obtain ⟨_, _, _, _, hb⟩ := (refl_of (Notes m) w).brings hM
    exact .throw ⟨[], List.nil_prefix, hb⟩
  | ok D =>
    obtain ⟨sc, hsc, rfl⟩ := hf D hD
    obtain ⟨hj, hsym⟩ := Module.joins_enter (s := ⟨sym.name.composed, t, v⟩) hsc hnone rfl rfl
    refine ⟨fun k hk => ?_, _, _, ?_, hj, .cons ⟨rfl, rfl, hsame, hsym⟩ .nil⟩
    · exact (Std.HashMap.getElem?_modify ..).trans (if_neg (by simpa using Ne.symm hk))
    · exact (Std.HashMap.getElem?_modify_self ..).trans (by rw [hM, map_some])

lemma fail_importing {α : Type} {f : α → Act σ Unit} (hM : w.modules[m]? = some M) :
    Importing m M l w (fail m code message >>= f) := by
  have hfail : Along (Notes m) w (fail (α := α) m code message) fun _ _ => False :=
    .bind (P := fun _ _ => True) (.look (module_along m) fun _ _ => ⟨quiet_notes rfl, trivial⟩) fun _ _ _ _ => .throw
  exact .noting hM hfail fun _ _ _ _ h => h.elim

lemma Importing.entry {α : Type} {f : α → Act σ Unit} (hM : w.modules[m]? = some M)
    (hsee : see = module m >>= fun M => pure (M.see p name)) (h : M.see p name = none → Importing m M l w a) :
    Importing m M l w (see >>= fun x => if x.isSome then fail m code message >>= f else a) := by
  subst hsee
  refine Obeys.bind (P := fun x w' => x = M.see p name ∧ w' = w) (reading hM ⟨rfl, rfl⟩) ?_
  rintro _ _ ⟨rfl, rfl⟩
  exact .ite (fun _ => fail_importing hM) fun hx => h (by simpa using hx)

lemma importTypes_importing (source) (syms : List Symbol) : ∀ {w : World σ} {M : Module},
    w.modules[m]? = some M → Importing m M (syms.map (.types, ·)) w (importTypes m source syms) := by
  induction syms with
  | nil => exact nil_importing
  | cons sym rest ih =>
    intro w M hM
    refine .entry (p := .types) hM rfl fun hfree => ?_
    have hown : Along (Notes m) w (sym.type.mapM (ownType m)) fun t _ =>
        t.map TypeId.handle = sym.type.map TypeId.handle := by
      cases sym.type with
      | none => exact .pure rfl
      | some T => exact .map ((ownType_notes w T).mono fun _ _ _ h => congrArg some h)
    refine .noting hM hown fun t w1 M1 _ ht hM1 hs hc => ?_
    refine .bind (l := [(.types, sym)]) (rescope_importing (v := none) hM1 ?_ ht fun D hD => ?_) fun _ _ _ => ih
    · rwa [Module.see, hs, hc]
    · obtain ⟨sc, hsc, -, rfl⟩ := addType_ok hD
      exact ⟨sc, hsc, rfl⟩

lemma importValues_importing (source) (syms : List Symbol) : ∀ {w : World σ} {M : Module},
    w.modules[m]? = some M → Importing m M (syms.map (.values, ·)) w (importValues m source syms) := by
  induction syms with
  | nil => exact nil_importing
  | cons sym rest ih =>
    intro w M hM
    refine .entry (p := .values) hM rfl fun hfree => ?_
    refine .noting hM (adoptWith_notes ownType_notes sym.value w) fun v w1 M1 _ hv hM1 hs hc => ?_
    refine .noting hM1 (valueType?_along v) fun t w2 M2 _ _ hM2 hs2 hc2 => ?_
    refine .bind (l := [(.values, sym)]) (rescope_importing (t := t) hM2 ?_ hv fun D hD => ?_) fun _ _ _ => ih
    · rwa [Module.see, hs2, hc2, hs, hc]
    · obtain ⟨sc, hsc, -, rfl⟩ := addValue_ok hD
      exact ⟨sc, hsc, rfl⟩

lemma ensuring_outcomes {last : Act σ Unit} (h : Obeys w a Q E)
    (hok : ∀ x w', Q x w' → Obeys w' last (fun _ => Q x) fun _ _ => False)
    (hbad : ∀ e w', E e w' → Obeys w' last (fun _ => E e) fun _ _ => False) : Obeys w (ensuring a last) Q E := by
  refine (ensuring_obeys (h) (fun e w' he => ?_) fun x w' hq => ?_)
  · refine (attempt_obeys ((hbad e w' he))).imp ?_ fun _ _ h => h.1.elim
    rintro r w'' - (⟨_, _, he⟩ | ⟨_, _, h⟩)
    · exact he
    · exact h.elim
  · exact ((hok x w' hq)).imp (fun _ _ _ => id) fun _ _ h => h.elim

end Act

/-- Using a module brings in what it exports, or a beginning of that. -/
theorem use_keeps_names {d : Handle} {D : Module} (hloaded : w.registry.lookup name = some d)
    (hM : w.modules[m]? = some M) (hD : w.modules[d]? = some D) :
    Act.Importing m M D.exports w (Act.useModule m name) := by
  refine Act.reading hM ?_
  refine .bind (P := fun dep w' => dep = some d ∧ w' = w) ⟨hloaded, rfl⟩ ?_
  rintro _ _ ⟨rfl, rfl⟩
  refine .ite (fun _ => Act.fail_importing hM) fun _ => .ite (fun _ => Act.fail_importing hM) fun hne => ?_
  refine Act.Importing.noting hM (Act.update_notes fun _ => ⟨rfl, rfl⟩) fun _ w1 M1 h1 _ hM1 _ _ => ?_
  refine Act.Importing.noting hM1 (Q := fun _ _ => True) ⟨quiet_notes rfl, trivial⟩ fun span w2 M2 h2 _ hM2 _ _ => ?_
  have hsource : w2.modules[d]? = some D := by
    rw [h2.others _ hne, h1.others _ hne, hD]
  refine Act.ensuring_outcomes (Act.reading hsource ?_) (fun _ _ h => ⟨h.others, h.own⟩)
    fun _ _ ⟨part, hpart, h⟩ => ⟨part, hpart, h.others, h.own⟩
  exact Act.Importing.bind (Act.importTypes_importing name _ hM2) fun w3 M3 h3 hM3 =>
    Act.reading ((h3 _ hne).trans hsource) (Act.importValues_importing name _ hM3)

def exporter : Module := { name := [97], scopes := ⟨#[{}, {}, {}, ({} : Scope).enter (.values, { name := [120] })]⟩ }

lemma exporter_values : exporter.scopes.values exportScope = [{ name := [120] }] :=
  congrArg Array.toList (SymbolTable.order_add _ (SymbolTable.get?_empty _))

def user (root : Scope) : Module := { name := [98], scopes := ⟨#[{}, root, {}, {}]⟩ }

/-- A module that exports `x` and one that can use it. -/
def sharing (root : Scope) : World Unit where
  registry := [([97], 4)]
  modules := (Std.HashMap.emptyWithCapacity.insert 4 exporter).insert 5 (user root)
  user := ()

variable {root : Scope} {source : Text}

lemma user_sharing : (sharing root).modules[5]? = some (user root) := Std.HashMap.getElem?_insert_self

lemma exporter_sharing : (sharing root).modules[4]? = some exporter := by
  rw [sharing, Std.HashMap.getElem?_insert, if_neg (by decide), Std.HashMap.getElem?_insert_self]

lemma see_user (hs : M.scopes = (user root).scopes) (hc : M.current = rootScope) (hp : root.parent = 0) (sp) :
    M.see sp name = root.find sp name.composed := by
  have hroot : (user root).scopes.get? rootScope = some root := rfl
  have himports : (user root).scopes.get? importScope = some {} := rfl
  have hnone : ({} : Scope).find sp name.composed = none := by cases sp <;> exact SymbolTable.get?_empty _
  rw [Module.see, hs, hc, search, hroot]
  cases hfind : root.find sp name.composed with
  | some sym => simp [hfind]
  | none =>
    simp only [hfind, if_true, hp]
    rw [search, search, himports]
    simp [hnone, get?]

/-- What using comes to is what the import of `x` comes to. -/
lemma use_sharing (root : Scope) {P E : Prop} (h : ∀ (w : World Unit) M, w.modules[5]? = some M → M.scopes = (user root).scopes →
      M.current = rootScope → Obeys w (Act.importValues 5 [97] [{ name := [120] }]) (fun _ _ => P) fun _ _ => E) :
    Obeys (sharing root) (Act.useModule 5 [97]) (fun _ _ => P) fun _ _ => E := by
  refine Act.reading user_sharing (.bind (P := fun dep w => dep = some 4 ∧ w = sharing root) ⟨rfl, rfl⟩ ?_)
  rintro _ _ ⟨rfl, rfl⟩
  refine .ite (fun hdeps => by cases hdeps) fun _ => .ite (fun heq => by cases heq) fun _ => ?_
  have hdeps : Along (Notes 5) (sharing root) (Act.update 5 fun i => { i with deps := i.deps ++ [[97]] }) :=
    Act.update_notes fun _ => ⟨rfl, rfl⟩
  refine .bind (P := fun _ => Notes 5 (sharing root)) hdeps.1 fun _ w1 h1 => ?_
  refine .bind (P := fun _ w => w.modules = w1.modules) (by rfl) fun span w2 hw2 => ?_
  have h2 : Notes 5 (sharing root) w2 := trans_of _ h1 (quiet_notes hw2)
  obtain ⟨M, hM, hs, hc, -⟩ := h2.brings user_sharing
  have hsource : w2.modules[4]? = some exporter := (h2.others 4 (by decide)).trans exporter_sharing
  refine Act.ensuring_outcomes (Act.reading hsource (.bind (P := fun _ w => w = w2) rfl ?_)) (fun _ _ h => h) fun _ _ h => h
  rintro _ _ rfl
  refine Act.reading hsource ?_
  rw [exporter_values]
  exact h _ M hM hs hc

lemma addValue_free (hsc : S.get? k = some sc) (hfree : sc.values.get? name.composed = none) :
    ∃ D, S.addValue k name t v = .ok D := by
  have hfresh := sc.values.add_fresh ⟨name.composed, t, v⟩
  unfold addValue
  rw [hsc]
  simp only
  split
  · exact ⟨_, rfl⟩
  · next hadd => simp [hadd, hfree] at hfresh

lemma importValues_free {M : Module} (hM : w.modules[m]? = some M) (hsc : M.scopes.get? importScope = some sc)
    (hfree : sc.values.get? name.composed = none) (hnone : M.see .values name = none) :
    Obeys w (Act.importValues m source [{ name }]) (fun _ _ => True) fun _ _ => False := by
  -- The symbol stands for no value, so there is none to take over.
  have hadd : Obeys w (Act.rescope m fun s => s.addValue importScope name none none) (fun _ _ => True) fun _ _ => False := by
    obtain ⟨D, hD⟩ := addValue_free (t := none) (v := none) hsc hfree
    refine Act.reading hM ?_
    simp only [hD]
    trivial
  refine .bind (P := fun x w' => x = none ∧ w' = w) (Act.reading hM ⟨hnone, rfl⟩) ?_
  rintro _ _ ⟨rfl, rfl⟩
  change Obeys _ (Act.rescope m _ >>= fun _ => pure ()) _ _
  exact .bind hadd fun _ _ _ => .pure trivial

lemma importValues_taken {M : Module} (hM : w.modules[m]? = some M) (hsome : M.see .values name = some sym) :
    Obeys w (Act.importValues m source [{ name }]) (fun _ _ => False) fun _ _ => True := by
  refine .bind (P := fun x w' => x = some sym ∧ w' = w) (Act.reading hM ⟨hsome, rfl⟩) ?_
  rintro _ _ ⟨rfl, rfl⟩
  refine .bind (P := fun _ _ => False) (.bind (P := fun _ _ => True) (Act.reading hM trivial) fun _ _ _ => trivial) fun _ _ h => h.elim

/-- One use succeeds, another collides with a name of the module that uses. -/
theorem use_keeps_names_sharing :
    Obeys (sharing {}) (Act.useModule 5 [97]) (fun _ => Brings 5 (user {}) exporter.exports (sharing {})) (fun _ _ => False) ∧
    ∃ root : Scope, (user root).see .values [120] = some { name := [120] } ∧
      Obeys (sharing root) (Act.useModule 5 [97]) (fun _ _ => False) fun _ w' =>
        ∃ part, part <+: exporter.exports ∧ Brings 5 (user root) part (sharing root) w' := by
  have htaken : (({} : Scope).enter (.values, { name := [120] })).find .values [120] = some { name := [120] } :=
    Scope.find_enter (SymbolTable.get?_empty _)
  refine ⟨?_, _, (see_user rfl rfl rfl _).trans htaken, ?_⟩
  · have hok := use_sharing {} (P := True) (E := False) fun w M hM hs hc =>
      importValues_free hM (hs ▸ rfl : _ = some {}) (SymbolTable.get?_empty _)
        ((see_user hs hc rfl _).trans (SymbolTable.get?_empty _))
    exact (hok.and (use_keeps_names rfl user_sharing exporter_sharing)).imp (fun _ _ _ h => h.2) fun _ _ h => h.1
  · have hbad := use_sharing _ (P := False) (E := True) fun w M hM hs hc =>
      importValues_taken hM ((see_user hs hc rfl _).trans htaken)
    exact (hbad.and (use_keeps_names rfl user_sharing exporter_sharing)).imp (fun _ _ _ h => h.1) fun _ _ h => h.2

end Arbor.Build
