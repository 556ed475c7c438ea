import Arbor.Proofs.Building
import Arbor.Proofs.Containment
import Arbor.Proofs.Refusals

/-! The members of structs: what it is for the structs of a module to be seen as they are, and what adding a member
does, the search for the struct inside the member included. -/

namespace Arbor.Build

open IR Diag Proofs Relation Std Option List Store Emit World

variable {σ : Type} {w w' : World σ} {m : Handle}
variable {h : Handle} {mem : Member} {s : Store} {i : StructInfo} {t : Ty} {T : TypeId} {V : TypeView}

def World.view? (w : World σ) (T : TypeId) : Option TypeView := (w.modules[T.module]?).bind (·.types[T.handle]?)

lemma view?_eq_some :
    w.view? T = some V ↔ ∃ M, w.modules[T.module]? = some M ∧ M.types[T.handle]? = some V := bind_eq_some_iff

def Owns (m : Handle) (s : Store) (h : Handle) : Prop := ∃ i, s.struct? h = some i ∧ i.module = m

/-- What members may be: the module's own structs, numbers, functions and pointers. -/
def MemberType (m : Handle) (s : Store) : Ty → Prop
  | .int _ | .float _ | .ptr _ | .func .. => True
  | .struct h => Owns m s h
  | .void | .label | .array .. => False

def Embeddable (m : Handle) (s : Store) (T : TypeId) : Prop :=
  T.module = m ∧ ∃ t, s.type? T.handle = some t ∧ MemberType m s t

def Embeds (m : Handle) (s : Store) (h k : Handle) : Prop :=
  Owns m s h ∧ ∃ fields, s.body? h = some fields ∧ .struct k ∈ fields

/-- A struct as its module sees it: distinct names, each found at its place, and a body of what the members are. -/
structure Mirrors (m : Handle) (s : Store) (h : Handle) (V : TypeView) : Prop where
  names : (V.members.toList.map Member.name).Nodup
  places : ∀ name k, V.places[name]? = some k ↔ (V.members.toList[k]?).map Member.name = some name
  body : ∃ fields, s.body? h = some fields ∧
    List.Forall₂ (fun mem t => ∃ u, s.type? mem.type.handle = some u ∧ t = u.held) V.members.toList fields
  types : ∀ mem ∈ V.members.toList, Embeddable m s mem.type

/-- Every struct of the module is seen as it is, and no chain of fields leads from one back to it. -/
structure Consistent (m : Handle) (w : World σ) : Prop where
  good : Good w
  live : Live w m
  views : ∀ h, Owns m w.store h → ∃ V, w.view? ⟨m, h⟩ = some V ∧ Mirrors m w.store h V
  acyclic : ∀ h, ¬TransGen (Embeds m w.store) h h

section Searching

variable {s : Store} {h k : Handle}

lemma Owns.type? (ho : Owns m s h) : s.type? h = some (.struct h) := by
  obtain ⟨i, hi, -⟩ := ho
  rw [Store.type?, Store.struct?_eq_some.1 hi]

lemma eq_of_type?_struct (hs : s.WF) (ht : s.type? h = some (.struct k)) : h = k :=
  (Ty.struct.inj ((entry_of_type? ht).resolve_left fun he => (hs.found h _ he).ne_struct k rfl)).symm

lemma eq_struct_of_kind (hk : t.kind = .struct) : ∃ k, t = .struct k := by
  cases t with
  | struct k => exact ⟨k, rfl⟩
  | int w => cases w <;> cases hk
  | float p => cases p <;> cases hk
  | ptr e =>
    unfold Ty.kind at hk
    split at hk <;> simp_all
  | _ => cases hk

lemma eq_struct_of_held (ht : .struct k = t.held) : t = .struct k := by
  cases t with
  | struct _ => exact ht.symm
  | _ => cases ht

lemma MemberType.held (ht : MemberType m s t) : MemberType m s t.held := by
  cases t with
  | func r ps v => trivial
  | _ => exact ht

lemma Mirrors.embeds (hs : s.WF) (hv : Mirrors m s h V) (hk : Embeds m s h k) :
    ∃ mem ∈ V.members.toList, mem.type.handle = k ∧ Owns m s k := by
  obtain ⟨-, fields, hb, hmem⟩ := hk
  obtain ⟨fields', hb', hall⟩ := hv.body
  cases mem_unique hb hb'
  obtain ⟨mem, hin, u, hu, heq⟩ := Placement.exists_of_forall₂_of_mem hall hmem
  cases eq_struct_of_held heq
  obtain ⟨-, u', hu', ho⟩ := hv.types mem hin
  cases mem_unique hu hu'
  exact ⟨mem, hin, eq_of_type?_struct hs hu, ho⟩

lemma unopened_anti (hsub : seen ⊆ more) : s.unopened more ≤ s.unopened seen := by
  apply countP_mono_left
  intro x _ hx
  simp only [decide_eq_true_eq] at hx ⊢
  exact fun hmem => hx (hsub hmem)

structure Searched (m : Handle) (s : Store) (target : Handle) (seen : List Handle) (r : Bool × List Handle) : Prop where
  sub : seen ⊆ r.2
  clear : r.1 = false → ∀ x ∈ r.2, x ∉ seen → x ≠ target ∧ ∀ k, Embeds m s x k → k ∈ r.2

lemma Searched.trans {target : Handle} {seen : List Handle} {r r' : Bool × List Handle}
    (h : Searched m s target seen r) (h' : Searched m s target r.2 r') (hfound : r'.1 = false → r.1 = false) :
    Searched m s target seen r' := by
  refine ⟨List.Subset.trans h.sub h'.sub, fun hr x hx hnot => ?_⟩
  by_cases hold : x ∈ r.2
  · obtain ⟨hne, hin⟩ := h.clear (hfound hr) x hold hnot
    exact ⟨hne, fun k hk => h'.sub (hin k hk)⟩
  · exact h'.clear hr x hx hold

end Searching

namespace Act

lemma view_outcomes (T) : Obeys w (view T) (fun V w' => w' = w ∧ w.view? T = some V)
    fun _ w' => w' = w ∧ w.view? T = none := by
  unfold Obeys view module need view?
  simp only [bind, EStateM.bind, get_apply]
  cases w.modules[T.module]? with
  | none => exact ⟨rfl, rfl⟩
  | some M =>
    simp only [Pure.pure, EStateM.pure, bind_some]
    cases M.types[T.handle]? with
    | none => exact ⟨rfl, rfl⟩
    | some V => exact ⟨rfl, rfl⟩

lemma view_known (hV : w.view? T = some V) : view T w = .ok V w := by
  have hout := view_outcomes (w := w) T
  unfold Obeys at hout
  cases hx : view T w with
  | ok U w' =>
    rw [hx] at hout
    obtain ⟨rfl, hU⟩ := hout
    rw [mem_unique hU hV]
  | error e w' =>
    rw [hx] at hout
    cases hout.2.symm.trans hV

lemma view_reads {R : World σ → World σ → Prop} [IsPreorder (World σ) R] (T) :
    Along R w (view T) fun V w' => w' = w ∧ w.view? T = some V :=
  (((view_outcomes T).mono fun _ _ h => ⟨h.1 ▸ refl_of R _, h⟩).weaken fun _ _ h => h.1 ▸ refl_of R _).along

lemma typeOf_outcomes (v) : Obeys w (typeOf v)
    (fun T w' => w' = w ∧ ((w.modules[v.module]?).bind (·.values[v.handle]?)).join = some T) fun _ w' => w' = w := by
  unfold Obeys typeOf module need
  simp only [bind, EStateM.bind, get_apply]
  cases w.modules[v.module]? with
  | none => rfl
  | some M =>
    simp only [Pure.pure, EStateM.pure, bind_some]
    cases M.values[v.handle]? with
    | none => rfl
    | some x =>
      cases x with
      | none => rfl
      | some T => exact ⟨rfl, rfl⟩

lemma holds_members {target fuel : Nat} {l : List Member} (hl : ∀ mem ∈ l, Embeddable m w.store mem.type)
    (ih : ∀ (seen) (T), Embeddable m w.store T → w.store.unopened seen < fuel →
      Obeys w (holds target fuel seen T) (fun r w' => w' = w ∧ Searched m w.store target seen r ∧
        (r.1 = false → Owns m w.store T.handle → T.handle ∈ r.2)) fun _ _ => True) :
    ∀ r : Bool × List Handle, w.store.unopened r.2 < fuel → Obeys w (l.foldlM (fun (found, seen) mem =>
          if found then pure (found, seen) else holds target fuel seen mem.type) r)
        (fun r' w' => w' = w ∧ Searched m w.store target r.2 r' ∧ (r'.1 = false → r.1 = false) ∧
          (r'.1 = false → ∀ mem ∈ l, Owns m w.store mem.type.handle → mem.type.handle ∈ r'.2)) fun _ _ => True := by
  induction l with
  | nil =>
    intro r _
    exact .pure ⟨rfl, ⟨List.Subset.refl _, fun _ x hx hnot => absurd hx hnot⟩, id, by simp⟩
  | cons mem l ihl =>
    rintro ⟨found, seen⟩ hlt
    have hrest := ihl fun mem' hmem' => hl mem' (by simp [hmem'])
    cases found with
    | true =>
      refine .bind (P := fun r' w' => w' = w ∧ r' = (true, seen)) (.pure ⟨rfl, rfl⟩) ?_
      rintro r' w1 ⟨rfl, rfl⟩
      refine (hrest _ hlt).mono fun r2 w2 ⟨hw, hs, hfound, _⟩ => ?_
      exact ⟨hw, hs, hfound, fun hr => absurd (hfound hr) (by simp)⟩
    | false =>
      refine .bind (ih seen mem.type (hl mem (by simp)) hlt) ?_
      rintro r1 w1 ⟨rfl, hs1, hin1⟩
      refine (hrest r1 ((unopened_anti hs1.sub).trans_lt hlt)).mono fun r2 w2 ⟨hw, hs2, hfound, hin2⟩ => ?_
      refine ⟨hw, hs1.trans hs2 hfound, fun _ => rfl, fun hr mem' hmem' ho => ?_⟩
      rcases mem_cons.1 hmem' with rfl | hmem'
      · exact hs2.sub (hin1 (hfound hr) ho)
      · exact hin2 hr mem' hmem' ho

lemma holds_outcomes (hc : Consistent m w) (target fuel) :
    ∀ (seen) (T), Embeddable m w.store T → w.store.unopened seen < fuel →
      Obeys w (holds target fuel seen T) (fun r w' => w' = w ∧ Searched m w.store target seen r ∧
        (r.1 = false → Owns m w.store T.handle → T.handle ∈ r.2)) fun _ _ => True := by
  induction fuel with
  | zero => exact fun _ _ _ hlt => absurd hlt (Nat.not_lt_zero _)
  | succ fuel ih =>
    intro seen T hT hlt
    have hstill : Searched m w.store target seen (false, seen) :=
      ⟨List.Subset.refl _, fun _ x hx hnot => absurd hx hnot⟩
    refine .bind ((view_outcomes T).weaken fun _ _ _ => trivial) ?_
    rintro V w1 ⟨rfl, hV⟩
    obtain ⟨M, hM, hMV⟩ := view?_eq_some.1 hV
    obtain ⟨t, ht, hkind, -⟩ := (hc.good.sound _ M hM).types _ V hMV
    refine .ite (fun hk => .pure ⟨rfl, hstill, fun _ ho => ?_⟩) fun hk => ?_
    · cases Option.some.inj (ht.symm.trans ho.type?)
      exact absurd hkind hk
    obtain ⟨hm, u, hu, hmember⟩ := hT
    have ho : Owns m w1.store T.handle := by
      obtain ⟨k, rfl⟩ := eq_struct_of_kind (hkind.symm.trans (not_not.1 hk))
      cases mem_unique ht hu
      exact eq_of_type?_struct hc.good.store ht ▸ hmember
    refine .ite (fun _ => .pure ⟨rfl, ⟨List.Subset.refl _, by simp⟩, by simp⟩) fun hne => ?_
    refine .ite (fun hin => .pure ⟨rfl, hstill, fun _ _ => by simpa using hin⟩) fun hnew => ?_
    have hfresh : T.handle ∉ seen := by simpa using hnew
    obtain ⟨i, hi, -⟩ := id ho
    have hlt' := unopened_cons_lt hi hfresh
    obtain ⟨V', hV', hv⟩ := hc.views _ ho
    have hTm : (⟨m, T.handle⟩ : TypeId) = T := by cases T; cases hm; rfl
    cases Option.some.inj ((hTm ▸ hV').symm.trans hV)
    refine (holds_members hv.types ih (false, T.handle :: seen) (hlt'.trans_le (Nat.le_of_lt_succ hlt))).mono ?_
    rintro r w2 ⟨hw, hs, -, hall⟩
    refine ⟨hw, ⟨fun x hx => hs.sub (.tail _ hx), fun hr x hx hnot => ?_⟩, fun _ _ => hs.sub (by simp)⟩
    -- The struct itself was opened here, all others further in.
    by_cases hxT : x = T.handle
    · subst hxT
      refine ⟨hne, fun k hk => ?_⟩
      obtain ⟨mem, hmem, rfl, hok⟩ := hv.embeds hc.good.store hk
      exact hall hr mem hmem hok
    · exact hs.clear hr x hx (by simp [hxT, hnot])

lemma holds_of_empty {target : Handle} (hV : w.view? T = some V) (hnone : V.members = #[]) (hne : T.handle ≠ target) :
    ∃ seen, holds target (fuel + 1) [] T w = .ok (false, seen) w := by
  rw [holds, bind_of_ok (view_known hV), hnone, if_neg hne]
  split <;> exact ⟨_, rfl⟩

end Act

def FieldsOf (s : Store) (types : List Handle) (fields : List Ty) : Prop :=
  List.Forall₂ (fun f t => ∃ u, s.type? f = some u ∧ t = u.held) types fields

section Emitting

variable {α : Type} {s : Store}

lemma Act.emit_of_ok (h : a w.store = .ok x s) : emit a w = .ok (.ok x) { w with store := s } := by
  simp only [emit, modifyGet, MonadStateOf.modifyGet, EStateM.modifyGet, h]

lemma Act.emit_of_error (h : a w.store = .error e s) : emit a w = .ok (.error e) { w with store := s } := by
  simp only [emit, modifyGet, MonadStateOf.modifyGet, EStateM.modifyGet, h]

lemma Act.attempt_of_ok (h : a w = .ok x w') : attempt a w = .ok (.ok x) w' := by
  simp only [attempt, tryCatch_apply, bind, EStateM.bind, h]
  rfl

end Emitting

lemma fieldTypes_cases (s types) : ∀ index, (∃ e, fieldTypes index types s = .error e s) ∨
      ∃ fields, FieldsOf s types fields ∧ fieldTypes index types s = .ok fields s := by
  induction types with
  | nil => exact fun index => .inr ⟨[], .nil, rfl⟩
  | cons h types ih =>
    intro index
    unfold fieldTypes
    rw [get_bind_apply]
    cases ht : s.type? h with
    | none => exact .inl ⟨_, rfl⟩
    | some t =>
      rcases ih (index + 1) with ⟨e, he⟩ | ⟨fields, hf, hok⟩
      · exact .inl ⟨e, bind_of_error he⟩
      · exact .inr ⟨_, .cons ⟨t, ht, by cases t <;> rfl⟩ hf, bind_of_ok hok⟩

lemma setStructBody_cases (s h types) :
    (∃ e, setStructBody h types s = .error e s) ∨ ∃ i fields, s.struct? h = some i ∧ FieldsOf s types fields ∧
        setStructBody h types s = .ok () (s.withFields h i fields) := by
  unfold setStructBody
  rcases cases_of_along (typeOf_along h) with ⟨e, he⟩ | ⟨t, -, hgo⟩
  · exact .inl ⟨e, bind_of_error he⟩
  rw [bind_of_ok hgo, get_bind_apply]
  cases s.struct? h with
  | none => exact .inl ⟨_, rfl⟩
  | some i =>
    rcases fieldTypes_cases s types 0 with ⟨e, he⟩ | ⟨fields, hf, hok⟩
    · exact .inl ⟨e, bind_of_error he⟩
    · exact .inr ⟨i, fields, rfl, hf, bind_of_ok hok⟩

lemma fieldTypes_of {types : List Handle} (hf : FieldsOf s types fields) : ∀ index, fieldTypes index types s = .ok fields s := by
  induction hf with
  | nil => exact fun _ => rfl
  | cons h _ ih =>
    intro index
    obtain ⟨t, ht, rfl⟩ := h
    unfold fieldTypes
    rw [get_bind_apply, ht]
    refine (bind_of_ok (ih _)).trans ?_
    cases t <;> rfl

lemma setStructBody_of {types : List Handle} (hi : s.struct? h = some i) (hf : FieldsOf s types fields) :
    setStructBody h types s = .ok () (s.withFields h i fields) := by
  have ht : s.type? h = some (.struct h) := by rw [type?, struct?_eq_some.1 hi]
  rw [setStructBody, bind_of_ok (typeOf_known ht), get_bind_apply, hi]
  exact bind_of_ok (fieldTypes_of hf 0)

def memberType? (w : World σ) (type : Option TypeId) (value : Option ValueId) : Option TypeId :=
  type <|> value.bind fun v => ((w.modules[v.module]?).bind (·.values[v.handle]?)).join

def TypeView.extended (V : TypeView) (mem : Member) : TypeView :=
  { V with members := V.members.push mem, places := V.places.insert mem.name V.members.size }

/-- Two views of a type that tell the same about it. -/
structure TypeView.Same (V V' : TypeView) : Prop where
  kind : V'.kind = V.kind
  members : V'.members = V.members
  places : ∀ name : Text, V'.places[name]? = V.places[name]?

/-- Nothing is told otherwise than before, neither by the store nor by a view. -/
structure Unchanged (w w' : World σ) : Prop where
  store : w'.store = w.store
  views : ∀ T V, w.view? T = some V → ∃ V', w'.view? T = some V' ∧ V.Same V'

lemma Unchanged.refl (w : World σ) : Unchanged w w := ⟨rfl, fun _ V hV => ⟨V, hV, rfl, rfl, fun _ => rfl⟩⟩

lemma view?_modify (hV : w.view? T = some V) (U) :
    ({ w with modules := w.modules.modify T.module fun i => { i with types := i.types.modify T.handle f } } :
      World σ).view? U = if U = T then some (f V) else w.view? U := by
  obtain ⟨M, hM, hMV⟩ := view?_eq_some.1 hV
  unfold view?
  by_cases hmod : U.module = T.module
  · rw [hmod, HashMap.getElem?_modify_self, hM, map_some, bind_some, bind_some]
    by_cases hh : U.handle = T.handle
    · have hU : U = T := by
        cases U
        cases T
        simp_all
      rw [hh, HashMap.getElem?_modify_self, hMV, if_pos hU]
      rfl
    · rw [if_neg (fun hU : U = T => hh (hU ▸ rfl)), HashMap.getElem?_modify, if_neg (by simpa using Ne.symm hh)]
  · rw [if_neg (fun hU : U = T => hmod (hU ▸ rfl)), HashMap.getElem?_modify, if_neg (by simpa using Ne.symm hmod)]

lemma view?_insert (hM : w.modules[T.module]? = some M) (V U) :
    ({ w with modules := w.modules.modify T.module fun i => { i with types := i.types.insert T.handle V } } :
      World σ).view? U = if U = T then some V else w.view? U := by
  unfold view?
  by_cases hmod : U.module = T.module
  · rw [hmod, HashMap.getElem?_modify_self, hM, map_some, bind_some, bind_some, HashMap.getElem?_insert]
    by_cases hU : U = T
    · simp [hU]
    · have hh : T.handle ≠ U.handle := by
        intro hh
        cases U
        cases T
        simp_all
      rw [if_neg hU, if_neg (by simpa using hh)]
  · rw [if_neg (fun hU : U = T => hmod (hU ▸ rfl)), HashMap.getElem?_modify, if_neg (by simpa using Ne.symm hmod)]

structure Gains (w : World σ) (T : TypeId) (mem : Member) (w' : World σ) : Prop where
  view : ∃ V, w.view? T = some V ∧ V.places[mem.name]? = none ∧
    (∀ U, w'.view? U = if U = T then some (V.extended mem) else w.view? U) ∧
    ∃ i fields, w.store.struct? T.handle = some i ∧
      FieldsOf w.store (V.members.toList.map (·.type.handle) ++ [mem.type.handle]) fields ∧
        w'.store = w.store.withFields T.handle i fields
  apart : ∃ seen, Act.holds T.handle (w.store.entries.size + 2) [] mem.type w = .ok (false, seen) w

lemma Act.syncBody_outcomes (hV : w.view? T = some V) : Obeys w (syncBody T)
      (fun _ w' => ∃ i fields, w.store.struct? T.handle = some i ∧
        FieldsOf w.store (V.members.toList.map (·.type.handle)) fields ∧
          w' = { w with store := w.store.withFields T.handle i fields }) fun e w' => w' = w ∧ ∃ f, e = .fault f := by
  refine .bind (P := fun U w' => w' = w ∧ U = V) ?_ ?_
  · refine ((view_outcomes T).mono ?_).weaken ?_
    · rintro U w1 ⟨rfl, hU⟩
      exact ⟨rfl, mem_unique hU hV⟩
    · rintro e w1 ⟨-, hnone⟩
      cases hnone.symm.trans hV
  rintro U w1 ⟨rfl, rfl⟩
  rcases setStructBody_cases w1.store T.handle (U.members.toList.map fun m => m.type.handle) with
    ⟨e, he⟩ | ⟨i, fields, hi, hf, hok⟩
  · rw [Obeys, bind_of_ok (emit_of_error he)]
    exact ⟨rfl, _, rfl⟩
  · rw [Obeys, bind_of_ok (emit_of_ok hok)]
    exact ⟨i, fields, hi, hf, rfl⟩

lemma unchanged_of_withdrawn {w1 : World σ} (hV : w.view? T = some V) (hfresh : V.places[mem.name]? = none)
    (hview : ∀ X, w1.view? X = if X = T then some (V.extended mem) else w.view? X) (hstore : w1.store = w.store) :
    Unchanged w { w1 with modules := w1.modules.modify T.module fun i => { i with types := i.types.modify T.handle fun v =>
      { v with members := v.members.pop, places := v.places.erase mem.name } } } := by
  have hback := view?_modify (f := fun v => { v with members := v.members.pop, places := v.places.erase mem.name })
    ((hview T).trans (if_pos rfl))
  refine ⟨hstore, fun X W hW => ?_⟩
  rw [hback X]
  by_cases hX : X = T
  · subst hX
    cases mem_unique hV hW
    refine ⟨_, if_pos rfl, rfl, by simp [TypeView.extended], fun other => ?_⟩
    by_cases hname : other = mem.name
    · subst hname
      rw [HashMap.getElem?_erase_self]
      exact hfresh.symm
    · simp [TypeView.extended, HashMap.getElem?_erase, HashMap.getElem?_insert, Ne.symm hname]
  · rw [if_neg hX, hview X, if_neg hX]
    exact ⟨W, hW, rfl, rfl, fun _ => rfl⟩

lemma Act.addMember_outcomes (T : TypeId) (name : Text) (type : Option TypeId) (value) :
    Obeys w (addMember T name type value)
      (fun mem w' => mem.name = name ∧ memberType? w type value = some mem.type ∧ mem.value = value ∧ Gains w T mem w')
      fun _ w' => Unchanged w w' := by
  refine .bind ((view_outcomes T).weaken ?_) ?_
  · rintro e w1 ⟨rfl, -⟩
    exact .refl _
  rintro V w1 ⟨rfl, hV⟩
  refine .ite (fun _ => .raise_bind (.refl _)) fun hfresh => ?_
  have hnone : V.places[name]? = none := by simpa using hfresh
  beta_reduce
  extract_lets rest
  have hrest : ∀ U, memberType? w1 type value = some U → Obeys w1 (rest U)
      (fun mem w' => mem.name = name ∧ memberType? w1 type value = some mem.type ∧ mem.value = value ∧ Gains w1 T mem w')
      fun _ w' => Unchanged w1 w' := by
    intro U hU
    refine .bind (P := fun s w' => w' = w1 ∧ s = w1.store) ⟨rfl, rfl⟩ ?_
    rintro s w2 ⟨rfl, rfl⟩
    refine .bind ((Obeys.and .self (.of_along (holds_same (R := Eq) _ _ _ _))).weaken ?_) ?_
    · rintro e w3 ⟨-, rfl⟩
      exact .refl _
    rintro ⟨inside, seen⟩ w3 ⟨hrun, -, rfl⟩
    refine .ite (fun _ => .raise_bind (.refl _)) fun hinside => ?_
    have happart : inside = false := by simpa using hinside
    subst happart
    -- The view gets the member first; if the body cannot follow, it is taken away again.
    refine .bind (P := fun _ w' => w' = { w3 with modules := w3.modules.modify T.module fun i =>
      { i with types := i.types.modify T.handle (·.extended ⟨name, U, value⟩) } }) (by exact rfl) ?_
    rintro _ w4 hw4
    have hview : ∀ X, w4.view? X = if X = T then some (V.extended ⟨name, U, value⟩) else w3.view? X := by
      intro X
      rw [hw4]
      exact view?_modify hV X
    have hstore : w4.store = w3.store := by rw [hw4]
    refine .bind ((attempt_obeys (syncBody_outcomes ((hview T).trans (if_pos rfl)))).weaken ?_) ?_
    · rintro e w5 ⟨⟨-, f, rfl⟩, he⟩
      exact absurd rfl (he f)
    rintro r w5 (⟨-, rfl, i, fields, hi, hf, hw5⟩ | ⟨f, rfl, rfl, -⟩)
    · refine .pure ⟨rfl, hU, rfl, ⟨V, hV, hnone, ?_, i, fields, hstore ▸ hi, ?_, ?_⟩, seen, hrun⟩
      · intro X
        rw [← hview X, hw5]
        rfl
      · rw [hstore] at hf
        simpa [TypeView.extended] using hf
      · rw [hw5, ← hstore]
    · have hback := unchanged_of_withdrawn hV hnone hview hstore
      exact hback
  cases type with
  | some U => exact hrest U rfl
  | none =>
    cases value with
    | none => exact .raise_bind (.refl _)
    | some v =>
      refine .bind ((typeOf_outcomes v).weaken fun _ _ h => h ▸ .refl _) ?_
      rintro U w2 ⟨rfl, hU⟩
      exact hrest U hU

lemma Act.addMember_accepts (name value) (hV : w.view? T = some V) (hfresh : V.places[name]? = none)
    (hapart : ∃ seen, holds T.handle (w.store.entries.size + 2) [] U w = .ok (false, seen) w)
    (hi : w.store.struct? T.handle = some i)
    (hf : FieldsOf w.store (V.members.toList.map (·.type.handle) ++ [U.handle]) fields) :
    ∃ w', addMember T name (some U) value w = .ok ⟨name, U, value⟩ w' := by
  obtain ⟨seen, hapart⟩ := hapart
  have hview := view?_modify (f := (·.extended ⟨name, U, value⟩)) hV T
  rw [if_pos rfl] at hview
  obtain ⟨w', hsync⟩ : ∃ w', syncBody T { w with modules := w.modules.modify T.module fun i =>
      { i with types := i.types.modify T.handle (·.extended ⟨name, U, value⟩) } } = .ok () w' := by
    rw [syncBody, bind_of_ok (view_known hview)]
    have hbody := setStructBody_of hi hf
    rw [bind_of_ok (emit_of_ok (by simpa [TypeView.extended] using hbody))]
    exact ⟨_, rfl⟩
  have hnew : V.places.contains name = false := by simpa using hfresh
  rw [addMember, bind_of_ok (view_known hV)]
  simp only [hnew, Bool.false_eq_true, if_false]
  change ∃ w', (holds T.handle (w.store.entries.size + 2) [] U >>= _) w = _
  rw [bind_of_ok hapart]
  exact ⟨w', bind_of_ok (attempt_of_ok hsync)⟩

end Arbor.Build
