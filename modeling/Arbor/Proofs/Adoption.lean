import Arbor.Proofs.Views

/-! How a module takes over the types of another one. Copying follows pointers, members and the values
of members, and stops at a struct that has members already. It comes to an end, and every struct is
copied once, if no struct is reached again from its own first member. -/

namespace Arbor.Proofs

/-- The action ends with a result that satisfies `Q`, or with a failure that is allowed. -/
abbrev Delivers {ε σ α : Type} (F : ε → Prop) (s : σ) (a : EStateM ε σ α) (Q : α → σ → Prop) : Prop :=
  Obeys s a Q fun e _ => F e

lemma Obeys.forM {ε σ α : Type} {E : ε → σ → Prop} {s : σ} {f : α → EStateM ε σ PUnit} {I : List α → σ → Prop} (l)
    (h : ∀ before x after s, before ++ x :: after = l → I before s → Obeys s (f x) (fun _ => I (before ++ [x])) E)
    (hI : I [] s) : Obeys s (l.forM f) (fun _ => I l) E := by
  -- The list splits into what is done and what is left, by induction on the latter.
  have key : ∀ (after before : List α) s, before ++ after = l → I before s → Obeys s (after.forM f) (fun _ => I l) E := by
    intro after
    induction after with
    | nil =>
      intro before s hl hI
      rw [List.append_nil] at hl
      exact .pure (hl ▸ hI)
    | cons x after ih =>
      intro before s hl hI
      refine .bind (h before x after s hl hI) fun _ s' hI' => ih (before ++ [x]) s' ?_ hI'
      rw [List.append_assoc]
      exact hl
  exact key l [] s rfl hI

end Arbor.Proofs

namespace Arbor.Build

open IR Diag Proofs Relation Std Std.HashMap

variable {x y : Handle} {a : Member} {D M M' : Module} {s : Store} {T : TypeId} {V : TypeView}

namespace Module

def membersOf (M : Module) (x : Handle) : List Member := (M.types[x]?).elim [] (·.members.toList)

def placesOf (M : Module) (x : Handle) : HashMap Text Nat := (M.types[x]?).elim {} TypeView.places

lemma membersOf_eq (hV : M.types[x]? = some V) : M.membersOf x = V.members.toList := by
  simp only [membersOf, hV, Option.elim_some]

lemma placesOf_eq (hV : M.types[x]? = some V) : M.placesOf x = V.places := by
  simp only [placesOf, hV, Option.elim_some]

def revised (M : Module) (x : Handle) (f : TypeView → TypeView) : Module := { M with types := M.types.modify x f }

lemma revised_self (hV : M.types[x]? = some V) : (M.revised x f).types[x]? = some (f V) := by
  simp only [revised, getElem?_modify_self, hV, Option.map_some]

lemma revised_of_ne (hne : y ≠ x) : (M.revised x f).types[y]? = M.types[y]? := by
  simp only [revised, getElem?_modify]
  exact if_neg (by simpa using Ne.symm hne)

lemma mem_revised : y ∈ (M.revised x f).types ↔ y ∈ M.types := mem_modify

end Module

/-- Two members with one name, type and value, seen from whichever modules. -/
structure Member.Same (a b : Member) : Prop where
  name : b.name = a.name
  type : b.type.handle = a.type.handle
  value : b.value.map ValueId.handle = a.value.map ValueId.handle

/-- A faithful copy of a list of members: the same ones in the same order, each found by its name. -/
structure Copied (source own : List Member) (places : HashMap Text Nat) : Prop where
  same : List.Forall₂ Member.Same source own
  places : ∀ (i : Nat) a, own[i]? = some a → places[a.name]? = some i

lemma Copied.nil (places) : Copied [] [] places := ⟨.nil, by simp⟩

lemma names_eq (h : List.Forall₂ Member.Same source own) : own.map Member.name = source.map Member.name := by
  induction h with
  | nil => rfl
  | cons hab _ ih => rw [List.map_cons, List.map_cons, hab.name, ih]

lemma Copied.push {places : HashMap Text Nat} (h : Copied source own places)
    (hab : a.Same b) (hnew : a.name ∉ source.map Member.name) :
    Copied (source ++ [a]) (own ++ [b]) (places.insert a.name own.length) where
  same := List.rel_append h.same (.cons hab .nil)
  places i c hc := by
    rw [getElem?_insert]
    rcases Nat.lt_trichotomy i own.length with hlt | rfl | hgt
    · rw [List.getElem?_append_left hlt] at hc
      have hmem : c.name ∈ source.map Member.name := names_eq h.same ▸ List.mem_map_of_mem (List.mem_of_getElem? hc)
      have hne : ¬(a.name == c.name) = true := fun heq => hnew (eq_of_beq heq ▸ hmem)
      rw [if_neg hne]
      exact h.places i c hc
    · rw [List.getElem?_concat_length] at hc
      cases hc
      rw [hab.name, beq_self_eq_true, if_pos rfl]
    · rw [List.getElem?_eq_none (by simp; omega)] at hc
      cases hc

def Faithful (D M : Module) (x : Handle) : Prop := Copied (D.membersOf x) (M.membersOf x) (M.placesOf x)

def Touches (D : Module) (a : Member) (y : Handle) : Prop :=
  a.type.handle = y ∨ ∃ v T, a.value = some v ∧ D.values[v.handle]? = some (some T) ∧ T.handle = y

def PointsTo (D : Module) (x y : Handle) : Prop := ∃ V e, D.types[x]? = some V ∧ V.elem = some e ∧ e.handle = y

def Leads (D : Module) (x y : Handle) : Prop := PointsTo D x y ∨ ∃ a ∈ D.membersOf x, Touches D a y

def Forward (D : Module) : Prop := ∀ x a y, (D.membersOf x).head? = some a → Touches D a y → ¬ReflTransGen (Leads D) y x

/-- A module that knows all it refers to. -/
structure SelfContained (s : Store) (d : Handle) (D : Module) : Prop where
  sound : D.Sound s
  elem : ∀ (x : Handle) (V : TypeView) (e : TypeId), D.types[x]? = some V → V.elem = some e → e.module = d ∧ e.handle ∈ D.types
  member : ∀ x, ∀ a ∈ D.membersOf x, a.type.module = d ∧ a.type.handle ∈ D.types
  value : ∀ x, ∀ a ∈ D.membersOf x, ∀ v, a.value = some v → v.module = d ∧
    ∃ T, D.values[v.handle]? = some (some T) ∧ T.module = d ∧ T.handle ∈ D.types
  struct : ∀ x, D.membersOf x ≠ [] → s.typeKind x = .struct
  names : ∀ x, ((D.membersOf x).map Member.name).Nodup

/-! How deep copying can nest: it goes from a pointer to what it points to, or from a struct without
members to one of fewer structs that have none. -/

open Classical in
noncomputable def within (n : Nat) (p : Handle → Prop) : Finset Handle := (Finset.range n).filter p

lemma mem_within : x ∈ within n p ↔ x < n ∧ p x := by
  simp only [within, Finset.mem_filter, Finset.mem_range]

lemma card_within_le (n) (p) : (within n p).card ≤ n := by
  have hsub : within n p ⊆ Finset.range n := fun x hx => Finset.mem_range.2 (mem_within.1 hx).1
  have hcard := Finset.card_le_card hsub
  rwa [Finset.card_range] at hcard

lemma card_within_mono (h : ∀ x, p x → q x) : (within n p).card ≤ (within n q).card :=
  Finset.card_le_card fun x hx => mem_within.2 ((mem_within.1 hx).imp_right (h x))

lemma card_within_lt (h : ∀ x, p x → q x) (hx : x < n) (hq : q x) (hp : ¬p x) :
    (within n p).card < (within n q).card := by
  refine Finset.card_lt_card (Finset.ssubset_iff_subset_ne.2 ⟨fun y hy => ?_, fun heq => hp ?_⟩)
  · exact mem_within.2 ((mem_within.1 hy).imp_right (h y))
  · have hmem : x ∈ within n q := mem_within.2 ⟨hx, hq⟩
    exact (mem_within.1 (heq ▸ hmem)).2

def Unfilled (D M : Module) (t x : Handle) : Prop :=
  ReflTransGen (Leads D) t x ∧ D.membersOf x ≠ [] ∧ M.membersOf x = []

noncomputable def nesting (n : Nat) (D M : Module) (t : Handle) : Nat :=
  (within n (Unfilled D M t)).card * (n + 1) + (within n (ReflTransGen (PointsTo D) t)).card

lemma nesting_lt (n D M t) : nesting n D M t < (n + 1) * (n + 1) := by
  have hp := card_within_le n (Unfilled D M t)
  have he := card_within_le n (ReflTransGen (PointsTo D) t)
  have hmul := Nat.mul_le_mul_right (n + 1) hp
  have hsq : (n + 1) * (n + 1) = n * (n + 1) + (n + 1) := by ring
  unfold nesting
  omega

lemma PointsTo.type? (hD : D.Sound s) (h : PointsTo D x y) : ∃ u, s.type? x = some (.ptr u) ∧ s.type? y = some u := by
  obtain ⟨V, e, hV, he, rfl⟩ := h
  obtain ⟨t, ht, -, helem⟩ := hD.types x V hV
  obtain ⟨u, rfl, hu⟩ := helem e he
  exact ⟨u, ht, hu⟩

lemma PointsTo.acyclic (hD : D.Sound s) (h : PointsTo D x y) : ¬ReflTransGen (PointsTo D) y x := by
  obtain ⟨u, hx, hy⟩ := h.type? hD
  have hsmaller : ∀ {z}, ReflTransGen (PointsTo D) y z → ∃ t, s.type? z = some t ∧ sizeOf t ≤ sizeOf u := by
    intro z hz
    induction hz with
    | refl => exact ⟨u, hy, Nat.le_refl _⟩
    | tail _ hstep ih =>
      obtain ⟨t, ht, hle⟩ := ih
      obtain ⟨v, hv, hz⟩ := hstep.type? hD
      cases Option.mem_unique ht hv
      refine ⟨v, hz, Nat.le_trans ?_ hle⟩
      simp
  intro hback
  obtain ⟨t, ht, hle⟩ := hsmaller hback
  cases Option.mem_unique hx ht
  simp at hle

lemma Unfilled.back (h : Unfilled D M' u x)
    (hempty : ∀ y, M'.membersOf y = [] → M.membersOf y = []) (hlead : Leads D t u) : Unfilled D M t x :=
  ⟨.head hlead h.1, h.2.1, hempty x h.2.2⟩

lemma nesting_elem (hD : D.Sound s) (hx : x < n) (hempty : ∀ y, M'.membersOf y = [] → M.membersOf y = [])
    (h : PointsTo D x y) : nesting n D M' y < nesting n D M x := by
  have hp : (within n (Unfilled D M' y)).card ≤ (within n (Unfilled D M x)).card :=
    card_within_mono fun z hz => hz.back hempty (.inl h)
  have he : (within n (ReflTransGen (PointsTo D) y)).card < (within n (ReflTransGen (PointsTo D) x)).card :=
    card_within_lt (fun z hz => .head h hz) hx .refl (h.acyclic hD)
  have hmul := Nat.mul_le_mul_right (n + 1) hp
  unfold nesting
  omega

lemma nesting_mono (hempty : ∀ y, M'.membersOf y = [] → M.membersOf y = []) : nesting n D M' x ≤ nesting n D M x := by
  have hp : (within n (Unfilled D M' x)).card ≤ (within n (Unfilled D M x)).card :=
    card_within_mono fun z hz => ⟨hz.1, hz.2.1, hempty z hz.2.2⟩
  exact Nat.add_le_add_right (Nat.mul_le_mul_right (n + 1) hp) _

lemma nesting_member (hx : x < n) (hempty : ∀ y, M'.membersOf y = [] → M.membersOf y = []) (ha : a ∈ D.membersOf x)
    (h : Touches D a y) (hown : M.membersOf x = []) (hlate : ¬Unfilled D M' y x) :
    nesting n D M' y < nesting n D M x := by
  have hself : Unfilled D M x x := ⟨.refl, List.ne_nil_of_mem ha, hown⟩
  have hp : (within n (Unfilled D M' y)).card < (within n (Unfilled D M x)).card :=
    card_within_lt (fun z hz => hz.back hempty (.inr ⟨a, ha, h⟩)) hx hself hlate
  have he := card_within_le n (ReflTransGen (PointsTo D) y)
  have hmul := Nat.mul_le_mul_right (n + 1) hp
  rw [Nat.succ_mul] at hmul
  unfold nesting
  omega

structure FillsAt (D M M' : Module) (x : Handle) : Prop where
  kept : M.membersOf x ≠ [] → M'.membersOf x = M.membersOf x ∧ M'.placesOf x = M.placesOf x
  filled : M.membersOf x = [] → M'.membersOf x = [] ∨ Faithful D M' x

lemma FillsAt.of_eq (h : M'.types[x]? = M.types[x]?) : FillsAt D M M' x := by
  have hm : M'.membersOf x = M.membersOf x := by simp only [Module.membersOf, h]
  have hp : M'.placesOf x = M.placesOf x := by simp only [Module.placesOf, h]
  exact ⟨fun _ => ⟨hm, hp⟩, fun he => .inl (hm.trans he)⟩

lemma Faithful.mono (hf : Faithful D M x) (h : FillsAt D M M' x) : Faithful D M' x := by
  by_cases he : M.membersOf x = []
  · rcases h.filled he with hempty | hfull
    · have hsource : D.membersOf x = [] := List.forall₂_nil_right_iff.1 (he ▸ hf.same)
      unfold Faithful
      rw [hsource, hempty]
      exact .nil _
    · exact hfull
  · obtain ⟨hm, hp⟩ := h.kept he
    unfold Faithful
    rw [hm, hp]
    exact hf

lemma FillsAt.trans (h : FillsAt D M M' x) (k : FillsAt D M' M'' x) : FillsAt D M M'' x where
  kept hne := by
    obtain ⟨hm, hp⟩ := h.kept hne
    obtain ⟨hm', hp'⟩ := k.kept (hm ▸ hne)
    exact ⟨hm'.trans hm, hp'.trans hp⟩
  filled he := by
    rcases h.filled he with hempty | hfull
    · exact k.filled hempty
    · exact .inr (hfull.mono k)

structure FillsIn (D : Module) (S : Handle → Prop) (M M' : Module) : Prop where
  seen : ∀ x, x ∈ M.types → x ∈ M'.types
  outside : ∀ x, ¬S x → M'.types[x]? = M.types[x]?
  structs : ∀ x, FillsAt D M M' x

namespace FillsIn

variable {D M M' : Module}

lemma of_types (h : M'.types = M.types) : FillsIn D S M M' :=
  ⟨fun _ hx => h ▸ hx, fun _ _ => by rw [h], fun _ => .of_eq (by rw [h])⟩

lemma revised (hx : S x) (hm : ∀ V, (f V).members = V.members)
    (hp : ∀ V, (f V).places = V.places) : FillsIn D S M (M.revised x f) := by
  refine ⟨fun y hy => Module.mem_revised.2 hy, fun y hy => Module.revised_of_ne ?_, fun y => ?_⟩
  · exact fun heq => hy (heq ▸ hx)
  by_cases hyx : y = x
  · subst hyx
    cases hV : M.types[y]? with
    | none => exact .of_eq (by simp only [Module.revised, getElem?_modify_self, hV, Option.map_none])
    | some V =>
      have hself := Module.revised_self (f := f) hV
      have hmembers : (M.revised y f).membersOf y = M.membersOf y := by
        rw [Module.membersOf_eq hself, Module.membersOf_eq hV, hm]
      have hplaces : (M.revised y f).placesOf y = M.placesOf y := by
        rw [Module.placesOf_eq hself, Module.placesOf_eq hV, hp]
      exact ⟨fun _ => ⟨hmembers, hplaces⟩, fun he => .inl (hmembers.trans he)⟩
  · exact .of_eq (Module.revised_of_ne hyx)

lemma trans (h : FillsIn D S M M') (k : FillsIn D S M' M'') : FillsIn D S M M'' :=
  ⟨fun x hx => k.seen x (h.seen x hx), fun x hx => (k.outside x hx).trans (h.outside x hx),
    fun x => (h.structs x).trans (k.structs x)⟩

lemma widen (h : FillsIn D S M M') (hS : ∀ x, S x → S' x) : FillsIn D S' M M' :=
  ⟨h.seen, fun x hx => h.outside x fun hs => hx (hS x hs), h.structs⟩

lemma empty (h : FillsIn D S M M') (x) (he : M'.membersOf x = []) : M.membersOf x = [] := by
  by_contra hne
  exact hne (((h.structs x).kept hne).1 ▸ he)

end FillsIn

/-- The module `m` copies from the module `d`; nothing but views of `m` changes meanwhile. -/
structure Copying {σ : Type} (s : Store) (d m : Handle) (D M : Module) (w : World σ) : Prop where
  store : w.store = s
  source : w.modules[d]? = some D
  own : w.modules[m]? = some M
  kinds : ∀ (x : Handle) (V : TypeView), M.types[x]? = some V → V.kind = s.typeKind x

namespace Copying

variable {σ : Type} {s : Store} {d m : Handle} {D M : Module} {w : World σ}

lemma update (h : Copying s d m D M w) (hne : d ≠ m) (f)
    (hkinds : ∀ (x) (V), (f M).types[x]? = some V → V.kind = s.typeKind x) :
    Copying s d m D (f M) { w with modules := w.modules.modify m f } where
  store := h.store
  source := by rw [getElem?_modify, if_neg (by simpa using Ne.symm hne), h.source]
  own := by rw [getElem?_modify_self, h.own, Option.map_some]
  kinds := hkinds

end Copying

namespace Act

variable {σ : Type} {F : Failure → Prop} {s : Store} {d m : Handle} {D M : Module} {w : World σ}

lemma need_ends {x : α} : Delivers F w (need (some x)) fun y w' => w' = w ∧ y = x := ⟨rfl, rfl⟩

lemma view_ends (hK : w.modules[k]? = some K) (hV : K.types[x]? = some V) :
    Delivers F w (view ⟨k, x⟩) fun V' w' => w' = w ∧ V' = V := by
  refine .bind (module_known hK) ?_
  rintro _ w' ⟨rfl, rfl⟩
  rw [hV]
  exact need_ends

lemma typeOf_ends (hK : w.modules[k]? = some K) (hT : K.values[v]? = some (some T)) :
    Delivers F w (typeOf ⟨k, v⟩) fun T' w' => w' = w ∧ T' = T := by
  refine .bind (module_known hK) ?_
  rintro _ w' ⟨rfl, rfl⟩
  rw [hT]
  refine .bind need_ends ?_
  rintro _ w' ⟨rfl, rfl⟩
  exact need_ends

lemma updateType_ends (h : Copying s d m D M w) (hne : d ≠ m) (x) (f)
    (hf : ∀ V, (f V).kind = V.kind) : Delivers F w (updateType ⟨m, x⟩ f) fun _ w' =>
      Copying s d m D (M.revised x f) w' := by
  refine h.update hne (·.revised x f) fun y V hV => ?_
  simp only [Module.revised, getElem?_modify] at hV
  split at hV
  · next hy =>
    obtain ⟨V', hV', rfl⟩ := Option.map_eq_some_iff.1 hV
    exact (hf V').trans (eq_of_beq hy ▸ h.kinds _ V' hV')
  · exact h.kinds y V hV

lemma valueOf_ends (h : Copying s d m D M w) (hne : d ≠ m) (T) (hv : v ≠ noHandle) :
    Delivers F w (valueOf m T v) fun r w' => r = some ⟨m, v⟩ ∧
      Copying s d m D { M with values := M.values.insertIfNew v T } w' := by
  unfold valueOf
  rw [if_neg hv]
  exact .bind (P := fun _ w' => Copying s d m D { M with values := M.values.insertIfNew v T } w')
    (h.update hne (fun i => { i with values := i.values.insertIfNew v T }) h.kinds) fun _ _ h' => .pure ⟨rfl, h'⟩

lemma typeAt_ends (h : Copying s d m D M w) (hne : d ≠ m) (hx : x ≠ noHandle) :
    Delivers F w (typeAt m x) fun _ w' => ∃ M', Copying s d m D M' w' ∧ FillsIn D (· = x) M M' ∧ x ∈ M'.types ∧
      M'.membersOf x = M.membersOf x ∧ ∀ V, M'.types[x]? = some V → M.types[x]? = some V ∨ V.elem = none := by
  unfold typeAt
  rw [if_neg hx]
  refine .bind (module_known h.own) ?_
  rintro M w' ⟨rfl, rfl⟩
  refine .ite (fun hnew => ?_) fun hold => .pure ⟨M, h, .of_types rfl, ?_, rfl, fun _ => .inl⟩
  · have hnone : M.types[x]? = none := by simpa using hnew
    refine .bind (P := fun s' w'' => s' = s ∧ w'' = w') ⟨h.store, rfl⟩ ?_
    rintro s w'' ⟨rfl, rfl⟩
    let V : TypeView := { name := s.typeName x, kind := s.typeKind x }
    have hM' : Copying s d m D { M with types := M.types.insert x V }
        { w'' with modules := w''.modules.modify m fun i => { i with types := i.types.insert x V } } := by
      refine h.update hne (fun i => { i with types := i.types.insert x V }) fun y U hU => ?_
      simp only [getElem?_insert] at hU
      split at hU
      · next hy =>
        cases hU
        exact eq_of_beq hy ▸ rfl
      · exact h.kinds y U hU
    have hother : ∀ y, y ≠ x → (M.types.insert x V)[y]? = M.types[y]? := fun y hy => by
      rw [getElem?_insert, if_neg (by simpa using Ne.symm hy)]
    have hempty : M.membersOf x = [] := by simp only [Module.membersOf, hnone, Option.elim_none]
    have hempty' : Module.membersOf { M with types := M.types.insert x V } x = [] := by
      simp only [Module.membersOf, getElem?_insert_self, Option.elim_some, V]
    refine .bind (P := fun _ w1 => Copying s d m D { M with types := M.types.insert x V } w1) hM' fun _ w1 h1 =>
      .pure ⟨_, h1, ⟨fun y hy => ?_, fun y hy => hother y hy, fun y => ?_⟩, ?_, hempty'.trans hempty.symm, ?_⟩
    · exact mem_insert.2 (.inr hy)
    · by_cases hy : y = x
      · subst hy
        exact ⟨fun hne => absurd hempty hne, fun _ => .inl hempty'⟩
      · exact .of_eq (hother y hy)
    · exact mem_insert.2 (.inl (beq_self_eq_true x))
    · intro U hU
      rw [getElem?_insert_self] at hU
      cases hU
      exact .inr rfl
  · simpa using hold

end Act

lemma SelfContained.type? (hD : SelfContained s d D) (hx : x ∈ D.types) :
    ∃ V t, D.types[x]? = some V ∧ s.type? x = some t := by
  obtain ⟨t, ht, -⟩ := hD.sound.types x _ (getElem?_eq_some_getElem hx)
  exact ⟨_, t, getElem?_eq_some_getElem hx, ht⟩

lemma lt_size_of_type? (ht : s.type? x = some t) : x < s.entries.size := by
  by_contra hge
  simp only [Store.type?, Store.entry_of_size_le (Nat.le_of_not_lt hge), reduceCtorEq] at ht

def Behind (D : Module) (a : Member) (z : Handle) : Prop := ∃ y, Touches D a y ∧ ReflTransGen (Leads D) y z

structure Filling (D : Module) (x : Handle) (before : List Member) (M M' : Module) : Prop where
  seen : ∀ y, y ∈ M.types → y ∈ M'.types
  outside : ∀ y, ¬ReflTransGen (Leads D) x y → M'.types[y]? = M.types[y]?
  others : ∀ y, y ≠ x → FillsAt D M M' y
  copied : Copied before (M'.membersOf x) (M'.placesOf x)

namespace Filling

variable {D M : Module} {x : Handle} {before after : List Member} {a : Member}

lemma empty (h : Filling D x before M M') (hx : M.membersOf x = []) (y) (hy : M'.membersOf y = []) :
    M.membersOf y = [] := by
  by_cases hyx : y = x
  · rwa [hyx]
  · by_contra hne
    exact hne (((h.others y hyx).kept hne).1 ▸ hy)

lemma done (h : Filling D x (D.membersOf x) M M')
    (hempty : M.membersOf x = []) : FillsIn D (ReflTransGen (Leads D) x) M M' where
  seen := h.seen
  outside := h.outside
  structs y := by
    by_cases hyx : y = x
    · subst hyx
      exact ⟨fun hne => absurd hempty hne, fun _ => .inr h.copied⟩
    · exact h.others y hyx

end Filling

section

variable (hforward : Forward D) (hsplit : before ++ a :: after = D.membersOf x) (hstarted : before ≠ [] → M.membersOf x ≠ [])

include hforward hsplit hstarted

lemma not_unfilled (hy : Touches D a y) : ¬Unfilled D M y x := by
  rintro ⟨hreach, -, hempty⟩
  cases before with
  | nil => exact hforward x a y (by rw [← hsplit]; rfl) hy hreach
  | cons b before => exact hstarted (by simp) hempty

lemma FillsIn.here
    (h : FillsIn D (Behind D a) M M') : M'.membersOf x = M.membersOf x ∧ M'.placesOf x = M.placesOf x := by
  cases before with
  | nil =>
    have hout : ¬Behind D a x := fun ⟨y, hy, hreach⟩ => hforward x a y (by rw [← hsplit]; rfl) hy hreach
    have heq := h.outside x hout
    exact ⟨by simp only [Module.membersOf, heq], by simp only [Module.placesOf, heq]⟩
  | cons b before => exact (h.structs x).kept (hstarted (by simp))

end

section Recursion

variable {σ : Type} {F : Failure → Prop} {s : Store} {d m : Handle} {D : Module}
variable {w : World σ}

def TakenOver (s : Store) (d m : Handle) (D M : Module) (x : Handle) (T : TypeId) (w : World σ) : Prop :=
  T = ⟨m, x⟩ ∧ ∃ M', Copying s d m D M' w ∧ FillsIn D (ReflTransGen (Leads D) x) M M' ∧ x ∈ M'.types ∧
    (M.membersOf x = [] → Faithful D M' x)

lemma TakenOver.after (hfills : FillsIn D (ReflTransGen (Leads D) x) M1 M) (h : TakenOver s d m D M x T w) :
    TakenOver s d m D M1 x T w := by
  obtain ⟨hT, M', h', hfills', hseen, hfull⟩ := h
  refine ⟨hT, M', h', hfills.trans hfills', hseen, fun hempty => ?_⟩
  exact ((hfills.structs x).filled hempty).elim hfull fun hf => hf.mono (hfills'.structs x)

def Copies (F : Failure → Prop) (s : Store) (d m : Handle) (D : Module) (bound : Nat)
    (adopt : TypeId → Act σ TypeId) : Prop :=
  ∀ (w : World σ) (M : Module) (T : TypeId), Copying s d m D M w → T.module = d → T.handle ∈ D.types →
    nesting s.entries.size D M T.handle < bound →
    Delivers F w (adopt T) (TakenOver s d m D M T.handle)

namespace Act

lemma adoptWith_ends
    (hcopies : Copies F s d m D bound adopt) (h : Copying s d m D M w) (hne : d ≠ m) (hv : v.module = d)
    (hv0 : v.handle ≠ noHandle) (hT : D.values[v.handle]? = some (some T)) (hTd : T.module = d)
    (hseen : T.handle ∈ D.types) (hdeep : nesting s.entries.size D M T.handle < bound) :
    Delivers F w (adoptWith m adopt (some v)) fun r w' => r = some ⟨m, v.handle⟩ ∧ ∃ M', Copying s d m D M' w' ∧
      FillsIn D (ReflTransGen (Leads D) T.handle) M M' := by
  subst hv
  refine .ite (fun heq => absurd heq hne) fun _ => ?_
  refine .bind (typeOf_ends h.source hT) ?_
  rintro _ w1 ⟨rfl, rfl⟩
  refine .bind (hcopies w1 M _ h hTd hseen hdeep) ?_
  rintro _ w2 ⟨rfl, M2, h2, hfills, -⟩
  refine (valueOf_ends h2 hne _ hv0).mono ?_
  rintro r w3 ⟨rfl, h3⟩
  exact ⟨rfl, _, h3, hfills.trans (.of_types rfl)⟩

lemma memberValue_ends (hcopies : Copies F s d m D bound adopt)
    (h : Copying s d m D M w) (hne : d ≠ m) (hs : s.WF) (hD : SelfContained s d D) (ha : a ∈ D.membersOf x)
    (hdeep : ∀ y, Touches D a y → nesting s.entries.size D M y < bound) :
    Delivers F w (adoptWith m adopt a.value) fun r w' => r.map ValueId.handle = a.value.map ValueId.handle ∧
      ∃ M', Copying s d m D M' w' ∧ FillsIn D (Behind D a) M M' := by
  cases hv : a.value with
  | none => exact .pure ⟨rfl, M, h, .of_types rfl⟩
  | some v =>
    obtain ⟨hvd, T, hT, hTd, hseen⟩ := hD.value x a ha v hv
    obtain ⟨op, hop, -⟩ := hD.sound.values v.handle _ hT
    have htouch : Touches D a T.handle := .inr ⟨v, T, hv, hT, rfl⟩
    refine (adoptWith_ends hcopies h hne hvd (hs.ne_of_operand? hop) hT hTd hseen (hdeep _ htouch)).mono ?_
    rintro r w' ⟨rfl, M', h', hfills⟩
    exact ⟨rfl, M', h', hfills.widen fun z hz => ⟨T.handle, htouch, hz⟩⟩

lemma member_ends {M M1 : Module}
    (hcopies : Copies F s d m D bound adopt) (h : Copying s d m D M1 w) (hne : d ≠ m) (hs : s.WF)
    (hD : SelfContained s d D) (hforward : Forward D) (hx : x < s.entries.size) (hseen : x ∈ M.types)
    (hempty : M.membersOf x = []) (hsplit : before ++ a :: after = D.membersOf x) (hfilling : Filling D x before M M1)
    (hdeep : nesting s.entries.size D M x ≤ bound) : Delivers F w (do
        updateType ⟨m, x⟩ fun v => { v with places := v.places.insert a.name v.members.size }
        let type ← adopt a.type
        let value ← adoptWith m adopt a.value
        updateType ⟨m, x⟩ fun v => { v with members := v.members.push { name := a.name, type, value } })
      fun _ w' => ∃ M', Copying s d m D M' w' ∧ Filling D x (before ++ [a]) M M' := by
  have ha : a ∈ D.membersOf x := by rw [← hsplit]; simp
  have hstarted : before ≠ [] → M1.membersOf x ≠ [] := by
    intro hbefore hnil
    exact hbefore (List.forall₂_nil_right_iff.1 (hnil ▸ hfilling.copied.same))
  obtain ⟨V1, hV1⟩ : ∃ V, M1.types[x]? = some V := ⟨_, getElem?_eq_some_getElem (hfilling.seen x hseen)⟩
  refine .bind (updateType_ends h hne x _ fun _ => rfl) fun _ w2 h2 => ?_
  generalize hM2 : M1.revised x (fun v => { v with places := v.places.insert a.name v.members.size }) = M2 at h2
  have hself2 := hM2 ▸ Module.revised_self hV1
  have hmembers₂ : M2.membersOf x = M1.membersOf x := by
    rw [Module.membersOf_eq hself2, Module.membersOf_eq hV1]
  have hother2 : ∀ y, y ≠ x → M2.types[y]? = M1.types[y]? := fun y hy => hM2 ▸ Module.revised_of_ne hy
  have hfill2 : ∀ y, M2.membersOf y = [] → M.membersOf y = [] := fun y hy => by
    refine hfilling.empty hempty y ?_
    by_cases hyx : y = x
    · rwa [hyx, ← hmembers₂, ← hyx]
    · rwa [Module.membersOf, ← hother2 y hyx]
  have hdeep' : ∀ {M' : Module}, FillsIn D (Behind D a) M2 M' → ∀ y, Touches D a y →
      nesting s.entries.size D M' y < bound := fun {M'} hM' y hy => by
    have hstarted' : before ≠ [] → M'.membersOf x ≠ [] := fun hb he => hstarted hb (hmembers₂ ▸ hM'.empty x he)
    exact Nat.lt_of_lt_of_le (nesting_member hx (fun z hz => hfill2 z (hM'.empty z hz)) ha hy hempty
      (not_unfilled hforward hsplit hstarted' hy)) hdeep
  obtain ⟨htd, htseen⟩ := hD.member x a ha
  have htouch : Touches D a a.type.handle := .inl rfl
  refine .bind (hcopies w2 M2 a.type h2 htd htseen (hdeep' (.of_types rfl) _ htouch)) ?_
  rintro _ w3 ⟨rfl, M3, h3, hfills3, -⟩
  have hfills3 : FillsIn D (Behind D a) M2 M3 := hfills3.widen fun z hz => ⟨_, htouch, hz⟩
  refine .bind (memberValue_ends hcopies h3 hne hs hD ha (hdeep' hfills3)) fun value w4 ⟨hvalue, M4, h4, hfills4⟩ => ?_
  have hfills := hfills3.trans hfills4
  obtain ⟨hmembers₄, hplaces4⟩ := hfills.here hforward hsplit fun hb => hmembers₂.symm ▸ hstarted hb
  have hseen2 : ∀ y, y ∈ M1.types → y ∈ M2.types := fun y hy => hM2 ▸ Module.mem_revised.2 hy
  obtain ⟨V4, hV4⟩ : ∃ V, M4.types[x]? = some V :=
    ⟨_, getElem?_eq_some_getElem (hfills.seen x (hseen2 x (hfilling.seen x hseen)))⟩
  let b : Member := { name := a.name, type := ⟨m, a.type.handle⟩, value }
  let f : TypeView → TypeView := fun v => { v with members := v.members.push b }
  have hlast : Delivers F w4 (updateType ⟨m, x⟩ f) fun _ w' => Copying s d m D (M4.revised x f) w' :=
    updateType_ends h4 hne x f fun _ => rfl
  refine hlast.mono fun _ w5 h5 => ⟨_, h5, ?_, ?_, ?_, ?_⟩
  · exact fun y hy => Module.mem_revised.2 (hfills.seen y (hseen2 y (hfilling.seen y hy)))
  · intro y hy
    have hyx : y ≠ x := fun heq => hy (heq ▸ .refl)
    have hbehind : ¬Behind D a y := fun ⟨z, hz, hreach⟩ => hy (.head (.inr ⟨a, ha, hz⟩) hreach)
    rw [Module.revised_of_ne hyx, hfills.outside y hbehind, hother2 y hyx, hfilling.outside y hy]
  · intro y hyx
    have hsame : FillsAt D M4 (M4.revised x f) y := .of_eq (Module.revised_of_ne hyx)
    exact (((hfilling.others y hyx).trans (.of_eq (hother2 y hyx))).trans (hfills.structs y)).trans hsame
  · have hself : (M4.revised x f).types[x]? = some { V4 with members := V4.members.push b } := Module.revised_self hV4
    have hnames := hD.names x
    rw [← hsplit, List.map_append] at hnames
    have hnew : a.name ∉ before.map Member.name := fun hmem => (List.nodup_append.1 hnames).2.2 _ hmem _ (by simp) rfl
    have hab : a.Same b := ⟨rfl, rfl, hvalue⟩
    have hpush := hfilling.copied.push hab hnew
    rw [Module.membersOf_eq hself, Module.placesOf_eq hself, Array.toList_push, ← Module.membersOf_eq hV4,
      ← Module.placesOf_eq hV4, hmembers₄, hmembers₂, hplaces4, Module.placesOf_eq hself2]
    rwa [Module.placesOf_eq hV1, show (M1.membersOf x).length = V1.members.size by
      rw [Module.membersOf_eq hV1, Array.length_toList]] at hpush

lemma members_ends {depth : Nat} (hcopies : Copies F s d m D depth adopt)
    (h : Copying s d m D M w) (hne : d ≠ m) (hs : s.WF) (hD : SelfContained s d D) (hforward : Forward D)
    (hV : D.types[x]? = some V) (hx : x < s.entries.size) (hseen : x ∈ M.types)
    (hdeep : nesting s.entries.size D M x ≤ depth) : Delivers F w (do
        if (← view ⟨m, x⟩).kind = .struct && (← view ⟨m, x⟩).members.isEmpty then V.members.toList.forM fun mem => do
            updateType ⟨m, x⟩ fun v => { v with places := v.places.insert mem.name v.members.size }
            let type ← adopt mem.type
            let value ← adoptWith m adopt mem.value
            updateType ⟨m, x⟩ fun v => { v with members := v.members.push { name := mem.name, type, value } }
        pure ⟨m, x⟩) (TakenOver s d m D M x) := by
  obtain ⟨U, hU⟩ : ∃ U, M.types[x]? = some U := ⟨_, getElem?_eq_some_getElem hseen⟩
  refine .bind (view_ends h.own hU) ?_
  rintro U w1 ⟨rfl, rfl⟩
  refine .bind (view_ends h.own hU) ?_
  rintro U w2 ⟨rfl, rfl⟩
  refine .ite (fun hcond => ?_) fun hcond => .pure ⟨rfl, M, h, .of_types rfl, hseen, fun hempty => ?_⟩
  · simp only [Bool.and_eq_true, Array.isEmpty_iff] at hcond
    have hempty : M.membersOf x = [] := by rw [Module.membersOf_eq hU, hcond.2]
    have hstart : Filling D x [] M M := ⟨fun _ => id, fun _ _ => rfl, fun _ _ => .of_eq rfl, hempty ▸ .nil _⟩
    rw [← Module.membersOf_eq hV]
    refine .bind (.forM (I := fun before w' => ∃ M', Copying s d m D M' w' ∧ Filling D x before M M')
      (D.membersOf x) (fun before a after w' hsplit ⟨M', h', hfilling⟩ => ?_) ⟨M, h, hstart⟩) ?_
    · exact member_ends hcopies h' hne hs hD hforward hx hseen hempty hsplit hfilling hdeep
    · rintro _ w' ⟨M', h', hfilling⟩
      exact .pure ⟨rfl, M', h', hfilling.done hempty, hfilling.seen x hseen, fun _ => hfilling.copied⟩
  · have hsource : D.membersOf x = [] := by
      by_contra hmembers
      have hkind : U.kind = .struct := (h.kinds x U hU).trans (hD.struct x hmembers)
      rw [Module.membersOf_eq hU] at hempty
      simp [hkind, Array.toList_eq_nil_iff.1 hempty] at hcond
    unfold Faithful
    rw [hsource, hempty]
    exact .nil _

lemma adoptType_copies (hne : d ≠ m) (hs : s.WF) (hD : SelfContained s d D) (hforward : Forward D) (depth) :
    Copies (σ := σ) F s d m D depth (adoptType m depth) := by
  induction depth with
  | zero => exact fun _ _ _ _ _ _ hdeep => absurd hdeep (Nat.not_lt_zero _)
  | succ depth ih =>
    rintro w M ⟨k, x⟩ h hk hx hdeep
    obtain ⟨V, t, hV, ht⟩ := hD.type? hx
    subst hk
    have hsize := lt_size_of_type? ht
    have hx0 : x ≠ noHandle := hs.ne_noHandle fun he => by simp only [Store.type?, he, reduceCtorEq] at ht
    have hdeep := Nat.le_of_lt_succ hdeep
    refine .ite (fun heq => absurd heq hne) fun _ => ?_
    refine .bind (view_ends h.source hV) ?_
    rintro V w1 ⟨rfl, rfl⟩
    refine .bind (typeAt_ends h hne hx0) fun _ w2 ⟨M2, h2, hfills2, hseen2, _⟩ => ?_
    have hfills2 : FillsIn D (ReflTransGen (Leads D) x) M M2 := hfills2.widen fun y hy => hy ▸ .refl
    -- The rest is the same whether or not the type is a pointer.
    have hrest := fun {w3 : World σ} {M3 : Module} (h3 : Copying s k m D M3 w3)
        (hfills : FillsIn D (ReflTransGen (Leads D) x) M M3) hseen =>
      (members_ends ih h3 hne hs hD hforward hV hsize hseen
        (Nat.le_trans (nesting_mono hfills.empty) hdeep)).mono fun _ _ => TakenOver.after hfills
    cases he : V.elem with
    | none => exact hrest h2 hfills2 hseen2
    | some e =>
      obtain ⟨U, hU⟩ : ∃ U, M2.types[x]? = some U := ⟨_, getElem?_eq_some_getElem hseen2⟩
      obtain ⟨hek, heseen⟩ := hD.elem x V e hV he
      have hpoints : PointsTo D x e.handle := ⟨V, e, hV, he, rfl⟩
      refine .bind (view_ends h2.own hU) ?_
      rintro U w3 ⟨rfl, rfl⟩
      refine .ite (fun _ => ?_) fun _ => hrest h2 hfills2 hseen2
      have hlt := nesting_elem hD.sound hsize hfills2.empty hpoints
      refine .bind (ih w3 M2 e h2 hek heseen (Nat.lt_of_lt_of_le hlt hdeep)) ?_
      rintro _ w4 ⟨rfl, M4, h4, hfills4, -⟩
      have hfills4 : FillsIn D (ReflTransGen (Leads D) x) M2 M4 := hfills4.widen fun y hy => .head (.inl hpoints) hy
      refine .bind (updateType_ends h4 hne x _ fun _ => rfl) fun _ w5 h5 => hrest h5 ?_ ?_
      · exact (hfills2.trans hfills4).trans (.revised .refl (fun _ => rfl) fun _ => rfl)
      · exact Module.mem_revised.2 (hfills4.seen x hseen2)

lemma ownType_ends (h : Copying s d m D M w) (hne : d ≠ m) (hs : s.WF) (hD : SelfContained s d D)
    (hforward : Forward D) (hT : T.module = d) (hseen : T.handle ∈ D.types) :
    Delivers F w (ownType m T) (TakenOver s d m D M T.handle) := by
  refine .bind (P := fun n w' => n = (s.entries.size + 1) * (s.entries.size + 1) ∧ w' = w) ?_ ?_
  · exact ⟨by rw [← h.store], rfl⟩
  · rintro _ w' ⟨rfl, rfl⟩
    exact adoptType_copies hne hs hD hforward _ w' M T h hT hseen (nesting_lt ..)

end Act

end Recursion

end Arbor.Build
