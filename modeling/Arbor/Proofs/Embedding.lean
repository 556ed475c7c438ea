import Arbor.Proofs.Members

/-! Members and bases keep the structs of a module seen as they are, and none of them inside itself. -/

namespace Arbor.Build

open IR Diag Proofs Relation Std Option List Store Emit World

variable {σ : Type} {w w' : World σ} {m : Handle}
variable {h : Handle} {mem : Member} {s : Store} {i : StructInfo} {t : Ty} {T : TypeId} {V : TypeView}

lemma transGen_of_edge {α : Type} {r r' : α → α → Prop} {a b x y : α}
    (h : ∀ x y, r' x y → r x y ∨ x = a ∧ y = b) (hxy : TransGen r' x y) :
    TransGen r x y ∨ ReflTransGen r x a ∧ ReflTransGen r b y := by
  induction hxy with
  | single hstep =>
    rcases h _ _ hstep with hr | ⟨rfl, rfl⟩
    · exact .inl (.single hr)
    · exact .inr ⟨.refl, .refl⟩
  | tail _ hstep ih =>
    rcases h _ _ hstep with hr | ⟨rfl, rfl⟩
    · rcases ih with hold | ⟨hto, hfrom⟩
      · exact .inl (hold.tail hr)
      · exact .inr ⟨hto, hfrom.tail hr⟩
    · rcases ih with hold | ⟨hto, -⟩
      · exact .inr ⟨hold.to_reflTransGen, .refl⟩
      · exact .inr ⟨hto, .refl⟩

lemma apart_of_holds (hc : Consistent m w) {target : Handle} {seen : List Handle} (hT : Embeddable m w.store T)
    (ho : Owns m w.store T.handle) (hrun : Act.holds target (w.store.entries.size + 2) [] T w = .ok (false, seen) w) :
    ¬ReflTransGen (Embeds m w.store) T.handle target := by
  have hfuel : w.store.unopened [] < w.store.entries.size + 2 := by
    have := countP_le_length (p := fun h => decide (h ∉ ([] : List Handle))) (l := List.range w.store.entries.size)
    rw [length_range] at this
    exact Nat.lt_succ_of_le (this.trans (Nat.le_succ _))
  obtain ⟨-, hs, hin⟩ := (Act.holds_outcomes hc target _ [] T hT hfuel).of_ok hrun
  have hclosed : ∀ y, ReflTransGen (Embeds m w.store) T.handle y → y ∈ seen := by
    intro y hy
    induction hy with
    | refl => exact hin rfl ho
    | tail _ hstep ih => exact (hs.clear rfl _ ih (by simp)).2 _ hstep
  intro hreach
  exact (hs.clear rfl _ (hclosed _ hreach) (by simp)).1 rfl

lemma Mirrors.mono {s s' : Store} {V V' : TypeView} (hv : Mirrors m s h V) (hsame : V.Same V')
    (hbody : s'.body? h = s.body? h) (htypes : ∀ h t, s.type? h = some t → s'.type? h = some t)
    (howns : ∀ h, Owns m s h → Owns m s' h) : Mirrors m s' h V' := by
  obtain ⟨-, hmembers, hplaces⟩ := hsame
  refine ⟨hmembers ▸ hv.names, fun name k => ?_, ?_, fun mem hmem => ?_⟩
  · rw [hplaces, hmembers]
    exact hv.places name k
  · obtain ⟨fields, hb, hall⟩ := hv.body
    refine ⟨fields, hbody.trans hb, hmembers ▸ hall.imp ?_⟩
    rintro mem t ⟨u, hu, rfl⟩
    exact ⟨u, htypes _ _ hu, rfl⟩
  · obtain ⟨hmod, t, ht, hmember⟩ := hv.types mem (hmembers ▸ hmem)
    refine ⟨hmod, t, htypes _ _ ht, ?_⟩
    cases t with
    | struct k => exact howns k hmember
    | _ => exact hmember

structure Upholds (m : Handle) (w w' : World σ) : Prop extends Step w w' where
  consistent : Consistent m w → Consistent m w'

instance : IsPreorder (World σ) (Upholds m) where
  refl w := ⟨refl_of Step w, id⟩
  trans _ _ _ h k := ⟨trans_of Step h.toStep k.toStep, k.consistent ∘ h.consistent⟩

lemma Step.owns (h : Step w w') {k : Handle} (ho : Owns m w.store k) : Owns m w'.store k := by
  obtain ⟨i, hi, hm⟩ := ho
  have hle := h.store.entry k
  rw [struct?_eq_some.1 hi] at hle
  generalize he : w'.store.entry k = e at hle
  cases hle with
  | struct hmod => exact ⟨_, struct?_eq_some.2 he, hmod.trans hm⟩

lemma Step.embeddable (h : Step w w') (hT : Embeddable m w.store T) : Embeddable m w'.store T := by
  obtain ⟨hmod, t, ht, hmember⟩ := hT
  refine ⟨hmod, t, h.store.type? ht, ?_⟩
  cases t with
  | struct k => exact h.owns hmember
  | _ => exact hmember

/-- What else happens meanwhile: anything that leaves the structs of the module alone. -/
structure Spares (m : Handle) (w w' : World σ) : Prop extends Step w w' where
  structs : ∀ h i, i.module = m → w'.store.struct? h = some i → w.store.struct? h = some i
  bodies : ∀ h, Owns m w.store h → w'.store.body? h = w.store.body? h
  views : ∀ h V, Owns m w.store h → w.view? ⟨m, h⟩ = some V → ∃ V', w'.view? ⟨m, h⟩ = some V' ∧ V.Same V'

lemma Spares.upholds (h : Spares m w w') : Upholds m w w' := by
  refine ⟨h.toStep, fun hc => ⟨h.good hc.good, hc.live.mono h.toStep, fun k ho => ?_, fun k hk => ?_⟩⟩
  · obtain ⟨i, hi, hm⟩ := ho
    have ho : Owns m w.store k := ⟨i, h.structs k i hm hi, hm⟩
    obtain ⟨V, hV, hv⟩ := hc.views k ho
    obtain ⟨V', hV', hsame⟩ := h.views k V ho hV
    exact ⟨V', hV', hv.mono hsame (h.bodies k ho) (fun _ _ ht => h.store.type? ht) fun _ => h.toStep.owns⟩
  · refine hc.acyclic k (TransGen.mono ?_ _ _ hk)
    rintro x y ⟨⟨i, hi, hm⟩, fields, hb, hmem⟩
    have ho : Owns m w.store x := ⟨i, h.structs x i hm hi, hm⟩
    exact ⟨ho, fields, (h.bodies x ho).symm.trans hb, hmem⟩

structure Aloof (w w' : World σ) : Prop where
  structs : ∀ h, w'.store.struct? h = w.store.struct? h
  views : ∀ T V, w.view? T = some V → ∃ V', w'.view? T = some V' ∧ V.Same V'

lemma Aloof.spares (h : Aloof w w') (hstep : Step w w') : Spares m w w' :=
  ⟨hstep, fun k _ _ hi => h.structs k ▸ hi, fun k _ => by rw [body?, h.structs, body?], fun k V _ hV => h.views _ V hV⟩

lemma Unchanged.aloof (h : Unchanged w w') : Aloof w w' := ⟨fun _ => by rw [h.store], h.views⟩

def Own (m : Handle) (w : World σ) (T : TypeId) : Prop := T.module = m ∧ Owns m w.store T.handle

lemma Own.eq (h : Own m w T) : T = ⟨m, T.handle⟩ := by
  cases T
  cases h.1
  rfl

lemma Consistent.view (hc : Consistent m w) (hT : Own m w T) :
    ∃ V, w.view? T = some V ∧ Mirrors m w.store T.handle V := by
  obtain ⟨V, hV, hv⟩ := hc.views _ hT.2
  refine ⟨V, ?_, hv⟩
  rw [hT.eq]
  exact hV

lemma Own.embeddable (h : Own m w T) : Embeddable m w.store T := ⟨h.1, _, h.2.type?, h.2⟩

lemma Act.addMember_refused (hc : Consistent m w) (hU : Own m w U)
    (hreach : ReflTransGen (Embeds m w.store) U.handle T.handle) (name value) :
    ∃ e w', addMember T name (some U) value w = .error e w' := by
  cases hx : addMember T name (some U) value w with
  | error e w' => exact ⟨e, w', rfl⟩
  | ok mem w' =>
    obtain ⟨-, htype, -, -, seen, hapart⟩ := (addMember_outcomes _ _ _ _).of_ok hx
    rw [← Option.some.inj htype] at hapart
    exact absurd hreach (apart_of_holds hc hU.embeddable hU.2 hapart)

lemma Mirrors.extended (hv : Mirrors m s h V) (hfresh : V.places[mem.name]? = none) :
    ((V.extended mem).members.toList.map Member.name).Nodup ∧
      ∀ name k, (V.extended mem).places[name]? = some k ↔ ((V.extended mem).members.toList[k]?).map Member.name = some name := by
  have hnone : ∀ k : Nat, (V.members.toList[k]?).map Member.name ≠ some mem.name := by
    intro k hk
    rw [← hv.places, hfresh] at hk
    cases hk
  have hlist : (V.extended mem).members.toList = V.members.toList ++ [mem] := by simp [TypeView.extended]
  have hsize : V.members.size = V.members.toList.length := by simp
  rw [hlist]
  constructor
  · rw [map_append, nodup_append]
    refine ⟨hv.names, by simp, ?_⟩
    rintro name hname _ hmem rfl
    obtain ⟨old, hold, rfl⟩ := mem_map.1 hname
    obtain ⟨k, hk⟩ := mem_iff_getElem?.1 hold
    exact hnone k (by rw [hk]; exact congrArg some (mem_singleton.1 hmem))
  · intro name k
    show (V.places.insert mem.name V.members.size)[name]? = some k ↔ _
    rw [HashMap.getElem?_insert]
    by_cases hname : mem.name = name
    · subst hname
      simp only [beq_self_eq_true, if_true, Option.some.injEq]
      -- No earlier place has the new name, and the new member stands last.
      rcases Nat.lt_trichotomy k V.members.toList.length with hlt | rfl | hgt
      · rw [List.getElem?_append_left hlt]
        exact ⟨fun h => by omega, fun h => absurd h (hnone k)⟩
      · rw [List.getElem?_concat_length]
        exact ⟨fun _ => rfl, fun _ => hsize⟩
      · rw [List.getElem?_eq_none (by simpa using hgt)]
        exact ⟨fun h => by omega, fun h => by cases h⟩
    · rw [if_neg (by simpa using hname), hv.places]
      rcases Nat.lt_trichotomy k V.members.toList.length with hlt | rfl | hgt
      · rw [List.getElem?_append_left hlt]
      · rw [List.getElem?_eq_none (Nat.le_refl _), List.getElem?_concat_length]
        exact ⟨fun h => (by cases h), fun h => absurd (Option.some.inj h) hname⟩
      · rw [List.getElem?_eq_none (Nat.le_of_lt hgt), List.getElem?_eq_none (by simpa using hgt)]

lemma type?_withFields (hi : s.struct? h = some i) (fields k) : (s.withFields h i fields).type? k = s.type? k := by
  rw [withFields, setStruct, type?, entry_setIfInBounds, type?]
  by_cases hk : k = h ∧ h < s.entries.size
  · rw [if_pos hk, hk.1, struct?_eq_some.1 hi]
  · rw [if_neg hk]

lemma owns_withFields (hi : s.struct? h = some i) (fields k) : Owns m (s.withFields h i fields) k ↔ Owns m s k := by
  unfold Owns
  rw [withFields, setStruct, struct?, entry_setIfInBounds]
  by_cases hk : k = h ∧ h < s.entries.size
  · rw [if_pos hk, hk.1, hi]
    simp
  · rw [if_neg hk]
    rfl

lemma Gains.embeds (hc : Consistent m w) (hT : Own m w T) (hmem : Embeddable m w.store mem.type)
    (h : Gains w T mem w') {x y : Handle} (hxy : Embeds m w'.store x y) :
    Embeds m w.store x y ∨ (x = T.handle ∧ y = mem.type.handle) ∧ Owns m w.store mem.type.handle := by
  obtain ⟨V, hV, -, -, i, fields, hi, hf, hstore⟩ := h.view
  obtain ⟨ho, body, hb, hin⟩ := hxy
  rw [hstore] at ho hb
  have ho := (owns_withFields hi fields x).1 ho
  rw [body?_withFields hi] at hb
  by_cases hx : x = T.handle
  · rw [if_pos hx] at hb
    cases hb
    obtain ⟨f, hfmem, u, hu, heq⟩ := Placement.exists_of_forall₂_of_mem hf hin
    cases eq_struct_of_held heq
    rcases mem_append.1 hfmem with hold | hnew
    · obtain ⟨old, holdmem, rfl⟩ := mem_map.1 hold
      obtain ⟨V', hV', hv⟩ := hc.view hT
      cases mem_unique hV hV'
      obtain ⟨body, hbody, hall⟩ := hv.body
      obtain ⟨t, htin, u', hu', rfl⟩ := Placement.exists_of_forall₂_of_mem hall.flip holdmem
      cases mem_unique hu hu'
      exact .inl ⟨ho, body, hx ▸ hbody, htin⟩
    · cases mem_singleton.1 hnew
      have hy := eq_of_type?_struct hc.good.store hu
      obtain ⟨-, u', hu', hmember⟩ := hmem
      cases mem_unique hu hu'
      exact .inr ⟨⟨hx, hy.symm⟩, hy ▸ hmember⟩
  · rw [if_neg hx] at hb
    exact .inl ⟨ho, body, hb, hin⟩

lemma Gains.consistent (hc : Consistent m w) (hstep : Step w w') (hT : Own m w T)
    (hmem : Embeddable m w.store mem.type) (h : Gains w T mem w') : Consistent m w' := by
  obtain ⟨V, hV, hfresh, hviews, i, fields, hi, hf, hstore⟩ := h.view
  obtain ⟨seen, hrun⟩ := h.apart
  refine ⟨hstep.good hc.good, hc.live.mono hstep, fun k ho => ?_, fun k hk => ?_⟩
  · rw [hstore] at ho
    have ho := (owns_withFields hi fields k).1 ho
    obtain ⟨U, hU, hu⟩ := hc.views k ho
    rw [hviews]
    by_cases hk : (⟨m, k⟩ : TypeId) = T
    · rw [if_pos hk]
      cases Option.some.inj (hV.symm.trans (hk ▸ hU))
      obtain ⟨hnames, hplaces⟩ := hu.extended hfresh
      have hkT : k = T.handle := congrArg TypeId.handle hk
      have hlist : (V.extended mem).members.toList = V.members.toList ++ [mem] := by simp [TypeView.extended]
      refine ⟨_, rfl, hnames, hplaces, ⟨fields, ?_, ?_⟩, fun mem' hmem' => ?_⟩
      · rw [hstore, body?_withFields hi, if_pos hkT]
      · rw [hlist, ← forall₂_map_left_iff
          (R := fun f t => ∃ u, w'.store.type? f = some u ∧ t = u.held), hstore]
        simpa only [FieldsOf, map_append, map_singleton, type?_withFields hi] using hf
      · apply hstep.embeddable
        rw [hlist] at hmem'
        rcases mem_append.1 hmem' with hold | hnew
        · exact hu.types mem' hold
        · exact mem_singleton.1 hnew ▸ hmem
    · rw [if_neg hk]
      refine ⟨U, hU, hu.mono ⟨rfl, rfl, fun _ => rfl⟩ ?_ (fun _ _ ht => hstep.store.type? ht) fun _ => hstep.owns⟩
      rw [hstore, body?_withFields hi, if_neg]
      rintro rfl
      exact hk hT.eq.symm
  · -- A cycle needs the new field, but its type was searched and does not lead back here.
    have hedge : ∀ x y, Embeds m w'.store x y → Embeds m w.store x y ∨ x = T.handle ∧ y = mem.type.handle :=
      fun x y hxy => (h.embeds hc hT hmem hxy).imp_right And.left
    rcases transGen_of_edge hedge hk with hold | ⟨hto, hfrom⟩
    · exact hc.acyclic k hold
    · by_cases ho : Owns m w.store mem.type.handle
      · exact apart_of_holds hc hmem ho hrun (hfrom.trans hto)
      · refine hc.acyclic k (TransGen.mono (fun x y hxy => ?_) _ _ hk)
        exact (h.embeds hc hT hmem hxy).resolve_right fun hnew => ho hnew.2

namespace Act

section

variable (hc : Consistent m w) (hT : Own m w T)

include hc hT

lemma addMember_upholds {name : Text} {type : Option TypeId} {value : Option ValueId}
    (hU : ∀ U, memberType? w type value = some U → Embeddable m w.store U) :
    Along (Upholds m) w (addMember T name type value) := by
  apply Obeys.along
  have hboth := (addMember_outcomes T name type value).and (.of_along (addMember_along (w := w) T name type value))
  refine (hboth.mono ?_).weaken ?_
  · rintro mem w1 ⟨⟨-, htype, -, hgains⟩, hsilent, -⟩
    exact ⟨⟨hsilent.toStep, fun _ => hgains.consistent hc hsilent.toStep hT (hU _ htype)⟩, trivial⟩
  · rintro e w1 ⟨hsame, hsilent⟩
    exact (hsame.aloof.spares hsilent.toStep).upholds

lemma extendStruct_upholds {base : Option TypeId}
    (hbase : ∀ b, base = some b → Own m w b) : Along (Upholds m) w (extendStruct T base) := by
  refine .bind (view_same T) ?_
  rintro V w1 - rfl
  cases base with
  | none => exact .throw
  | some base =>
    have hb := hbase base rfl
    refine .ite (fun _ => raise_bind) fun _ => ?_
    refine .bind (P := fun l w' => w' = w1 ∧ ∀ mem ∈ l, Embeddable m w1.store mem.type) ?_ ?_
    · refine .look (view_reads base) fun U hU => ?_
      obtain ⟨U', hU', hu⟩ := hc.view hb
      cases mem_unique hU hU'
      exact .pure ⟨rfl, hu.types⟩
    rintro inherited w2 - ⟨rfl, hinherited⟩
    refine .bind (addMember_upholds hc hT ?_) fun _ w3 r3 _ => ?_
    · rintro U ⟨⟩
      exact hb.embeddable
    -- What is inherited goes on to be admissible while the struct grows.
    refine (Along.forM (I := fun w' => Consistent m w' ∧ Step w2 w') inherited ?_ w3
      ⟨r3.consistent hc, r3.toStep⟩).mono fun _ _ _ _ => trivial
    rintro mem hmem w4 ⟨hc4, hstep⟩
    refine .ite (fun _ => ?_) fun _ => .pure ⟨hc4, hstep⟩
    refine .bind (addMember_upholds hc4 ⟨hT.1, hstep.owns hT.2⟩ ?_) fun _ w5 r5 _ => ?_
    · rintro U ⟨⟩
      exact hstep.embeddable (hinherited mem hmem)
    · exact .pure ⟨r5.consistent hc4, trans_of Step hstep r5.toStep⟩

lemma extendNamed_upholds {name : Text}
    (hbase : ∀ sym base w', typeSymbol T.module name true w = .ok sym w' → sym.bind Symbol.type = some base →
      w.store.typeKind base.handle = .struct → Own m w base) : Along (Upholds m) w (extendNamed T name) := by
  refine .bind (view_same T) ?_
  rintro V w1 - rfl
  have hsame := Obeys.and .self (.of_along (typeSymbol_along (R := Eq) (w := w1) T.module name true))
  refine .bind (P := fun sym w' => w' = w1 ∧ typeSymbol T.module name true w1 = .ok sym w') ?_ ?_
  · refine ((hsame.mono ?_).weaken ?_).along
    · rintro sym w' ⟨hx, rfl, -⟩
      exact ⟨refl_of (Upholds m) _, rfl, hx⟩
    · rintro e w' ⟨-, rfl⟩
      exact refl_of (Upholds m) _
  rintro sym w2 - ⟨rfl, hsym⟩
  cases hs : sym.bind Symbol.type with
  | none => exact .throw
  | some base =>
    refine .bind (P := fun k w' => w' = w2 ∧ ∃ V, w2.view? base = some V ∧ k = V.kind) ?_ ?_
    · refine .look (view_reads base) fun U hU => ?_
      exact .pure ⟨rfl, U, hU, rfl⟩
    rintro k w3 - ⟨rfl, U, hU, rfl⟩
    refine .ite (fun _ => raise_bind) fun hk => ?_
    refine extendStruct_upholds hc hT ?_
    rintro b ⟨⟩
    refine hbase sym base w3 hsym hs ?_
    obtain ⟨M, hM, hMU⟩ := view?_eq_some.1 hU
    obtain ⟨t, ht, hkind, -⟩ := (hc.good.sound _ M hM).types _ U hMU
    rw [typeKind_of_type? ht, ← hkind]
    exact not_not.1 hk

end

end Act

end Arbor.Build
