import Arbor.Proofs.World

/-! How modules see types and values: every view agrees with the store, whoever makes it. -/

namespace Arbor.IR

def Ty.widens (t u : Ty) : Bool :=
  let a := t.kind
  let b := u.kind
  t == u
    || (a == .bool && b.isInteger)
    || (a.isInteger && b.isInteger && a.bits < b.bits)
    || (a == .f32 && b == .f64)
    || (a.isInteger && b == .f32 && a.bits ≤ 16)
    || (a.isInteger && b == .f64 && a.bits ≤ 32)
    || (a == .pointer && b == .bytes)

lemma Store.WF.ne_of_operand? {s : Store} (hs : s.WF) (hv : s.operand? h = some v) : h ≠ noHandle := by
  refine hs.ne_noHandle fun he => ?_
  rw [operand?, he] at hv
  cases hv

end Arbor.IR

namespace Arbor.Build

open IR Diag Proofs Std Option

variable {σ : Type} {w : World σ} {R : World σ → World σ → Prop} {m h : Handle} {op : Operand} {T : Option TypeId}

def Live (w : World σ) (m : Handle) : Prop := ∃ M, w.modules[m]? = some M

lemma Live.mono (r : Step w w') (h : Live w m) : Live w' m := by
  obtain ⟨M, hM⟩ := h
  obtain ⟨M', hM', -⟩ := r.values m M hM
  exact ⟨M', hM'⟩

lemma Good.is_of_value (hg : Good w)
    (hM : w.modules[m]? = some M) (hx : M.values[h]? = some x) : ∃ op t, Is w ⟨m, h⟩ op t := by
  obtain ⟨op, hop, hT⟩ := (hg.sound m M hM).values h x hx
  cases x with
  | none => exact ⟨op, .void, M, none, hM, hx, fun T hT => (by cases hT), hop⟩
  | some T =>
    obtain ⟨t, ht, -⟩ := hT T rfl
    refine ⟨op, t, M, some T, hM, hx, fun T' hT' => ?_, hop⟩
    cases hT'
    exact ht

lemma Good.values_none {w' : World σ} (hg : Good w) (hm : w'.modules = w.modules) (hh : w.store.entries.size ≤ h)
    (hM : w'.modules[m]? = some M) :
    M.values[h]? = none := by
  cases hx : M.values[h]? with
  | none => rfl
  | some x =>
    obtain ⟨v, hv, -⟩ := (hg.sound m M (hm ▸ hM)).values h x hx
    unfold Store.operand? at hv
    rw [Store.entry_of_size_le hh] at hv
    cases hv

namespace Act

lemma update_along (hr : R w { w with modules := w.modules.modify m f })
    (h : Q () { w with modules := w.modules.modify m f }) : Along R w (update m f) Q := ⟨hr, h⟩

section Reading

variable [IsPreorder (World σ) R]

lemma store_along : Along R w store fun s w' => w' = w ∧ s = w.store := ⟨refl_of R w, rfl, rfl⟩

lemma typeOf_along (hv : Is w v op t) : Along R w (typeOf v) fun T w' => w' = w ∧ w.store.type? T.handle = some t := by
  obtain ⟨M, x, hM, hx, ht, -⟩ := hv
  refine .look (module_along v.module) fun M' hM' => ?_
  cases mem_unique hM hM'
  refine .look (need_along _) fun y hy => ?_
  cases mem_unique hx hy
  exact (need_along x).mono fun T w1 _ h => ⟨h.1, ht T h.2⟩

lemma view_sound (hg : Good w) (T) : Along R w (view T) fun V w' => w' = w ∧
    ∃ t, w.store.type? T.handle = some t ∧ V.kind = t.kind ∧
      ∀ e, V.elem = some e → ∃ u, t = .ptr u ∧ w.store.type? e.handle = some u := by
  refine .look (module_along T.module) fun M hM => ?_
  refine (need_along _).mono ?_
  rintro V w1 - ⟨rfl, hV⟩
  exact ⟨rfl, (hg.sound _ M hM).types _ V hV⟩

lemma view_along (hg : Good w) {T : TypeId} (ht : w.store.type? T.handle = some t) :
    Along R w (view T) fun V w' => w' = w ∧ V.kind = t.kind ∧ ∀ e, V.elem = some e → ∃ u, t = .ptr u ∧
      w.store.type? e.handle = some u :=
  (view_sound hg T).mono fun _ _ _ ⟨hw, _, ht', h⟩ => ⟨hw, mem_unique ht' ht ▸ h⟩

lemma typeKind_along (hg : Good w) {T : TypeId} (ht : w.store.type? T.handle = some t) :
    Along R w (typeKind T) fun k w' => w' = w ∧ k = t.kind := by
  refine .bind (view_along hg ht) ?_
  rintro V w' - ⟨rfl, hk, -⟩
  exact .pure ⟨rfl, hk⟩

lemma typeName_along (T) : Along R w (typeName T) fun _ w' => w' = w ∧ Live w T.module := by
  refine .bind (P := fun _ w' => w' = w ∧ Live w T.module) (.bind (module_along T.module) ?_) ?_
  · rintro M w' - ⟨rfl, hM⟩
    exact (need_along _).mono fun V w1 _ h => ⟨h.1, M, hM⟩
  · rintro V w' - ⟨rfl, hm⟩
    exact .pure ⟨rfl, hm⟩

end Reading

lemma typeAt_along (hh : h ≠ noHandle → ∃ t, w.store.type? h = some t) :
    Along Silent w (typeAt m h) fun r w' => w'.store = w.store ∧ (∀ T, r = some T → h ≠ noHandle ∧ T = ⟨m, h⟩) ∧
      ∀ M', w'.modules[m]? = some M' → ∃ M, w.modules[m]? = some M ∧ M'.values = M.values := by
  refine .ite (fun _ => .pure ⟨rfl, nofun, fun M' hM' => ⟨M', hM', rfl⟩⟩) fun h0 => ?_
  obtain ⟨t, ht⟩ := hh h0
  refine .bind (module_along m) ?_
  rintro M w' - ⟨rfl, hM⟩
  have hdone : ∀ T, some (TypeId.mk m h) = some T → h ≠ noHandle ∧ T = ⟨m, h⟩ := fun T hT => ⟨h0, (some.inj hT).symm⟩
  refine .ite (fun _ => ?_) fun _ => .pure ⟨rfl, hdone, fun M' hM' => ⟨M', hM', rfl⟩⟩
  refine .bind store_along ?_
  rintro s w1 - ⟨rfl, rfl⟩
  refine .bind (P := fun _ w2 => w2.store = w1.store ∧ ∀ M', w2.modules[m]? = some M' →
    ∃ M, w1.modules[m]? = some M ∧ M'.values = M.values) (update_along ?_ ⟨rfl, fun M' hM' => ?_⟩)
    fun _ w2 _ hs => .pure ⟨hs.1, hdone, hs.2⟩
  · refine silent_update (fun _ _ _ _ => id) (fun K hg hK => ?_) fun _ => ⟨rfl, rfl, rfl⟩
    refine ⟨fun x V hV => ?_, (hg.sound m K hK).values⟩
    simp only [HashMap.getElem?_insert] at hV
    split at hV
    · next hx =>
      cases hV
      cases beq_iff_eq.1 hx
      exact ⟨t, ht, Emit.typeKind_of_type? ht, nofun⟩
    · exact (hg.sound m K hK).types x V hV
  · simp only [HashMap.getElem?_modify_self, hM, map_some, some.injEq] at hM'
    exact ⟨M, hM, hM' ▸ rfl⟩

lemma valueOf_along (hop : w.store.operand? h = some op)
    (hT : ∀ T', T = some T' → ∃ t, w.store.type? T'.handle = some t ∧
      (Settled w.store op → w.store.code.valueTy op = t)) :
    Along Silent w (valueOf m T h) fun r w' => w'.store = w.store ∧ (r = none → h = noHandle) ∧
      ∀ v, r = some v → v = ⟨m, h⟩ ∧ ∀ M, w.modules[m]? = some M → ∃ M', w'.modules[m]? = some M' ∧
        M'.values[h]? = some ((M.values[h]?).getD T) := by
  refine .ite (fun h0 => .pure ⟨rfl, fun _ => h0, nofun⟩) fun h0 => ?_
  refine .bind (P := fun _ w1 => w1 = { w with modules := w.modules.modify m fun i => { i with values := i.values.insertIfNew h T } })
    (update_along ?_ rfl) ?_
  · refine silent_update (fun M hM x y hy => ?_) (fun K hg hK => ?_) fun _ => ⟨rfl, rfl, rfl⟩
    · simp only [HashMap.getElem?_insertIfNew]
      split
      · next hx =>
        cases beq_iff_eq.1 hx.1
        exact absurd (HashMap.mem_iff_isSome_getElem?.2 (by rw [hy]; rfl)) hx.2
      · exact hy
    · refine ⟨(hg.sound m K hK).types, fun x y hy => ?_⟩
      simp only [HashMap.getElem?_insertIfNew] at hy
      split at hy
      · next hx =>
        cases hy
        cases beq_iff_eq.1 hx.1
        exact ⟨op, hop, hT⟩
      · exact (hg.sound m K hK).values x y hy
  · rintro _ w1 - rfl
    refine .pure ⟨rfl, nofun, fun v hv => ⟨(some.inj hv).symm, fun M hM => ?_⟩⟩
    simp only [HashMap.getElem?_modify, beq_self_eq_true, hM]
    refine ⟨_, rfl, ?_⟩
    simp only [HashMap.getElem?_insertIfNew, beq_self_eq_true, true_and]
    split
    · next hx =>
      rw [HashMap.getElem?_eq_none hx]
      rfl
    · next hx =>
      obtain ⟨y, hy⟩ := isSome_iff_exists.1 (HashMap.mem_iff_isSome_getElem?.1 (Decidable.not_not.1 hx))
      rw [hy]
      rfl

lemma valueOf_settled (hg : Good w) (hm : Live w m) (hop : w.store.operand? h = some op) (hset : Settled w.store op)
    (hT : ∀ T', T = some T' → w.store.type? T'.handle = some (w.store.code.valueTy op)) :
    Along Silent w (valueOf m T h) fun r w' => w'.store = w.store ∧ ∀ v, r = some v → v = ⟨m, h⟩ ∧
      Is w' v op (w.store.code.valueTy op) := by
  refine (valueOf_along hop fun T' h' => ⟨_, hT T' h', fun _ => rfl⟩).mono fun x w' r ⟨hs, _, hr⟩ => ?_
  refine ⟨hs, fun v hv => ?_⟩
  obtain ⟨rfl, hM⟩ := hr v hv
  obtain ⟨M, hM'⟩ := hm
  obtain ⟨M', hm', hval⟩ := hM M hM'
  have his := Is.of_settled (r.good hg) hm' hval (hs.symm ▸ hop) (hs.symm ▸ hset)
  rw [hs] at his
  exact ⟨rfl, his⟩

lemma valueOf_fresh (hm : Live w m) (hfresh : ∀ M, w.modules[m]? = some M → M.values[h]? = none)
    (hop : w.store.operand? h = some op) (hT : ∀ T', T = some T' → w.store.type? T'.handle = some t)
    (hset : Settled w.store op → w.store.code.valueTy op = t) :
    Along Silent w (valueOf m T h) fun r w' => w'.store = w.store ∧ ∀ v, r = some v → v = ⟨m, h⟩ ∧ Is w' v op t := by
  refine (valueOf_along hop fun T' h' => ⟨_, hT T' h', hset⟩).mono fun r w' _ ⟨hs, _, hr⟩ => ?_
  refine ⟨hs, fun v hv => ?_⟩
  obtain ⟨rfl, hM⟩ := hr v hv
  obtain ⟨M, hM'⟩ := hm
  obtain ⟨M', hm', hval⟩ := hM M hM'
  rw [hfresh M hM'] at hval
  exact ⟨rfl, M', T, hm', hval, fun T' h' => hs ▸ hT T' h', hs ▸ hop⟩

lemma needed_along (h : Along Silent w a fun r w' => ∀ v : ValueId, r = some v → Q v w') : Along Silent w (a >>= need) Q :=
  .bind h fun r _ _ hr => (need_along r).mono fun v _ _ hv => hv.1 ▸ hr v hv.2

section

variable (hg : Good w) (hm : Live w m) (hop : w.store.operand? h = some op) (hset : Settled w.store op)

include hg hm hop hset

lemma valueAt_along :
    Along Silent w (valueAt m h) fun r w' => ∀ v, r = some v → v = ⟨m, h⟩ ∧ Is w' v op (w.store.code.valueTy op) := by
  refine .ite (fun _ => .pure nofun) fun h0 => ?_
  refine .look (module_along m) fun M hM => ?_
  refine .ite (fun hin => .pure fun v hv => ?_) fun _ => ?_
  · cases hv
    obtain ⟨x, hx⟩ := isSome_iff_exists.1 (HashMap.isSome_getElem?_eq_contains.trans hin)
    exact ⟨rfl, Is.of_settled hg hM hx hop hset⟩
  · refine .bind (emitQuiet_along (Emit.valueType_along hg.store h)) fun T w1 r1 ⟨_, hT⟩ => ?_
    have hty : T ≠ noHandle → w1.store.type? T = some (w.store.code.valueTy op) := fun h0 =>
      (hT.resolve_right h0) op hop
    refine .bind (typeAt_along fun h0 => ⟨_, hty h0⟩) fun x w2 r2 ⟨hs, hx, _⟩ => ?_
    have hcode : w2.store.code = w.store.code := r2.code.trans r1.code
    have hset' : Settled w2.store op := by
      unfold Settled
      rw [hcode]
      exact hset
    refine (valueOf_settled (r2.good (r1.good hg)) ((hm.mono r1.toStep).mono r2.toStep)
      (r2.store.operand? (r1.store.operand? hop)) hset' fun T' hT' => ?_).mono
        fun y w3 _ hy v hv => hcode ▸ hy.2 v hv
    obtain ⟨h0, rfl⟩ := hx T' hT'
    rw [hcode, hs]
    exact hty h0

lemma valueFor_along : Along Silent w (valueFor m h) fun v w' => v = ⟨m, h⟩ ∧ Is w' v op (w.store.code.valueTy op) :=
  needed_along (valueAt_along hg hm hop hset)

lemma valueWith_settled (hT : ∀ T', T = some T' → w.store.type? T'.handle = some (w.store.code.valueTy op)) :
    Along Silent w (valueWith m T h) fun v w' => v = ⟨m, h⟩ ∧ Is w' v op (w.store.code.valueTy op) :=
  needed_along ((valueOf_settled hg hm hop hset hT).mono fun _ _ _ h => h.2)

end

lemma valueWith_fresh (hm : Live w m) (hfresh : ∀ M, w.modules[m]? = some M → M.values[h]? = none)
    (hop : w.store.operand? h = some op) (hT : ∀ T', T = some T' → w.store.type? T'.handle = some t)
    (hset : Settled w.store op → w.store.code.valueTy op = t) :
    Along Silent w (valueWith m T h) fun v w' => v = ⟨m, h⟩ ∧ Is w' v op t :=
  needed_along ((valueOf_fresh hm hfresh hop hT hset).mono fun _ _ _ h => h.2)

lemma updateType_along {T : TypeId} (hkind : ∀ V, (f V).kind = V.kind)
    (helem : ∀ V e, (f V).elem = some e → V.elem = some e ∨
      ∃ u, w.store.type? T.handle = some (.ptr u) ∧ w.store.type? e.handle = some u) :
    Along Silent w (updateType T f) fun _ w' => w'.store = w.store := by
  refine update_along ?_ rfl
  refine silent_update (fun _ _ _ _ => id) (fun M hg hM => ⟨fun h V hV => ?_, (hg.sound _ M hM).values⟩)
    fun _ => ⟨rfl, rfl, rfl⟩
  simp only [HashMap.getElem?_modify] at hV
  by_cases hh : T.handle = h
  · subst hh
    simp only [beq_self_eq_true, if_true, map_eq_some_iff] at hV
    obtain ⟨V0, hV0, rfl⟩ := hV
    obtain ⟨t, ht, hk, he⟩ := (hg.sound _ M hM).types _ V0 hV0
    refine ⟨t, ht, (hkind V0).trans hk, fun e hVe => ?_⟩
    rcases helem V0 e hVe with h' | ⟨u, hu, hue⟩
    · exact he e h'
    · exact ⟨u, mem_unique ht hu, hue⟩
  · simp only [beq_iff_eq, hh] at hV
    exact (hg.sound _ M hM).types h V hV

section Adoption

variable [IsPreorder (World σ) R]

lemma typeOf_sound (hg : Good w) (v) : Along R w (typeOf v) fun T w' => w' = w ∧
    ∃ op t, w.store.operand? v.handle = some op ∧ w.store.type? T.handle = some t ∧
      (Settled w.store op → w.store.code.valueTy op = t) := by
  refine .look (module_along v.module) fun M hM => ?_
  refine .look (need_along _) fun x hx => ?_
  refine (need_along x).mono ?_
  rintro T w1 - ⟨rfl, rfl⟩
  obtain ⟨op, hop, hT⟩ := (hg.sound _ M hM).values _ _ hx
  obtain ⟨t, ht, hset⟩ := hT T rfl
  exact ⟨rfl, op, t, hop, ht, hset⟩

end Adoption

structure Adopted (w' : World σ) (v r : Option ValueId) : Prop where
  handle : r.map ValueId.handle = v.map ValueId.handle
  known : ∀ x, r = some x → v = some x ∨ ∃ op t, Is w' x op t

lemma adoptWith_along (v) (hg : Good w)
    (hm : Live w m) (hadopt : ∀ T, Along Silent w (adopt T) fun T' _ => T'.handle = T.handle) :
    Along Silent w (adoptWith m adopt v) fun r w' => Adopted w' v r := by
  cases v with
  | none => exact .pure ⟨rfl, nofun⟩
  | some v =>
    refine .ite (fun _ => .pure ⟨rfl, fun x hx => .inl hx⟩) fun _ => ?_
    refine .bind (typeOf_sound hg v) ?_
    rintro T w' - ⟨rfl, op, t, hop, ht, hset⟩
    refine .bind (hadopt T) fun T' w1 r1 hT' => ?_
    have hop1 := r1.store.operand? hop
    refine (valueOf_along hop1 fun T'' h'' => ?_).mono ?_
    · cases h''
      refine ⟨t, hT' ▸ r1.store.type? ht, fun hs => ?_⟩
      rw [r1.code]
      exact hset (by unfold Settled at hs ⊢; rwa [r1.code] at hs)
    · rintro x w2 r2 ⟨-, hnone, hx⟩
      cases x with
      | none => exact absurd (hnone rfl) ((r1.good hg).store.ne_of_operand? hop1)
      | some x =>
        obtain ⟨rfl, hM⟩ := hx x rfl
        obtain ⟨M, hM'⟩ := hm.mono r1.toStep
        obtain ⟨M', hm', hval⟩ := hM M hM'
        refine ⟨rfl, fun y hy => .inr ?_⟩
        cases hy
        exact (r2.good (r1.good hg)).is_of_value hm' hval

lemma adoptType_along (depth) : ∀ {w : World σ} (T), Good w → Live w m →
    Along Silent w (adoptType m depth T) fun T' _ => T'.handle = T.handle := by
  induction depth with
  | zero => exact fun T _ _ => .throw
  | succ depth ih =>
    intro w T hg hm
    refine .ite (fun _ => .pure rfl) fun _ => ?_
    refine .bind (view_sound hg T) ?_
    rintro V w' - ⟨rfl, t, ht, -, helem⟩
    refine .bind (typeAt_along fun _ => ⟨t, ht⟩) fun _ w1 r1 ⟨hs1, _⟩ => ?_
    have hg1 := r1.good hg
    have hm1 := hm.mono r1.toStep
    have ht1 := r1.store.type? ht
    have hrest : ∀ {w2 : World σ}, Good w2 → Live w2 m → Along Silent w2 (do
        if (← view ⟨m, T.handle⟩).kind = .struct && (← view ⟨m, T.handle⟩).members.isEmpty then
          V.members.toList.forM fun mem => do
            updateType ⟨m, T.handle⟩ fun v => { v with places := v.places.insert mem.name v.members.size }
            let type ← adoptType m depth mem.type
            let value ← adoptWith m (adoptType m depth) mem.value
            updateType ⟨m, T.handle⟩ fun v => { v with members := v.members.push { name := mem.name, type, value } }
        pure ⟨m, T.handle⟩) fun (T' : TypeId) _ => T'.handle = T.handle := by
      intro w2 hg2 hm2
      refine .bind (view_sound hg2 _) ?_
      rintro V2 w3 - ⟨rfl, -⟩
      refine .bind (view_sound hg2 _) ?_
      rintro V3 w3 - ⟨rfl, -⟩
      refine .ite (fun _ => ?_) fun _ => .pure rfl
      refine .bind (.forM (I := fun w => Good w ∧ Live w m) _ ?_ w3 ⟨hg2, hm2⟩) fun _ _ _ _ => .pure rfl
      rintro mem - w0 ⟨hg0, hm0⟩
      refine .bind (updateType_along (fun _ => rfl) fun _ _ => .inl) fun _ w4 r4 _ => ?_
      have hg4 := r4.good hg0
      have hm4 := hm0.mono r4.toStep
      refine .bind (ih mem.type hg4 hm4) fun type w5 r5 _ => ?_
      have hg5 := r5.good hg4
      have hm5 := hm4.mono r5.toStep
      refine .bind (adoptWith_along _ hg5 hm5 fun T => ih T hg5 hm5) fun value w6 r6 _ => ?_
      refine .mono (updateType_along ?_ ?_) fun _ w7 r7 _ => ?_
      · exact fun _ => rfl
      · exact fun _ _ => .inl
      exact ⟨r7.good (r6.good hg5), (hm5.mono r6.toStep).mono r7.toStep⟩
    cases hV : V.elem with
    | none => exact hrest hg1 hm1
    | some e =>
      obtain ⟨u, rfl, hu⟩ := helem e hV
      refine .bind (view_sound hg1 _) ?_
      rintro V1 w2 - ⟨rfl, -⟩
      refine .ite (fun _ => ?_) fun _ => hrest hg1 hm1
      refine .bind (ih e hg1 hm1) fun e' w3 r3 he' => ?_
      refine .bind (updateType_along (fun _ => rfl) fun V2 e2 he2 => .inr ⟨u, ?_, ?_⟩) fun _ w4 r4 _ =>
        hrest (r4.good (r3.good hg1)) ((hm1.mono r3.toStep).mono r4.toStep)
      · exact r3.store.type? ht1
      · cases he2
        rw [he']
        exact r3.store.type? (r1.store.type? hu)

lemma ownType_along (T) (hg : Good w) (hm : Live w m) :
    Along Silent w (ownType m T) fun T' _ => T'.handle = T.handle := by
  refine .bind (P := fun _ w' => w' = w) (.bind store_along ?_) ?_
  · rintro s w' - ⟨rfl, -⟩
    exact .pure rfl
  · rintro n w' - rfl
    exact adoptType_along n T hg hm

lemma prim_along (hg : Good w) (m p) : Along Silent w (prim m p) fun T w' => w'.store.type? T.handle = some p.ty := by
  have hh : w.store.Holds p.ty := by
    intro k hk
    cases p <;> simp [Prim.ty, Ty.structs, Ty.i64, Ty.f64, Ty.bool] at hk
  refine .bind (emitQuiet_along (Emit.internType_along p.ty hg.store hh)) fun h w1 r1 ⟨_, hh⟩ => ?_
  refine .bind (typeAt_along fun h0 => ⟨_, hh.resolve_right h0⟩) fun x w2 r2 ⟨hs, hx, _⟩ => ?_
  refine (need_along x).mono ?_
  rintro T w3 - ⟨rfl, hT⟩
  obtain ⟨h0, rfl⟩ := hx T hT
  rw [hs]
  exact hh.resolve_right h0

lemma pointerTo_along (hg : Good w) {T : TypeId} (ht : w.store.type? T.handle = some t) :
    Along Silent w (pointerTo T) fun P w' => w'.store.type? P.handle = some (.ptr t) := by
  refine .look (typeName_along T) fun _ hm => ?_
  refine .bind (backend_silent (Emit.pointer_along hg.store T.handle)) fun h w1 r1 ⟨_, t', ht', hp⟩ => ?_
  cases mem_unique ht ht'
  refine .bind (typeAt_along fun _ => ⟨_, hp⟩) fun x w2 r2 ⟨hs, hx, _⟩ => ?_
  refine .look (need_along x) fun P hP => ?_
  obtain ⟨-, rfl⟩ := hx P hP
  have hg2 := r2.good (r1.good hg)
  have hp2 := r2.store.type? hp
  refine .look (view_sound hg2 _) fun V _ => ?_
  refine .ite (fun _ => ?_) fun _ => .pure hp2
  refine .bind (ownType_along T hg2 ((hm.mono r1.toStep).mono r2.toStep)) fun e w5 r5 he => ?_
  have hp5 := r5.store.type? hp2
  refine .bind (updateType_along (fun _ => rfl) fun V e' he' => .inr ⟨t, hp5, ?_⟩) fun _ w6 r6 _ =>
    .pure (r6.store.type? hp5)
  cases he'
  rw [he]
  exact r5.store.type? (r2.store.type? (r1.store.type? ht))

lemma eq_bytes {t : Ty} (h : t.kind = .bytes) : t = .ptr .i8 := by
  unfold Ty.kind at h
  split at h <;> first | rfl | cases h

lemma elem_along (hg : Good w) {T : TypeId} (ht : w.store.type? T.handle = some t) :
    Along Silent w (elem T) fun r w' => ∀ e, r = some e → ∃ u, t = .ptr u ∧ w'.store.type? e.handle = some u := by
  refine .bind (view_along hg ht) ?_
  rintro V w' - ⟨rfl, hk, he⟩
  cases hV : V.elem with
  | some e =>
    refine .pure fun e' he' => ?_
    cases he'
    exact he e hV
  | none =>
    refine .ite (fun hbytes => ?_) fun _ => .pure nofun
    refine .map ((prim_along hg T.module .i8).mono fun P w1 _ hP e he => ?_)
    cases he
    exact ⟨.i8, eq_bytes (hk.symm.trans hbytes), hP⟩

def RetIs (s : Store) (ret : Option TypeId) (r : Ty) : Prop :=
  match ret with
  | none => r = .void
  | some T => s.type? T.handle = some r

lemma funcType_along (hg : Good w) (m) {ret : Option TypeId} {ps : List Ty}
    (hret : RetIs w.store ret r) (hargs : (args.map TypeId.handle).map w.store.type? = ps.map some) :
    Along Silent w (funcType m ret args variadic) fun F w' => w'.store.type? F.handle = some (.func r ps variadic) := by
  have hmain : ∀ {w1 : World σ} {R : TypeId}, Silent w w1 → w1.store.type? R.handle = some r → Along Silent w1 (do
        let h ← backend m "function type" (Emit.func R.handle (args.map TypeId.handle) variadic)
        need (← typeAt m h)) fun F w' => w'.store.type? F.handle = some (.func r ps variadic) := by
    intro w1 R r1 hR
    refine .bind (backend_silent (Emit.func_along (r1.good hg).store _ _ _)) ?_
    rintro h w2 r2 ⟨-, r', ps', hr', hps', hh⟩
    cases mem_unique hR hr'
    have hps : ps' = ps := by
      refine List.map_injective_iff.2 (fun _ _ => some.inj) (hps'.symm.trans (Eq.trans ?_ hargs))
      refine List.map_congr_left fun x hx => ?_
      obtain ⟨t, -, ht⟩ := List.mem_map.1 (hargs ▸ List.mem_map_of_mem hx)
      rw [← ht]
      exact r1.store.type? ht.symm
    cases hps
    refine .bind (typeAt_along fun _ => ⟨_, hh⟩) fun x w3 r3 ⟨hs, hx, _⟩ => ?_
    refine (need_along x).mono ?_
    rintro F w4 - ⟨rfl, hF⟩
    obtain ⟨-, rfl⟩ := hx F hF
    exact hs ▸ hh
  cases ret with
  | some T => exact hmain (refl_of Silent w) hret
  | none =>
    cases hret
    exact .bind (prim_along hg m .void) fun T w1 r1 hT => hmain r1 hT

lemma sameType_iff (hg : Good w) {T U : TypeId} (ht : w.store.type? T.handle = some t)
    (hu : w.store.type? U.handle = some u) : sameType T U = true ↔ t = u := by
  unfold sameType
  rw [beq_iff_eq]
  constructor
  · intro h
    rw [h, hu] at ht
    exact (some.inj ht).symm
  · rintro rfl
    exact hg.store.type?_inj ht hu

lemma canCast_along [IsPreorder (World σ) R] (hg : Good w) {T U : TypeId} (ht : w.store.type? T.handle = some t)
    (hu : w.store.type? U.handle = some u) :
    Along R w (canCast T U) fun b w' => w' = w ∧ b = t.widens u := by
  refine ⟨refl_of R w, rfl, ?_⟩
  have hsame : (T.handle == U.handle) = (t == u) := by
    rw [Bool.eq_iff_iff, beq_iff_eq (a := t)]
    exact sameType_iff hg ht hu
  simp only [Store.canCast, Emit.typeKind_of_type? ht, Emit.typeKind_of_type? hu, hsame, Ty.widens]

end Act

end Arbor.Build
