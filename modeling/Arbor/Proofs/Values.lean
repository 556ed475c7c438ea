import Arbor.Proofs.Names

/-! What modules do when they build values: each action on values makes the code steps that its
relation says, and the module sees the value that comes of it. -/

namespace Arbor.Build

open IR Diag Proofs Lower Option Emit

variable {σ : Type} {w : World σ}
variable {m : Handle} {i : Inst} {op : Operand} {t u : Ty} {T : TypeId} {v : ValueId}
variable {P : Inst → Ty → Prop} {v1 v2 : ValueId} {op1 op2 : Operand} {t1 t2 : Ty}
lemma settled_of_ne (h : ∀ g, op ≠ .inst g) : Settled s op := fun g _ _ hg _ => absurd hg (h g)

lemma settled_const (k) : Settled s (.const k) := settled_of_ne nofun

lemma settled_func (h) : Settled s (.func h) := settled_of_ne nofun

lemma settled_param (h index) : Settled s (.param h index) := settled_of_ne nofun

def Tells (i : Inst) : Prop := (∀ f args, i ≠ .call f args) ∧ i.isPhi = false

lemma settled_inst (hg : s.code.insts g = some (i, t)) (hi : Tells i) : Settled s (.inst g) := by
  rintro h j u hh hj
  cases hh
  cases mem_unique hg hj
  exact hi

namespace Act

lemma valueFor_noHandle : Along Silent w (valueFor m noHandle) Q := refl_of Silent w

section

variable (hg : Good w) (hm : Live w m)

include hg hm

lemma constFor_along (hk : w.store.operand? h = some (.const k)) :
    Along Silent w (valueFor m h) fun v w' => Is w' v (.const k) k.ty :=
  (valueFor_along hg hm hk (settled_const k)).mono fun _ _ _ h => h.2

lemma intConst_along (value bits) :
    Along Silent w (intConst m value bits) fun v w' => ∃ n, Width.ofBits? bits = some n ∧
      Is w' v (.const (Const.number n value)) (.int n) := by
  refine .bind (backend_silent (int_along hg.store value bits)) fun h w1 r1 ⟨_, n, hn, hop⟩ => ?_
  refine (constFor_along (r1.good hg) (hm.mono r1.toStep) hop).mono fun v w2 _ hv => ⟨n, hn, ?_⟩
  cases n <;> exact hv

lemma floatConst_along (bits) :
    Along Silent w (floatConst m bits) fun v w' => Is w' v (.const (.float .double (canonicalBits bits))) .f64 := by
  refine .bind (emitQuiet_along (constant_along hg.store fun k hk => by simp [Const.ty, Ty.structs] at hk)) ?_
  rintro h w1 r1 ⟨-, hop | rfl⟩
  · exact constFor_along (r1.good hg) (hm.mono r1.toStep) hop
  · exact valueFor_noHandle

lemma boolConst_along (b) : Along Silent w (boolConst m b) fun v w' => Is w' v (.const (.bool b)) .bool := by
  refine .bind (emitQuiet_along (Emit.boolConst_along hg.store b)) ?_
  rintro h w1 r1 ⟨-, hop | rfl⟩
  · exact constFor_along (r1.good hg) (hm.mono r1.toStep) hop
  · exact valueFor_noHandle

lemma textConst_along (t) : Along Silent w (textConst m t) fun v w' => ∃ i, Is w' v (.const (.text m i)) .bytes := by
  refine .bind (backend_silent (text_along hg.store m t)) fun h w1 r1 ⟨_, i, hop⟩ => ?_
  have hg1 := r1.good hg
  refine .bind (prim_along hg1 m .bytes) fun T w2 r2 hT => ?_
  refine (valueWith_settled (r2.good hg1) ((hm.mono r1.toStep).mono r2.toStep) (r2.store.operand? hop)
    (settled_const _) fun T' hT' => ?_).mono fun v w3 _ hv => ⟨i, hv.2⟩
  cases hT'
  exact hT

lemma typeSize_along (T) : Along Silent w (typeSize m T) fun v w' => ∃ n, Is w' v (.const (.int .w64 n)) .i64 := by
  refine .look (typeName_along T) fun _ _ => ?_
  refine .bind (backend_silent (Emit.typeSize_along hg.store T.handle)) fun h w1 r1 ⟨_, n, hop⟩ => ?_
  exact (constFor_along (r1.good hg) (hm.mono r1.toStep) hop).mono fun v w2 _ hv => ⟨n, hv⟩

lemma defaultValue_along (ht : w.store.type? T.handle = some t) : Along Silent w (defaultValue m T) fun v w' =>
      ∃ k, Const.zeroOf? t = some k ∧ Is w' v (.const k) t := by
  refine .look (typeName_along T) fun _ _ => ?_
  refine .bind (backend_silent (Emit.defaultValue_along hg.store T.handle)) fun h w1 r1 ⟨_, t', k, ht', hk, hop⟩ => ?_
  cases mem_unique ht ht'
  have hkt : w1.store.code.valueTy (.const k) = t := Const.ty_of_zeroOf? hk
  refine (valueWith_settled (r1.good hg) (hm.mono r1.toStep) hop (settled_const k) fun T' hT' => ?_).mono
    fun v w2 _ hv => ⟨k, hk, hkt ▸ hv.2⟩
  cases hT'
  rw [hkt]
  exact r1.store.type? ht

lemma put_for (he : Along Store.Grows w.store e fun h s' => ∃ i t, P i t ∧ Emit.Puts w.store h i t s')
    (hP : ∀ i t, P i t → i.isValue = true ∧ Tells i) : Along Steady w (do
      let h ← backend m message e
      valueFor m h) fun v w' => ∃ h i t, P i t ∧ w.store.code.Emits h i t w'.store.code ∧ Is w' v (.inst h) t := by
  refine .bind (backend_along he) fun h w1 r1 ⟨_, i, t, hp, hput⟩ => ?_
  obtain ⟨hval, htells⟩ := hP i t hp
  refine (silently (valueFor_along (r1.good hg) (hm.mono r1.toStep) (hput.operand hval)
    (settled_inst hput.emits.inst_self htells))).mono ?_
  rintro v w2 - ⟨r2, rfl, hv⟩
  refine ⟨h, i, t, hp, r2.code ▸ hput.emits, ?_⟩
  have hty : w1.store.code.valueTy (.inst h) = t := hput.emits.tyOf_self
  exact hty ▸ hv

lemma put_with {T : Option TypeId} (hT : ∀ T', T = some T' → w.store.type? T'.handle = some u)
    (he : Along Store.Grows w.store e fun h s' => ∃ i t, P i t ∧ Emit.Puts w.store h i t s')
    (hP : ∀ i t, P i t → i.isValue = true ∧ (Tells i → t = u)) : Along Steady w (do
      let h ← backend m message e
      valueWith m T h) fun v w' => ∃ h i t, P i t ∧ w.store.code.Emits h i t w'.store.code ∧ Is w' v (.inst h) u := by
  refine .bind (backend_along he) fun h w1 r1 ⟨hmods, i, t, hp, hput⟩ => ?_
  obtain ⟨hval, htells⟩ := hP i t hp
  refine (silently (valueWith_fresh (hm.mono r1.toStep) (fun M hM => hg.values_none hmods hput.fresh hM)
    (hput.operand hval) (fun T' hT' => r1.store.type? (hT T' hT')) fun hset => ?_)).mono ?_
  · have hty : w1.store.code.valueTy (.inst h) = t := hput.emits.tyOf_self
    exact hty.trans (htells (hset h i t rfl hput.emits.inst_self))
  · rintro v w2 - ⟨r2, rfl, hv⟩
    exact ⟨h, i, t, hp, r2.code ▸ hput.emits, hv⟩

lemma bitcast_along (hv : Is w v op t) (hT : w.store.type? T.handle = some u) :
    Along Steady w (bitcast m v T) fun x w' => ∃ h, w.store.code.Emits h (.cast .bitcast op u) u w'.store.code ∧
      Is w' x (.inst h) u := by
  refine .look (typeOf_along hv) fun _ _ => ?_
  refine .look (typeName_along _) fun _ _ => ?_
  refine .look (typeName_along _) fun _ _ => ?_
  refine (put_with (P := fun i t => i = .cast .bitcast op u ∧ t = u) hg hm
    (fun T' hT' => by cases hT'; exact hT) ?_ ?_).mono ?_
  · refine (Emit.bitcast_along hg.store v.handle T.handle).mono fun h s' _ ⟨op', u', hop', hu', hput⟩ => ?_
    cases mem_unique hv.operand hop'
    cases mem_unique hT hu'
    exact ⟨_, _, ⟨rfl, rfl⟩, hput⟩
  · rintro _ _ ⟨rfl, rfl⟩
    exact ⟨rfl, fun _ => rfl⟩
  · rintro x w - ⟨h, _, _, ⟨rfl, rfl⟩, hput, hx⟩
    exact ⟨h, hput, hx⟩

lemma ptrVal_along (hv : Is w v op t) : Along Steady w (ptrVal m v) fun x w' => ∃ op' t',
      Deref w.store.code op t w'.store.code op' t' ∧ Is w' x op' t' := by
  refine .bind (backend_along (Emit.ptrVal_along hg.store v.handle)) fun h w1 r1 ⟨hmods, op', hop', hload⟩ => ?_
  cases mem_unique hv.operand hop'
  cases hload with
  | @slot e hslot hput =>
    have hne : h ≠ v.handle := by
      rintro rfl
      have := hput.emits.freshInst
      rw [hslot] at this
      cases this
    refine .ite (fun hh => absurd hh hne) fun _ => ?_
    refine (silently (valueFor_along (r1.good hg) (hm.mono r1.toStep) (hput.operand rfl)
      (settled_inst hput.emits.inst_self ⟨nofun, rfl⟩))).mono ?_
    rintro x w2 - ⟨r2, -, hx⟩
    have hty : w1.store.code.valueTy (.inst h) = e := hput.emits.tyOf_self
    exact ⟨.inst h, e, .slot hslot (r2.code ▸ hput.emits), hty ▸ hx⟩
  | plain hplain hval hsame =>
    refine .ite (fun _ => .pure ⟨op, t, ?_, hv.mono r1.toStep⟩) fun hh => absurd hval hh
    rw [hsame]
    refine .value ?_
    rintro ⟨g, e, u, rfl, hg⟩
    exact hplain g e u rfl hg

lemma ptrRef_along (hv : Is w v op t) : Along Silent w (ptrRef m v) fun x w' => ∃ h e,
      Emit.SlotOf w.store.code op h e ∧ Is w' x (.inst h) (.ptr e) := by
  have hslotty : ∀ {h : Handle} {e : Ty}, Emit.SlotOf w.store.code op h e →
      w.store.code.insts h = some (.alloca e, .ptr e) := by
    intro h e hs
    cases hs with
    | slot hs => exact hs
    | loaded _ hs => exact hs
  refine .bind (emit_silent (Emit.ptrRef_along hg.store v.handle)) fun r w1 r1 hr => ?_
  cases r with
  | error r => exact fail_along
  | ok h =>
    obtain ⟨hs, op', e, hop', hslot, hh⟩ := hr.2 h rfl
    cases mem_unique hv.operand hop'
    have hins := hslotty hslot
    have hset : Settled w1.store (.inst h) := settled_inst (i := .alloca e) (by rw [hs]; exact hins) ⟨nofun, rfl⟩
    have hty : w1.store.code.valueTy (.inst h) = .ptr e := by
      rw [hs]
      simp only [Code.valueTy, Code.tyOf, hins, elim_some]
    refine .ite (fun heq => ?_) fun _ => ?_
    · subst heq
      have hop : op = .inst v.handle := mem_unique hv.operand hh
      subst hop
      exact .pure ⟨_, e, hslot, hty ▸ (hv.mono r1.toStep).valueTy (r1.good hg) hset⟩
    · refine (valueFor_along (r1.good hg) (hm.mono r1.toStep) (by rw [hs]; exact hh) hset).mono ?_
      rintro x w2 - ⟨-, hx⟩
      exact ⟨h, e, hslot, hty ▸ hx⟩

lemma coerce_along (hv : Is w v op t) (hT : w.store.type? T.handle = some u)
    (hu : t ≠ u → u.Plain) : Along Steady w (coerce m v T) fun x w' => ∃ op' t',
      Coerces w.store.code op t u w'.store.code op' t' ∧ Is w' x op' t' := by
  refine .look (typeOf_along hv) fun V hV => ?_
  refine .ite (fun hs => ?_) fun hs => ?_
  · exact .pure ⟨op, t, .same ((sameType_iff hg hV hT).1 hs), hv⟩
  · have hne : t ≠ u := fun h => hs ((sameType_iff hg hV hT).2 h)
    refine .look (typeName_along _) fun _ _ => ?_
    refine .look (typeName_along _) fun _ _ => ?_
    refine .bind (backend_along (Emit.coerce_along hg.store hv.operand hT)) ?_
    rintro h w1 r1 ⟨hmods, ⟨hty, rfl, q⟩ | ⟨k, hk, hput⟩⟩
    · have hT1 := r1.store.type? hT
      have hop1 := r1.store.operand? hv.operand
      have hty1 : w1.store.code.valueTy op = u := q.code ▸ hty
      refine .bind (silently (valueOf_along hop1 fun T' hT' => ⟨u, ?_, fun _ => hty1⟩)) ?_
      · cases hT'
        exact hT1
      · rintro x w2 - ⟨r2, -, -, hx⟩
        refine (need_along x).mono ?_
        rintro y w3 - ⟨rfl, rfl⟩
        obtain ⟨rfl, hM⟩ := hx y rfl
        obtain ⟨M, hM'⟩ := hm.mono r1.toStep
        obtain ⟨M', hm', hval⟩ := hM M hM'
        obtain ⟨op', t', hy⟩ := (r2.good (r1.good hg)).is_of_value hm' hval
        cases Option.some.inj (hy.operand.symm.trans (r2.store.operand? hop1))
        refine ⟨_, t', ?_, hy⟩
        rw [r2.code.trans q.code]
        exact .known hne hty
    · refine (silently (valueWith_fresh (hm.mono r1.toStep) (fun M hM => hg.values_none hmods hput.fresh hM)
        (hput.operand rfl) (fun T' hT' => ?_) fun _ => hput.emits.tyOf_self)).mono ?_
      · cases hT'
        exact r1.store.type? hT
      · rintro x w2 - ⟨r2, -, hx⟩
        exact ⟨.inst h, u, .cast hne (hu hne) hk (r2.code ▸ hput.emits), hx⟩

end

lemma widens_kind (h : t.widens u = true) (hne : t ≠ u) :
    u.kind.isInteger = true ∨ u.kind.isFloat = true ∨ u.kind = .bytes := by
  simp only [Ty.widens, Bool.or_eq_true, Bool.and_eq_true, beq_iff_eq] at h
  rcases h with (((((h | h) | h) | h) | h) | h) | h
  · exact absurd h hne
  · exact .inl h.2
  · exact .inl h.1.2
  · exact .inr (.inl (by rw [h.2]; rfl))
  · exact .inr (.inl (by rw [h.1.2]; rfl))
  · exact .inr (.inl (by rw [h.1.2]; rfl))
  · exact .inr (.inr h.2)

lemma plain_of_kind (h : u.kind.isInteger = true ∨ u.kind.isFloat = true ∨ u.kind = .bytes) : u.Plain := by
  cases u with
  | void | label | int _ | float _ | struct _ => trivial
  | func | array => simp [Ty.kind, Kind.isInteger, Kind.isFloat] at h
  | ptr e =>
    have hb : (Ty.ptr e).kind = .bytes := by
      unfold Ty.kind at h ⊢
      split at h <;> simp_all [Kind.isInteger, Kind.isFloat]
    rw [eq_bytes hb]
    trivial

lemma plain_of_widens (h : t.widens u = true) (hne : t ≠ u) : u.Plain := plain_of_kind (widens_kind h hne)

section

variable (hg : Good w) (hm : Live w m)

include hg hm

lemma convert_along (hv : Is w v op t) (hT : w.store.type? T.handle = some u) :
    Along Steady w (convert m v T code what) fun x w' => ∃ op' t',
      Converts w.store.code op t u w'.store.code op' t' ∧ Is w' x op' t' := by
  refine .bind (typeOf_along hv) ?_
  rintro V w' - ⟨rfl, hV⟩
  refine .ite (fun hs => ?_) fun hs => ?_
  · have heq := (sameType_iff hg hV hT).1 hs
    subst heq
    exact .pure ⟨op, t, ⟨by simp [Ty.widens], .same rfl⟩, hv⟩
  · refine .bind (canCast_along hg hV hT) ?_
    rintro b w' - ⟨rfl, rfl⟩
    refine .ite (fun _ => ?_) fun hb => ?_
    · refine .bind (typeName_along _) ?_
      rintro _ w' - ⟨rfl, -⟩
      refine .bind (typeName_along _) ?_
      rintro _ w' - ⟨rfl, -⟩
      exact fail_bind
    · have hw : t.widens u = true := by simpa using hb
      refine (coerce_along hg hm hv hT (plain_of_widens hw)).mono ?_
      rintro x w1 - ⟨op', t', hc, hx⟩
      exact ⟨op', t', ⟨hw, hc⟩, hx⟩

lemma unary_along (o) (hv : Is w v op t) : Along Steady w (unary m o v) fun x w' => ∃ h i u,
      unaryInst? o op (w.store.code.tyOf op) = some (i, u) ∧ w.store.code.Emits h i u w'.store.code ∧
      Is w' x (.inst h) u := by
  refine fail_ite fun _ => ?_
  refine .look (typeOf_along hv) fun T hT => ?_
  refine .look (view_along hg hT) fun V _ => ?_
  refine fail_ite fun _ => ?_
  refine fail_ite fun _ => ?_
  refine (put_for (P := fun i u => unaryInst? o op (w.store.code.tyOf op) = some (i, u)) hg hm ?_ ?_).mono ?_
  · exact (Emit.unary_along hg.store o hv.operand).mono fun h s' _ hx => hx
  · intro i u hi
    unfold unaryInst? at hi
    split at hi <;> cases hi <;> exact ⟨rfl, nofun, rfl⟩
  · rintro x w1 - ⟨h, i, u, hi, hput, hx⟩
    exact ⟨h, i, u, hi, hput, hx⟩

lemma applyBinary_along (o) (h1 : Is w v1 op1 t1) (h2 : Is w v2 op2 t2) :
    Along Steady w (applyBinary m o v1 v2) fun x w' => t1 = t2 ∧ ∃ op u,
      Combines o w.store.code op1 op2 w'.store.code op u ∧ Is w' x op u := by
  refine .look (typeOf_along h1) fun T1 hT1 => ?_
  refine .look (typeOf_along h2) fun T2 hT2 => ?_
  refine .look (view_along hg hT1) fun V1 _ => ?_
  refine .look (view_along hg hT2) fun V2 _ => ?_
  refine fail_ite fun hs => ?_
  refine fail_ite fun _ => ?_
  have hsame : t1 = t2 := (sameType_iff hg hT1 hT2).1 (by simpa using hs)
  refine (put_for (P := fun i u => w.store.code.valueTy op1 = w.store.code.valueTy op2 ∧
    binaryInst? o (w.store.code.valueTy op1).kind op1 op2 = some i ∧
    u = resultTy (w.store.code.tyOf op1) i) hg hm ?_ ?_).mono ?_
  · refine (binary_along hg.store o h1.operand h2.operand).mono fun h s' _ ⟨hty, i, hi, hput⟩ => ?_
    exact ⟨i, _, ⟨hty, hi, rfl⟩, hput⟩
  · rintro i u ⟨-, hi, -⟩
    rcases binaryInst?_shape hi with ⟨_, rfl⟩ | ⟨_, rfl⟩ | ⟨_, rfl⟩ | ⟨_, rfl⟩ <;> exact ⟨rfl, nofun, rfl⟩
  · rintro x w1 - ⟨h, i, u, ⟨hty, hi, rfl⟩, hput, hx⟩
    exact ⟨hsame, .inst h, _, ⟨hty, hi, hput⟩, hx⟩

lemma binary_along (o) (h1 : Is w v1 op1 t1) (h2 : Is w v2 op2 t2) :
    Along Steady w (binary m o v1 v2) fun x w' => t1 = t2 ∧ ∃ op u,
      Combines o w.store.code op1 op2 w'.store.code op u ∧ Is w' x op u := by
  refine fail_ite fun _ => ?_
  exact applyBinary_along hg hm o h1 h2

end

lemma eq_func (h : t.kind = .func) : ∃ r ps va, t = .func r ps va := by
  unfold Ty.kind at h
  split at h <;> first | exact ⟨_, _, _, rfl⟩ | cases h

lemma held_of_kind (h : t.kind ≠ .func) : t.held = t := by
  unfold Ty.held
  split
  · exact absurd rfl h
  · rfl

section

variable (hg : Good w)

include hg

lemma alloc_along (hm : Live w m) (name) (hT : w.store.type? T.handle = some t) :
    Along Steady w (alloc m name (some T)) fun x w' => ∃ g,
      w.store.code.Emits g (.alloca t.held) (.ptr t.held) w'.store.code ∧ Is w' x (.inst g) (.ptr t.held) := by
  have hrest : ∀ {w1 : World σ} {H : TypeId}, Silent w w1 → w1.store.type? H.handle = some t.held → Along Steady w1 (do
        let pt ← pointerTo H
        let h ← backend m ("alloc " ++ name.quoted) (Emit.alloc T.handle name)
        valueWith m (some pt) h) fun x w' => ∃ g,
          w.store.code.Emits g (.alloca t.held) (.ptr t.held) w'.store.code ∧ Is w' x (.inst g) (.ptr t.held) := by
    intro w1 H r1 hH
    have hg1 := r1.good hg
    refine .bind (silently (pointerTo_along hg1 hH)) fun P w2 _ ⟨r2, hP⟩ => ?_
    have hT2 := r2.store.type? (r1.store.type? hT)
    refine (put_with (P := fun i u => i = .alloca t.held ∧ u = .ptr t.held) (r2.good hg1)
      ((hm.mono r1.toStep).mono r2.toStep) (fun T' hT' => by cases hT'; exact hP) ?_ ?_).mono ?_
    · refine (Emit.alloc_along (r2.good hg1).store T.handle name).mono fun h s' _ ⟨t', ht', hput⟩ => ?_
      cases mem_unique hT2 ht'
      exact ⟨_, _, ⟨rfl, rfl⟩, hput⟩
    · rintro _ _ ⟨rfl, rfl⟩
      exact ⟨rfl, fun _ => rfl⟩
    · rintro x w3 - ⟨g, _, _, ⟨rfl, rfl⟩, hput, hx⟩
      exact ⟨g, (r2.code.trans r1.code) ▸ hput, hx⟩
  refine .bind (typeKind_along hg hT) ?_
  rintro k w' - ⟨rfl, rfl⟩
  refine .ite (fun _ => fail_along) fun _ => ?_
  refine .ite (fun hk => ?_) fun hk => ?_
  · refine .bind (silently (pointerTo_along hg hT)) fun H w1 _ ⟨r1, hH⟩ => ?_
    obtain ⟨r, ps, va, rfl⟩ := eq_func hk
    exact hrest r1 hH
  · exact hrest (refl_of Silent w') ((held_of_kind hk).symm ▸ hT)

lemma storeTo_along (hp : Is w p (.inst g) (.ptr e))
    (hslot : w.store.code.tyOf (.inst g) = .ptr e) (hv : Is w v op t) :
    Along Steady w (storeTo m p v) fun _ w' => ∃ k, w.store.code.tyOf op = e ∧
      w.store.code.Emits k (.store op (.inst g)) .void w'.store.code := by
  have hrest : ∀ {w1 : World σ}, Silent w w1 → Along Steady w1 (backend m "store" (Emit.store p.handle v.handle))
      fun _ w' => ∃ k, w.store.code.tyOf op = e ∧ w.store.code.Emits k (.store op (.inst g)) .void w'.store.code := by
    intro w1 r1
    refine (backend_along (Emit.store_along (r1.good hg).store p.handle v.handle)).mono ?_
    rintro h w2 - ⟨-, p', v', e', hp', hv', hpe, hve, hput⟩
    cases Option.some.inj ((hp.mono r1.toStep).operand.symm.trans hp')
    cases Option.some.inj ((hv.mono r1.toStep).operand.symm.trans hv')
    rw [r1.code] at hpe hve
    cases hslot.symm.trans hpe
    exact ⟨h, hve, r1.code ▸ hput.emits⟩
  refine .look (typeOf_along hp) fun P hP => ?_
  refine .look (view_along hg hP) fun V _ => ?_
  refine fail_ite fun _ => ?_
  refine .bind (silently (elem_along hg hP)) fun E w1 _ ⟨r1, hE⟩ => ?_
  have hg1 := r1.good hg
  cases E with
  | none => exact hrest r1
  | some E =>
    obtain ⟨u, hu, hE⟩ := hE E rfl
    refine .look (typeOf_along (hv.mono r1.toStep)) fun T hT => ?_
    refine .look (view_along hg1 hT) fun V1 _ => ?_
    refine .look (typeKind_along hg1 hE) fun k _ => ?_
    exact fail_ite fun _ => hrest r1

lemma allocInit_along (hm : Live w m) (name) (hT : w.store.type? T.handle = some t)
    (hv : Is w v op u) : Along Steady w (allocInit m name (some T) (some v)) fun x w' => ∃ g k c1,
      w.store.code.Emits g (.alloca t.held) (.ptr t.held) c1 ∧ c1.tyOf op = t.held ∧
      c1.Emits k (.store op (.inst g)) .void w'.store.code ∧ Is w' x (.inst g) (.ptr t.held) := by
  refine .bind (alloc_along hg hm name hT) fun x w1 r1 ⟨g, hput, hx⟩ => ?_
  refine .bind (storeTo_along (r1.good hg) hx hput.tyOf_self (hv.mono r1.toStep)) fun _ w2 r2 ⟨k, hty, hstore⟩ => ?_
  exact .pure ⟨g, k, _, hput, hty, hstore, hx.mono r2.toStep⟩

lemma jump_along (m b) : Along Steady w (jump m b) fun _ w' =>
    w.store.code.Ends (.br b.handle) w'.store.code := by
  unfold jump blockName
  refine .bind (P := fun _ w' => w' = w) (.bind (module_along b.module) ?_) ?_
  · rintro M w' - ⟨rfl, -⟩
    exact (need_along _).mono fun _ _ _ h => h.1
  · rintro _ w' - rfl
    exact (backend_along (jump_along hg.store b.handle)).mono fun _ _ _ h => h.2

lemma jumpCond_along (m) (hv : Is w v op t) (yes no) : Along Steady w (jumpCond m v yes no) fun _ w' =>
      w.store.code.valueTy op = .bool ∧ w.store.code.Ends (.condBr op yes.handle no.handle) w'.store.code := by
  refine .look (typeOf_along hv) fun T hT => ?_
  refine .look (view_along hg hT) fun V _ => ?_
  refine fail_ite fun _ => ?_
  exact (backend_along (Emit.jumpCond_along hg.store hv.operand yes.handle no.handle)).mono fun _ _ _ h => h.2

lemma phi_along (hm : Live w m) (hT : w.store.type? T.handle = some t)
    (b1 b2) (h1 : Is w v1 op1 t1) (h2 : Is w v2 op2 t2) :
    Along Steady w (phi m T [(v1, b1), (v2, b2)]) fun x w' => ∃ h, w.store.code.valueTy op1 = t ∧
      w.store.code.valueTy op2 = t ∧
      w.store.code.Emits h (.phi [(op1, b1.handle), (op2, b2.handle)]) (w.store.code.tyOf op1) w'.store.code ∧
      Is w' x (.inst h) t := by
  refine .bind (.forM (I := fun w' => w' = w) _ ?_ w rfl) ?_
  · rintro ⟨v, b⟩ hmem w' rfl
    have hv : ∃ op u, Is w' v op u := by
      simp only [List.mem_cons, Prod.mk.injEq, List.not_mem_nil, or_false] at hmem
      rcases hmem with ⟨rfl, -⟩ | ⟨rfl, -⟩
      · exact ⟨op1, t1, h1⟩
      · exact ⟨op2, t2, h2⟩
    obtain ⟨op, u, hv⟩ := hv
    refine .bind (typeOf_along hv) ?_
    rintro V w1 - ⟨rfl, hV⟩
    refine .ite (fun _ => ?_) fun _ => .pure rfl
    refine .bind (typeName_along _) ?_
    rintro _ w2 - ⟨rfl, -⟩
    refine .bind (typeName_along _) ?_
    rintro _ w2 - ⟨rfl, -⟩
    refine .bind (P := fun _ w' => w' = w2) (.bind (module_along b.module) ?_) ?_
    · rintro M w' - ⟨rfl, -⟩
      exact (need_along _).mono fun _ _ _ h => h.1
    · rintro _ w' - rfl
      exact fail_along
  · rintro _ w' - rfl
    refine (put_with (P := fun i u => w'.store.code.valueTy op1 = t ∧ w'.store.code.valueTy op2 = t ∧
      i = .phi [(op1, b1.handle), (op2, b2.handle)] ∧ u = w'.store.code.tyOf op1) hg hm
      (fun T' hT' => by cases hT'; exact hT) ?_ ?_).mono ?_
    · refine (phi_along hg.store hT h1.operand h2.operand).mono fun h s' _ ⟨hx, hy, hput⟩ => ?_
      exact ⟨_, _, ⟨hx, hy, rfl, rfl⟩, hput⟩
    · rintro _ _ ⟨-, -, rfl, rfl⟩
      exact ⟨rfl, fun ht => by cases ht.2⟩
    · rintro x w1 - ⟨h, _, _, ⟨hx, hy, rfl, rfl⟩, hput, his⟩
      exact ⟨h, hx, hy, hput, his⟩

lemma signatureOf_along (m) (hv : Is w v op t) : Along Silent w (signatureOf m (some v)) fun F w' => w' = w ∧ ∃ r ps va,
      signature? t = some (r, ps, va) ∧ w.store.type? F.handle = some (.func r ps va) := by
  have hlast : ∀ {F : TypeId} {u : Ty} {name : Text}, w.store.type? F.handle = some u →
      (u.kind = .func → ∃ r ps va, signature? t = some (r, ps, va) ∧ u = .func r ps va) →
      Along Silent w (do
        if (← typeKind F) = .func then pure F
        else fail m .notCallable ("value of type " ++ name ++ " is not a function")) fun F w' => w' = w ∧
          ∃ r ps va, signature? t = some (r, ps, va) ∧ w.store.type? F.handle = some (.func r ps va) := by
    intro F u name hF hu
    refine .bind (typeKind_along hg hF) ?_
    rintro k w' - ⟨rfl, rfl⟩
    refine .ite (fun hk => ?_) fun _ => fail_along
    obtain ⟨r, ps, va, hsig, rfl⟩ := hu hk
    exact .pure ⟨rfl, r, ps, va, hsig, hF⟩
  have hself : t.kind = .func → ∃ r ps va, signature? t = some (r, ps, va) ∧ t = .func r ps va := by
    intro hk
    obtain ⟨r, ps, va, rfl⟩ := eq_func hk
    exact ⟨r, ps, va, rfl, rfl⟩
  refine .bind (typeOf_along hv) ?_
  rintro T w' - ⟨rfl, hT⟩
  refine .bind (view_along hg hT) ?_
  rintro V w' - ⟨rfl, -, he⟩
  cases hV : V.elem with
  | none => exact hlast hT hself
  | some e =>
    obtain ⟨u, rfl, hu⟩ := he e hV
    refine .bind (typeKind_along hg hu) ?_
    rintro k w' - ⟨rfl, rfl⟩
    refine .ite (fun hk => ?_) fun _ => hlast hT hself
    refine hlast hu fun huk => ?_
    obtain ⟨r, ps, va, rfl⟩ := eq_func huk
    exact ⟨r, ps, va, rfl, rfl⟩

end

lemma callArgs_along (args) : ∀ {w : World σ} (index) (vals), Good w → Live w m →
      w.store.type? F.handle = some (.func r ps va) → List.Forall₂ (fun a p => Is w a p.1 p.2) args vals →
      Along Steady w (callArgs m F ps.length index args) fun hs w' => ∃ vs,
        ConvertsAll w.store.code vals (ps.drop index) w'.store.code vs ∧
        List.Forall₂ (fun h v => w'.store.operand? h = some v) hs vs := by
  induction args with
  | nil =>
    intro w index vals _ _ _ hargs
    cases hargs
    exact .pure ⟨[], .nil, .nil⟩
  | cons a args ih =>
    intro w index vals hg hm hF hargs
    cases hargs with
    | @cons _ p _ vals ha hargs =>
      obtain ⟨op, t⟩ := p
      -- the arguments that are left, once this one is `x`
      have hrest : ∀ {w1 : World σ} {x : ValueId} {op' : Operand} {t' : Ty}, Steady w w1 → Is w1 x op' t' →
          (∀ c' vs, ConvertsAll w1.store.code vals (ps.drop (index + 1)) c' vs →
            ConvertsAll w.store.code ((op, t) :: vals) (ps.drop index) c' (op' :: vs)) →
          Along Steady w1 (do
            let handles ← callArgs m F ps.length (index + 1) args
            pure (x.handle :: handles)) fun hs w' => ∃ vs,
              ConvertsAll w.store.code ((op, t) :: vals) (ps.drop index) w'.store.code vs ∧
              List.Forall₂ (fun h v => w'.store.operand? h = some v) hs vs := by
        intro w1 x op' t' r1 hx hconv
        refine .bind (ih (index + 1) vals (r1.good hg) (hm.mono r1.toStep) (r1.store.type? hF)
          (hargs.imp fun _ _ h => h.mono r1.toStep)) ?_
        rintro hs w2 r2 ⟨vs, hall, hops⟩
        exact .pure ⟨_, hconv _ vs hall, .cons (r2.store.operand? hx.operand) hops⟩
      refine .ite (fun hlt => ?_) fun hge => ?_
      · have hp : ps[index]? = some ps[index] := List.getElem?_eq_getElem hlt
        have hparts : w.store.funcParts? F.handle = some (r, ps, va) := by simp only [Store.funcParts?, hF]
        refine .bind (silently (emitQuiet_along (funcArgType_along hg.store F.handle index))) ?_
        rintro T w1 - ⟨r1, -, hT⟩
        have hty : T ≠ noHandle → w1.store.type? T = some ps[index] := fun h0 =>
          (hT.resolve_right h0) r ps va _ hparts hp
        refine .bind (silently (typeAt_along fun h0 => ⟨_, hty h0⟩)) ?_
        rintro x w2 - ⟨r2, hs, hx, -⟩
        refine .look (need_along x) fun W hW => ?_
        obtain ⟨h0, rfl⟩ := hx W hW
        have r12 := trans_of Silent r1 r2
        refine .bind (convert_along (r12.good hg) (hm.mono r12.toStep) (ha.mono r12.toStep)
          (r2.store.type? (hty h0))) ?_
        rintro y w4 r4 ⟨op', t', hc, hy⟩
        rw [r12.code] at hc
        refine hrest (trans_of Steady r12.toSteady r4) hy fun c' vs hall => ?_
        rw [List.drop_eq_getElem_cons hlt]
        exact .cons hc hall
      · refine hrest (refl_of Steady w) ha fun c' vs hall => ?_
        rw [List.drop_eq_nil_of_le (Nat.le_of_not_lt hge)]
        rw [List.drop_eq_nil_of_le (Nat.le_succ_of_le (Nat.le_of_not_lt hge))] at hall
        exact .more hall

lemma target_of_callsTo {v target : Operand} (hs : s.WF) (ha : s.active = some block)
    (hb : s.block? block = some b) (h : Emit.CallsTo s (moduleOfBlock s block) s1 v target r ps va) :
    Target s.code v s1.code target ps := by
  have hhome : s.code.home = some (moduleOfBlock s block) := home_code hs ha hb
  cases h with
  | own hf hm hsame =>
    rw [hsame]
    exact .own (Store.func?_code hf) (hhome.trans (congrArg some hm.symm))
  | declared hf hm _ _ hsame =>
    rw [hsame]
    refine .other (Store.func?_code hf) (fun h => hm ?_) (.inl rfl)
    exact mem_unique h hhome
  | added hf hm _ _ _ hcode =>
    refine .other (Store.func?_code hf) (fun h => hm ?_) (.inr ⟨_, hcode⟩)
    exact mem_unique h hhome
  | pointer hv hty hsame =>
    rw [hsame]
    exact .pointer hv hty

section

variable (hg : Good w)

include hg

lemma call_along (hm : Live w m) (hf : Is w f op t) (hargs : List.Forall₂ (fun a p => Is w a p.1 p.2) args vals) :
    Along Steady w (call m (some f) args) fun x w' => ∃ v r,
      Calls w.store.code op t vals w'.store.code v r ∧ Is w' x v r := by
  refine .bind (silently (signatureOf_along hg m hf)) ?_
  rintro F w' - ⟨-, rfl, r, ps, va, hsig, hF⟩
  refine .bind (need_along _) ?_
  rintro f' w' - ⟨rfl, hf'⟩
  cases hf'
  have hparts : w'.store.funcParts? F.handle = some (r, ps, va) := by simp only [Store.funcParts?, hF]
  refine .bind store_along ?_
  rintro s w' - ⟨rfl, rfl⟩
  refine .bind store_along ?_
  rintro s w' - ⟨rfl, rfl⟩
  have hcount : w'.store.funcArgCount F.handle = ps.length := by
    simp only [Store.funcArgCount, hparts, map_some, getD_some]
  have hvariadic : w'.store.isVariadic F.handle = va := by
    simp only [Store.isVariadic, hparts, map_some, getD_some]
  rw [hcount, hvariadic]
  have hlen := hargs.length_eq
  refine fail_ite fun hn => ?_
  simp only [Bool.or_eq_true, decide_eq_true_eq, Bool.and_eq_true, Bool.not_eq_true', not_or, not_and,
    Nat.not_lt, Decidable.not_not, hlen] at hn
  refine .bind (callArgs_along args 0 vals hg hm hF hargs) ?_
  rintro hs w1 r1 ⟨vs, hconv, hops⟩
  rw [List.drop_zero] at hconv
  have hg1 := r1.good hg
  refine .bind (backend_along (call_along hg1.store (r1.store.operand? hf.operand) hops)) ?_
  rintro h w2 r2 ⟨hmods, block, b, s1, target, r', qs, va', ha, hb, hgrow, hcalls, hle, -, htys, hput⟩
  have hF2 := r2.store.type? (r1.store.type? hF)
  have hparts2 : w2.store.funcParts? F.handle = some (r, ps, va) := by simp only [Store.funcParts?, hF2]
  refine .bind (silently (emitQuiet_along (funcRetType_along (r2.good hg1).store F.handle))) ?_
  rintro R w3 - ⟨r3, hmods3, hR⟩
  have hty : R ≠ noHandle → w3.store.type? R = some r := fun h0 => (hR.resolve_right h0) r ps va hparts2
  refine .bind (silently (typeAt_along fun h0 => ⟨_, hty h0⟩)) ?_
  rintro T w4 - ⟨r4, hs4, hT, hvals⟩
  have hop4 : w4.store.operand? h = some (.inst h) := r4.store.operand? (r3.store.operand? (hput.operand rfl))
  refine (silently (valueWith_fresh (t := r) ?_ (fun M hM => ?_) hop4 (fun T' hT' => ?_) fun hset => ?_)).mono ?_
  · exact (((hm.mono r1.toStep).mono r2.toStep).mono r3.toStep).mono r4.toStep
  · obtain ⟨M0, hM0, hval⟩ := hvals M hM
    rw [hval]
    exact hg1.values_none (hmods3.trans hmods) (Nat.le_trans hgrow.size_le hput.fresh) hM0
  · obtain ⟨h0, rfl⟩ := hT T' hT'
    exact r4.store.type? (hty h0)
  · -- the result of a call is not settled
    have hins := hput.emits.inst_self
    rw [← r3.code, ← r4.code] at hins
    exact absurd rfl ((hset h _ _ rfl hins).1 target vs)
  · rintro x w5 - ⟨r5, -, hx⟩
    refine ⟨.inst h, r, .mk hsig ⟨hn.1, fun hva => hn.2 hva⟩ hconv (target_of_callsTo hg1.store ha hb hcalls) hle htys ?_, hx⟩
    rw [r5.code, r4.code, r3.code]
    exact hput.emits

lemma callNamed_along (hsc : Scoped w S Γ L) (name)
    (hargs : List.Forall₂ (fun a p => Is w a p.1 p.2) args vals) :
    Along Steady w (callNamed S.module name args) fun x w' => ∃ v r,
      CallsNamed Γ w.store.code name vals w'.store.code v r ∧ Is w' x v r := by
  have hlive := hsc.live
  refine .look ((valueSymbol_found hsc name).weaken fun _ r => r.toSteady) fun r hr => ?_
  cases r with
  | none => exact fail_along
  | some sym =>
    obtain ⟨v, op, t, hv, his, hfind⟩ := hr sym rfl
    simp only [hv]
    refine .bind (ptrVal_along hg hlive his) fun f w1 r1 ⟨op', t', hd, hf⟩ => ?_
    refine (call_along (r1.good hg) (hlive.mono r1.toStep) hf
      (hargs.imp fun _ _ h => h.mono r1.toStep)).mono ?_
    rintro x w2 - ⟨y, r, hcall, hx⟩
    exact ⟨y, r, .mk hfind hd hcall, hx⟩

lemma ret_along (m v) : Along Steady w (ret m v) fun _ w' =>
    (v.elim noHandle ValueId.handle = noHandle ∧
      (∀ b B F, w.store.code.Cursor b B → w.store.code.funcs B.func = some F → F.ret = .void) ∧
      w.store.code.Ends (.ret none) w'.store.code) ∨
    ∃ op, w.store.operand? (v.elim noHandle ValueId.handle) = some op ∧
      w.store.code.Ends (.ret (some op)) w'.store.code := by
  exact (backend_along (Emit.ret_along hg.store _)).mono fun _ _ _ h => h.2

lemma retValue_along (m) (hv : Is w v op t) :
    Along Steady w (ret m (some v)) fun _ w' => w.store.code.Ends (.ret (some op)) w'.store.code := by
  refine (ret_along hg m (some v)).mono ?_
  rintro _ w' - (⟨h0, -⟩ | ⟨op', hop', hend⟩)
  · exact absurd h0 (hg.store.ne_of_operand? hv.operand)
  · cases mem_unique hv.operand hop'
    exact hend

lemma retVoid_along (m) : Along Steady w (ret m none) fun _ w' =>
    (∀ b B F, w.store.code.Cursor b B → w.store.code.funcs B.func = some F → F.ret = .void) ∧
      w.store.code.Ends (.ret none) w'.store.code := by
  refine (ret_along hg m none).mono ?_
  rintro _ w' - (⟨-, h⟩ | ⟨op', hop', -⟩)
  · exact h
  · exact absurd rfl (hg.store.ne_of_operand? hop')

lemma signaturePart_along (m) (hv : Is w v op (.func r ps va)) {e : Handle → Emit Handle}
    (he : ∀ s F, s.WF → s.funcParts? F = some (r, ps, va) → Along Store.Quiet s (e F) fun h s' => s'.type? h = some t) :
    Along Silent w (do
      match ← attempt (signatureOf m (some v)) with
      | .ok ft => typeAt m (← emitQuiet (e ft.handle))
      | .error _ => pure none) fun x w' => ∀ T, x = some T → w'.store.type? T.handle = some t := by
  refine .bind (attempt_along (signatureOf_along hg m hv)) fun x w1 r1 hx => ?_
  cases x with
  | error f => exact .pure nofun
  | ok F =>
    obtain ⟨rfl, r', ps', va', hsig, hF⟩ := hx F rfl
    cases hsig
    refine .bind (emitQuiet_along (he _ F.handle hg.store (by simp only [Store.funcParts?, hF]))) ?_
    rintro h w2 r2 ⟨-, hh⟩
    refine (typeAt_along fun h0 => ⟨_, hh.resolve_right h0⟩).mono ?_
    rintro T w3 - ⟨hs, hT, -⟩ T' hT'
    obtain ⟨h0, rfl⟩ := hT T' hT'
    rw [hs]
    exact hh.resolve_right h0

lemma funcRetType_along (m) (hv : Is w v op (.func r ps va)) : Along Silent w (funcRetType m (some v)) fun x w' =>
      ∀ T, x = some T → w'.store.type? T.handle = some r :=
  signaturePart_along hg m hv fun _ F hs hF => (Emit.funcRetType_along hs F).mono fun _ _ _ h => h r ps va hF

lemma funcArgType_along (m) (hv : Is w v op (.func r ps va)) (ht : ps[index]? = some t) :
    Along Silent w (funcArgType m (some v) index) fun x w' => ∀ T, x = some T → w'.store.type? T.handle = some t :=
  signaturePart_along hg m hv fun _ F hs hF => (Emit.funcArgType_along hs F index).mono fun _ _ _ h => h r ps va t hF ht

lemma funcArg_along (hm : Live w m) (hv : Is w v (.func f) u) (index) :
    Along Silent w (funcArg m v index) fun x w' => ∃ F t, w.store.code.funcs f = some F ∧
      F.params[index]? = some t ∧ Is w' x (.param f index) t := by
  obtain ⟨hf, F, hF⟩ := Store.operand?_func hv.operand
  subst hf
  have hFc : w.store.code.funcs v.handle = some F.code := Store.func?_code hF
  have hsig := hv.valueTy hg (settled_func _)
  have hval : w.store.code.valueTy (.func v.handle) = F.code.signature := by
    simp only [Code.valueTy, hFc, elim_some]
  rw [hval] at hsig
  refine .bind (backend_silent (Emit.funcArg_along hg.store v.handle index)) ?_
  rintro h w1 r1 ⟨-, F', hF', hlt, hop⟩
  cases mem_unique hF hF'
  have hlt' : index < F.code.params.length := by simpa [FuncInfo.code] using hlt
  have ht : F.code.params[index]? = some F.code.params[index] := List.getElem?_eq_getElem hlt'
  refine .bind (funcArgType_along (r1.good hg) m (hsig.mono r1.toStep) ht) fun T w2 r2 hT => ?_
  have hty : w2.store.code.valueTy (.param v.handle index) = F.code.params[index] := by
    rw [r2.code, r1.code]
    simp only [Code.valueTy, Code.tyOf, hFc, bind_some, ht, getD_some]
  refine (valueWith_settled (r2.good (r1.good hg)) ((hm.mono r1.toStep).mono r2.toStep)
    (r2.store.operand? hop) (settled_param _ _) fun T' hT' => hty.symm ▸ hT T' hT').mono ?_
  rintro x w3 - ⟨-, hx⟩
  exact ⟨F.code, F.code.params[index], hFc, ht, hty ▸ hx⟩

end

end Act

end Arbor.Build
