import Arbor.Proofs.Emission

/-! What each instruction checks before it is put into the active block, and what is put there. -/

namespace Arbor.IR

open Proofs Option List Option

variable {b : BlockInfo} {va : Bool} {h : Handle} {ps : List Ty} {s' : Store} {t : Ty}
variable {s1 : Store} {block func : Handle} {v x : Operand}

namespace Store

variable {s : Store} {h : Handle}

lemma WF.found (hs : s.WF) (h t) (he : s.entry h = .type t) : s.Found t h := by
  have hok := hs.entries h
  rw [he] at hok
  exact hok.1

lemma WF.type?_inj (hs : s.WF) (ht : s.type? h = some t) (ht' : s.type? h' = some t) : h = h' :=
  handle_unique hs.found ht ht'

end Store

/-- What a slot for values of a type holds; a function is held by its address. -/
def Ty.held : Ty → Ty
  | .func r ps v => .ptr (.func r ps v)
  | t => t

namespace Emit

open Store

variable {s : Store}

def unaryInst? (op : Op) (x : Operand) (t : Ty) : Option (Inst × Ty) :=
  match op, t with
  | .neg, .float p => some (.fneg x, .float p)
  | .not, .int .w1 => some (.int .xor x (.const (.bool true)), .bool)
  | _, .int .w1 => none
  | .neg, .int w => some (.int .sub (.const (.int w 0)) x, .int w)
  | .flip, .int w => some (.int .xor x (.const (.int w (-1))), .int w)
  | _, _ => none

def resultTy (t : Ty) : Inst → Ty
  | .icmp .. | .fcmp .. => .bool
  | _ => t

structure Puts (s : Store) (h : Handle) (i : Inst) (t : Ty) (s' : Store) : Prop where
  emits : s.code.Emits h i t s'.code
  fresh : s.entries.size ≤ h
  operand : i.isValue = true → s'.operand? h = some (.inst h)

lemma Puts.after (q : Quiet s s1) (p : Puts s1 h i t s') : Puts s h i t s' :=
  ⟨q.code ▸ p.emits, Nat.le_trans q.size_le p.fresh, p.operand⟩

lemma cursor_of_code (hc : s.code.Cursor block B) :
    ∃ b, s.active = some block ∧ s.block? block = some b ∧ b.ending = none := by
  have hblock := hc.block
  simp only [Store.code, map_eq_some_iff] at hblock
  obtain ⟨b, hb, rfl⟩ := hblock
  exact ⟨b, hc.active, hb, by simpa [BlockInfo.code] using hc.opened⟩

lemma cursor_quiet (q : Quiet s s') (hactive : s.active = some block)
    (hb : s.block? block = some b) (hopen : b.ending = none) :
    ∃ b', s'.active = some block ∧ s'.block? block = some b' ∧ b'.ending = none :=
  by
  refine cursor_of_code (q.code.symm ▸ (⟨hactive, block?_code hb, ?_⟩ : s.code.Cursor block b.code))
  simp [BlockInfo.code, hopen]

lemma put_along (hs : s.WF) (hty : s.Holds ty) (hslot : ∀ e, inst = .alloca e → ty = .ptr e)
    (hload : ∀ e v, inst = .load e v → ∃ g j, v = .inst g ∧ s.inst? g = some j ∧ j.inst = .alloca e)
    (hcall : ∀ f vs, inst ≠ .call f vs) : Along Grows s (do
      let block ← cursor
      append block inst ty) fun h s' => Puts s h inst ty s' := by
  refine .bind (cursor_along hs) ?_
  rintro block s' - ⟨rfl, b, ha, hb, hopen⟩
  refine (append_along ha hb hopen hty hslot hload fun d vs hd => absurd hd (hcall _ vs)).mono
    fun h s1 _ hq => ⟨hq.2.2, Nat.le_of_eq hq.1.symm, ?_⟩
  intro hval
  simp only [operand?, inst?_eq_some.1 hq.2.1, hval, if_true]

lemma bitcast_along (hs : s.WF) (value type) :
    Along Grows s (bitcast value type) fun h s' => ∃ v t, s.operand? value = some v ∧
      s.type? type = some t ∧ Puts s h (.cast .bitcast v t) t s' := by
  refine .bind (quietly (operandOf_along value)) ?_
  rintro v s' - ⟨-, rfl, hv⟩
  refine .bind (quietly (typeOf_along type)) ?_
  rintro t s1 - ⟨-, rfl, ht⟩
  exact (put_along hs (hs.holds_of_type? ht) (by simp) (by simp) (by simp)).mono fun h s2 _ hq => ⟨v, t, hv, ht, hq⟩

lemma alloc_along (hs : s.WF) (type name) : Along Grows s (alloc type name) fun h s' => ∃ t, s.type? type = some t ∧
      Puts s h (.alloca t.held) (.ptr t.held) s' := by
  refine .bind (quietly (typeOf_along type)) ?_
  rintro t s' - ⟨-, rfl, ht⟩
  have hh : s'.Holds (.ptr t.held) := by
    have hheld := hs.holds_of_type? ht
    cases t <;> exact hheld
  have hrest : Along Grows s' (do
      let block ← cursor
      let func := ((← get).block? block).elim noHandle BlockInfo.func
      let unique ← localName func name
      let h ← append block (.alloca t.held) (.ptr t.held)
      modify (·.setInst h
        { inst := .alloca t.held, ty := .ptr t.held, block, ident := { name := unique } })
      pure h) fun h s1 => ∃ t, s'.type? type = some t ∧ Puts s' h (.alloca t.held) (.ptr t.held) s1 := by
    refine .bind (cursor_along hs) ?_
    rintro block s1 - ⟨rfl, b, ha, hb, hopen⟩
    rw [along_get_bind]
    refine .bind (quietly (localName_along _ name)) fun unique s2 r2 ⟨q, _⟩ => ?_
    obtain ⟨b', ha', hb', hopen'⟩ := cursor_quiet q ha hb hopen
    refine .bind (append_along ha' hb' hopen' (q.holds hh) (by simp) (by simp) (by simp)) ?_
    rintro h s3 - ⟨rfl, hi, hemits⟩
    have q' := quiet_setInst
      (j := { inst := .alloca t.held, ty := .ptr t.held, block := block, ident := { name := unique } })
      hi ⟨rfl, rfl, rfl⟩
    refine ⟨q'.toGrows, t, ht, ?_, q.size_le, fun hval => ?_⟩
    · rw [← q.code, q'.code]
      exact hemits
    · refine q'.operand? ?_
      simp only [operand?, inst?_eq_some.1 hi, hval, if_true]
  cases t with
  | void => exact .throw
  | label => exact .throw
  | _ => exact hrest

inductive Loads (s : Store) (value h : Handle) (s' : Store) : Operand → Prop where
  | slot {e : Ty} (hslot : s.code.insts value = some (.alloca e, .ptr e))
      (hput : Puts s h (.load e (.inst value)) e s') : Loads s value h s' (.inst value)
  | plain {v : Operand} (hplain : ∀ g e t, v = .inst g → s.code.insts g ≠ some (.alloca e, t))
      (hvalue : h = value) (hsame : s' = s) : Loads s value h s' v

lemma slot_ty (hs : s.WF) (hi : s.inst? h = some i) (he : i.inst = .alloca e) : i.ty = .ptr e := by
  have hok := hs.entries h
  rw [inst?_eq_some.1 hi] at hok
  exact hok.2.1 e he

lemma ptrVal_along (hs : s.WF) (value) :
    Along Grows s (ptrVal value) fun h s' => ∃ v, s.operand? value = some v ∧ Loads s value h s' v := by
  refine .bind (quietly (operandOf_along value)) ?_
  rintro v s' - ⟨-, rfl, hv⟩
  cases v with
  | inst g =>
    obtain ⟨rfl, i, hi⟩ := operand?_inst hv
    have hcode := inst?_code hi
    rw [along_get_bind, hi]
    simp only [map_some]
    cases hinst : i.inst with
    | alloca e =>
      have hty := slot_ty hs hi hinst
      rw [hinst, hty] at hcode
      have htyOf : s'.tyOf (.inst g) = .ptr e := by simp only [tyOf, hi, elim_some, hty]
      have hh := hs.holds_tyOf hv
      refine .bind (quietly (operandOf_along g)) ?_
      rintro p s1 - ⟨-, rfl, hp⟩
      rw [hv] at hp
      cases hp
      rw [along_get_bind, htyOf]
      rw [htyOf] at hh
      refine (put_along hs hh.elem (by simp) (fun e' v' hv' => ?_) (by simp)).mono
        fun h s2 _ hq => ⟨_, hv, .slot hcode hq⟩
      cases hv'
      exact ⟨g, i, rfl, hi, hinst⟩
    | _ =>
      refine .pure ⟨_, hv, .plain (fun g' e t hg => ?_) rfl rfl⟩
      cases hg
      simp [hcode, hinst]
  | _ => exact .pure ⟨_, hv, .plain (fun g e t hg => by cases hg) rfl rfl⟩

inductive SlotOf (c : Code) : Operand → Handle → Ty → Prop where
  | slot {g : Handle} {e : Ty} (hslot : c.insts g = some (.alloca e, .ptr e)) : SlotOf c (.inst g) g e
  | loaded {g x : Handle} {e e' t : Ty} (hload : c.insts g = some (.load e' (.inst x), t))
      (hslot : c.insts x = some (.alloca e, .ptr e)) : SlotOf c (.inst g) x e

lemma ptrRef_along (hs : s.WF) (value) :
    Along Quiet s (ptrRef value) fun h s' => s' = s ∧ ∃ v e, s.operand? value = some v ∧
      SlotOf s.code v h e ∧ s.operand? h = some (.inst h) := by
  refine .look (operandOf_along value) fun v hv => ?_
  cases v with
  | inst g =>
    obtain ⟨rfl, i, hi⟩ := operand?_inst hv
    have hcode := inst?_code hi
    rw [along_get_bind, hi]
    simp only [map_some]
    cases hinst : i.inst with
    | alloca e =>
      rw [hinst, slot_ty hs hi hinst] at hcode
      exact .pure ⟨rfl, _, e, hv, .slot hcode, hv⟩
    | load e src =>
      have hok := hs.entries g
      rw [inst?_eq_some.1 hi] at hok
      obtain ⟨x, j, rfl, hj, ha⟩ := hok.2.2.1 e src hinst
      have hj' := inst?_eq_some.2 hj
      have hx := inst?_code hj'
      rw [ha, slot_ty hs hj' ha] at hx
      rw [hinst] at hcode
      refine .pure ⟨rfl, _, e, hv, .loaded hcode hx, ?_⟩
      simp only [operand?, hj, ha, Inst.isValue, if_true]
    | _ => exact .refuse rfl
  | _ => exact .refuse rfl

lemma store_along (hs : s.WF) (ptr value) :
    Along Grows s (store ptr value) fun h s' => ∃ p v e, s.operand? ptr = some p ∧
      s.operand? value = some v ∧ s.code.tyOf p = .ptr e ∧ s.code.tyOf v = e ∧ Puts s h (.store v p) .void s' := by
  refine .bind (quietly (operandOf_along ptr)) ?_
  rintro p s' - ⟨-, rfl, hp⟩
  refine .bind (quietly (operandOf_along value)) ?_
  rintro v s1 - ⟨-, rfl, hv⟩
  rw [along_get_bind]
  have hh := hs.holds_tyOf hp
  split
  · next e he =>
    rw [he] at hh
    refine .bind (quietly (internType_along e hs hh.elem)) fun want s2 r2 ⟨q2, hwant⟩ => ?_
    refine .bind (quietly (valueType_along (r2.wf hs) value)) fun own s3 r3 ⟨q3, hown⟩ => ?_
    have hs3 := r3.wf (r2.wf hs)
    have hown' := hown v (q2.operand? hv)
    have hrest : ∀ got s4, Quiet s3 s4 → s4.type? got = some (s1.code.tyOf v) → Along Grows s4 (do
          if want ≠ got then
            throw (.storeMismatch ((← get).typeName got) ((← get).typeName want))
          let block ← cursor
          append block (.store v p) .void) fun h s' => ∃ p v e, s1.operand? ptr = some p ∧
            s1.operand? value = some v ∧ s1.code.tyOf p = .ptr e ∧ s1.code.tyOf v = e ∧
            Puts s1 h (.store v p) .void s' := by
      intro got s4 q4 hgot
      have q := trans_of Quiet (trans_of Quiet q2 q3) q4
      refine .ite (fun _ => .refuse rfl) fun heq => ?_
      have heq : want = got := Decidable.not_not.1 heq
      have hty := some.inj (((trans_of Quiet q3 q4).toMono.type? hwant).symm.trans (heq ▸ hgot))
      refine (put_along (q.wf hs) (by simp [Holds, Ty.structs]) (by simp) (by simp) (by simp)).mono
        fun h s5 _ hput => ⟨p, v, e, hp, hv, ?_, hty.symm, hput.after q⟩
      rw [← tyOf_eq_code, he]
    cases v with
    | func g =>
      rw [along_get_bind]
      refine .bind (quietly (internType_along _ hs3 (hs3.holds_tyOf (q3.operand? (q2.operand? hv))))) ?_
      rintro got s4 - ⟨q4, hgot⟩
      refine hrest got s4 q4 ?_
      rw [hgot, tyOf_eq_code, q3.code, q2.code]
    | _ =>
      refine hrest own s3 (refl_of Quiet s3) ?_
      rw [hown', q2.code]
      rfl
  · exact .refuse rfl

lemma coerce_along (hs : s.WF) (hv : s.operand? value = some v) (ht : s.type? type = some t) :
    Along Grows s (coerce value type) fun h s' =>
      (s.code.valueTy v = t ∧ h = value ∧ Quiet s s') ∨
        ∃ c, castBetween (s.code.valueTy v).kind t.kind = some c ∧ Puts s h (.cast c v t) t s' := by
  refine .bind (quietly (valueType_along hs value)) fun source s1 r1 ⟨q, hsource⟩ => ?_
  have hsource := hsource v hv
  have ht1 := q.type? ht
  refine .ite (fun heq => .pure (.inl ⟨?_, rfl, q⟩)) fun _ => ?_
  · exact some.inj (hsource.symm.trans (heq ▸ ht1))
  · refine .bind (quietly (operandOf_along value)) ?_
    rintro v' s2 - ⟨-, rfl, hv'⟩
    cases some.inj ((q.operand? hv).symm.trans hv')
    refine .bind (quietly (typeOf_along type)) ?_
    rintro t' s3 - ⟨-, rfl, ht'⟩
    cases mem_unique ht1 ht'
    rw [along_get_bind, typeKind_of_type? hsource]
    refine .bind (cursor_along (r1.wf hs)) ?_
    rintro block s4 - ⟨rfl, b, ha, hb, hopen⟩
    cases hc : castBetween (s.code.valueTy v).kind t.kind with
    | none => exact .refuse rfl
    | some c =>
      refine (append_along ha hb hopen (q.holds (hs.holds_of_type? ht)) (by simp) (by simp) (by simp)).mono
        fun h s5 _ hq => .inr ⟨c, rfl, q.code ▸ hq.2.2, ?_, fun hval => ?_⟩
      · exact hq.1 ▸ q.size_le
      · simp only [operand?, inst?_eq_some.1 hq.2.1, hval, if_true]

lemma append_puts (q : Quiet s s1)
    (ha : s1.active = some block) (hb : s1.block? block = some b) (hopen : b.ending = none) (hty : s1.Holds ty)
    (hslot : ∀ e, inst ≠ .alloca e) (hload : ∀ e v, inst ≠ .load e v) (hcall : ∀ d vs, inst = .call (.func d) vs →
      ∃ F G, s1.func? b.func = some F ∧ s1.func? d = some G ∧ G.module = F.module) :
    Along Grows s1 (append block inst ty) fun h s' => Puts s h inst ty s' := by
  refine (append_along ha hb hopen hty (fun e he => absurd he (hslot e))
    (fun e v hv => absurd hv (hload e v)) hcall).mono fun h s2 _ hq => ⟨q.code ▸ hq.2.2, ?_, fun hval => ?_⟩
  · exact hq.1 ▸ q.size_le
  · simp only [operand?, inst?_eq_some.1 hq.2.1, hval, if_true]

lemma unary_along (hs : s.WF) (op) (hx : s.operand? value = some x) :
    Along Grows s (unary op value) fun h s' => ∃ i t, unaryInst? op x (s.code.tyOf x) = some (i, t) ∧
      Puts s h i t s' := by
  refine .bind (quietly (operandOf_along value)) ?_
  rintro x' s1 - ⟨-, rfl, hx'⟩
  cases mem_unique hx hx'
  refine .bind (quietly (valueType_along hs value)) fun type s2 r2 ⟨q, _⟩ => ?_
  rw [along_get_bind]
  refine .bind (cursor_along (r2.wf hs)) ?_
  rintro block s3 - ⟨rfl, b, ha, hb, hopen⟩
  rw [along_get_bind]
  have hty : s3.tyOf x = s1.code.tyOf x := by rw [tyOf_eq_code, q.code]
  rw [hty]
  generalize s1.code.tyOf x = t
  have hput : ∀ {inst : Inst} {w : Ty}, (∀ k, k ∉ w.structs) → (∀ e, inst ≠ .alloca e) →
      (∀ e v, inst ≠ .load e v) → (∀ f vs, inst ≠ .call f vs) → Along Grows s3 (append block inst w) fun h s' =>
        ∃ i u, some (inst, w) = some (i, u) ∧ Puts s1 h i u s' :=
    fun hw hslot hload hcall => (append_puts q ha hb hopen (fun k hk => absurd hk (hw k)) hslot hload
      fun d vs hd => absurd hd (hcall _ vs)).mono fun h s4 _ hq => ⟨_, _, rfl, hq⟩
  split
  · exact hput (by simp [Ty.structs]) (by simp) (by simp) (by simp)
  · exact hput (by simp [Ty.structs]) (by simp) (by simp) (by simp)
  · exact .refuse rfl
  · next w hw =>
    cases w with
    | w1 => exact absurd rfl hw
    | _ => exact hput (by simp [Ty.structs]) (by simp) (by simp) (by simp)
  · next w hw =>
    cases w with
    | w1 => exact absurd rfl hw
    | _ => exact hput (by simp [Ty.structs]) (by simp) (by simp) (by simp)
  · exact .refuse rfl

lemma binaryInst?_shape (hi : binaryInst? op k x y = some i) :
    (∃ c, i = .icmp c x y) ∨ (∃ c, i = .fcmp c x y) ∨ (∃ o, i = .int o x y) ∨ ∃ o, i = .float o x y := by
  unfold binaryInst? at hi
  split at hi
  · split at hi
    · exact .inl ⟨_, (some.inj hi).symm⟩
    · split at hi
      · exact .inr (.inl ⟨_, (some.inj hi).symm⟩)
      · cases hi
  · split at hi
    · obtain ⟨o, -, rfl⟩ := map_eq_some_iff.1 hi
      exact .inr (.inr (.inl ⟨o, rfl⟩))
    · split at hi
      · obtain ⟨o, -, rfl⟩ := map_eq_some_iff.1 hi
        exact .inr (.inr (.inr ⟨o, rfl⟩))
      · split at hi
        · obtain ⟨o, -, rfl⟩ := map_eq_some_iff.1 hi
          exact .inr (.inr (.inl ⟨o, rfl⟩))
        · cases hi

lemma binary_along (hs : s.WF) (op) (hx : s.operand? left = some x) (hy : s.operand? right = some y) :
    Along Grows s (binary op left right) fun h s' => s.code.valueTy x = s.code.valueTy y ∧
      ∃ i, binaryInst? op (s.code.valueTy x).kind x y = some i ∧ Puts s h i (resultTy (s.code.tyOf x) i) s' := by
  refine .bind (quietly (operandOf_along left)) ?_
  rintro x' s1 - ⟨-, rfl, hx'⟩
  cases mem_unique hx hx'
  refine .bind (quietly (operandOf_along right)) ?_
  rintro y' s2 - ⟨-, rfl, hy'⟩
  cases mem_unique hy hy'
  refine .bind (quietly (valueType_along hs left)) fun tl s1 r1 ⟨q1, hl⟩ => ?_
  refine .bind (quietly (valueType_along (r1.wf hs) right)) fun tr s3 r3 ⟨q3, hr⟩ => ?_
  have q := trans_of Quiet q1 q3
  have hl := q3.type? (hl x hx)
  have hr := hr y (q1.operand? hy)
  rw [q1.code] at hr
  refine .ite (fun _ => .refuse rfl) fun heq => ?_
  have heq : tl = tr := Decidable.not_not.1 heq
  have hty : s2.code.valueTy x = s2.code.valueTy y := some.inj (hl.symm.trans (heq ▸ hr))
  rw [along_get_bind, typeKind_of_type? hl]
  refine .bind (cursor_along (q.wf hs)) ?_
  rintro block s4 - ⟨rfl, b, ha, hb, hopen⟩
  cases hi : binaryInst? op (s2.code.valueTy x).kind x y with
  | none => exact .refuse rfl
  | some i =>
    rw [along_get_bind]
    have htyOf : s4.tyOf x = s2.code.tyOf x := by rw [tyOf_eq_code, q.code]
    have hshape := binaryInst?_shape hi
    have hh : s4.Holds (resultTy (s2.code.tyOf x) i) := by
      have := (q.wf hs).holds_tyOf (q.operand? hx)
      rw [htyOf] at this
      unfold resultTy
      split
      · simp [Holds, Ty.structs]
      · simp [Holds, Ty.structs]
      · exact this
    have hput := append_puts q ha hb hopen hh
      (show ∀ e, i ≠ .alloca e by rcases hshape with ⟨_, rfl⟩ | ⟨_, rfl⟩ | ⟨_, rfl⟩ | ⟨_, rfl⟩ <;> simp)
      (by rcases hshape with ⟨_, rfl⟩ | ⟨_, rfl⟩ | ⟨_, rfl⟩ | ⟨_, rfl⟩ <;> simp)
      (by rcases hshape with ⟨_, rfl⟩ | ⟨_, rfl⟩ | ⟨_, rfl⟩ | ⟨_, rfl⟩ <;> simp)
    rw [htyOf]
    exact hput.mono fun h s5 _ hq => ⟨hty, i, rfl, hq⟩

lemma jump_along (hs : s.WF) (target) : Along Grows s (jump target) fun _ s' => s.code.Ends (.br target) s'.code := by
  refine .bind (quietly (blockOf_along target)) ?_
  rintro B s1 - ⟨-, rfl, hB⟩
  refine .bind (cursor_along hs) ?_
  rintro block s2 - ⟨rfl, b, ha, hb, hopen⟩
  refine terminate_along ha hb hopen fun x hx => ?_
  rw [Terminator.successors, mem_singleton] at hx
  exact ⟨B, hx ▸ hB⟩

lemma jumpCond_along (hs : s.WF) {cond : Handle} (hc : s.operand? cond = some c) (yes no) :
    Along Grows s (jumpCond cond yes no) fun _ s' => s.code.valueTy c = .bool ∧
      s.code.Ends (.condBr c yes no) s'.code := by
  refine .bind (quietly (operandOf_along cond)) ?_
  rintro c' s1 - ⟨-, rfl, hc'⟩
  cases mem_unique hc hc'
  refine .bind (quietly (valueType_along hs cond)) fun type s2 r2 ⟨q2, htype⟩ => ?_
  refine .bind (quietly (internType_along (.int .w1) (r2.wf hs) (holds_int .w1))) fun bool s3 r3 ⟨q3, hbool⟩ => ?_
  have q := trans_of Quiet q2 q3
  refine .ite (fun _ => .refuse rfl) fun heq => ?_
  have heq : type = bool := Decidable.not_not.1 heq
  have hty : s1.code.valueTy c = .bool := by
    have h1 := q3.type? (htype c hc)
    rw [heq, hbool] at h1
    exact (some.inj h1).symm
  refine .bind (quietly (blockOf_along yes)) ?_
  rintro Y s4 - ⟨-, rfl, hY⟩
  refine .bind (quietly (blockOf_along no)) ?_
  rintro N s5 - ⟨-, rfl, hN⟩
  refine .bind (cursor_along (q.wf hs)) ?_
  rintro block s6 - ⟨rfl, b, ha, hb, hopen⟩
  refine (terminate_along ha hb hopen fun x hx => ?_).mono fun _ s7 _ he => ⟨hty, q.code ▸ he⟩
  simp only [Terminator.successors, mem_cons, not_mem_nil, or_false] at hx
  rcases hx with rfl | rfl
  · exact ⟨Y, hY⟩
  · exact ⟨N, hN⟩

lemma phiEdges_along (incoming) : ∀ {s : Store} (index) (vs), s.WF → s.type? type = some t →
      Forall₂ (fun p v => s.operand? p.1 = some v) incoming vs →
      Along Quiet s (phiEdges type index incoming) fun edges _ =>
        edges = vs.zip (incoming.map Prod.snd) ∧ ∀ v ∈ vs, s.code.valueTy v = t := by
  induction incoming with
  | nil =>
    rintro s _ _ - - ⟨⟩
    exact .pure ⟨rfl, by simp⟩
  | cons p rest ih =>
    obtain ⟨value, pred⟩ := p
    rintro s index _ hs ht (_ | @⟨_, v, _, vs, hv, hvs⟩)
    refine .bind (valueType_along hs value) fun got s1 q1 hgot => ?_
    refine .ite (fun _ => .refuse rfl) fun heq => ?_
    have heq : got = type := Decidable.not_not.1 heq
    have hty : s.code.valueTy v = t := some.inj ((hgot v hv).symm.trans (heq ▸ q1.type? ht))
    refine .look (operandOf_along value) fun v' hv' => ?_
    cases some.inj ((q1.operand? hv).symm.trans hv')
    refine .look (blockOf_along pred) fun B hB => ?_
    refine .bind (ih (index + 1) vs (q1.wf hs) (q1.type? ht) (hvs.imp fun p u hu => q1.operand? hu)) ?_
    rintro edges s4 q4 ⟨rfl, htys⟩
    refine .pure ⟨rfl, fun u hu => ?_⟩
    rcases mem_cons.1 hu with rfl | hu
    · exact hty
    · exact q1.code ▸ htys u hu

lemma phi_along (hs : s.WF) (ht : s.type? type = some t)
    (h1 : s.operand? v1 = some x1) (h2 : s.operand? v2 = some x2) :
    Along Grows s (phi type [(v1, b1), (v2, b2)]) fun h s' => s.code.valueTy x1 = t ∧
      s.code.valueTy x2 = t ∧ Puts s h (.phi [(x1, b1), (x2, b2)]) (s.code.tyOf x1) s' := by
  unfold phi
  refine .ite (fun hne => by simp at hne) fun _ => ?_
  refine .bind (quietly (phiEdges_along _ 0 [x1, x2] hs ht (.cons h1 (.cons h2 .nil)))) ?_
  rintro edges s1 r1 ⟨q, rfl, hty⟩
  refine .bind (cursor_along (r1.wf hs)) ?_
  rintro block s2 - ⟨rfl, b, ha, hb, hopen⟩
  rw [along_get_bind]
  have htyOf : s2.tyOf x1 = s.code.tyOf x1 := by rw [tyOf_eq_code, q.code]
  have hh := (r1.wf hs).holds_tyOf (q.operand? h1)
  rw [htyOf] at hh
  simp only [map_cons, zip_cons_cons, List.head?_cons, map_some, htyOf]
  exact (append_puts q ha hb hopen hh (by simp) (by simp) (by simp)).mono fun h s3 _ hq =>
    ⟨hty x1 (by simp), hty x2 (by simp), hq⟩

lemma callArgs_along (args) : ∀ {s : Store} (index) (ps), s.WF → (∀ t ∈ ps, s.Holds t) →
      Along Quiet s (callArgs index ps args) fun vs s' => Forall₂ (fun a v => s'.operand? a = some v) args vs ∧
        ∀ (j : Nat) t v, ps[j]? = some t → vs[j]? = some v → s.code.valueTy v = t := by
  induction args with
  | nil => exact fun _ _ _ _ => .pure ⟨.nil, by simp⟩
  | cons a rest ih =>
    intro s index ps hs hps
    cases ps with
    | nil =>
      unfold callArgs
      rw [along_get_bind]
      cases hv : s.operand? a with
      | none => exact .throw
      | some v =>
        refine .bind (ih (index + 1) [] hs (by simp)) fun vs s1 q1 ⟨hvs, _⟩ => ?_
        exact .pure ⟨.cons (q1.operand? hv) hvs, by simp⟩
    | cons t ts =>
      unfold callArgs
      rw [along_get_bind]
      cases hv : s.operand? a with
      | none => exact .throw
      | some v =>
        refine .bind (internType_along t hs (hps t (by simp))) fun want s1 q1 hwant => ?_
        refine .bind (valueType_along (q1.wf hs) a) fun got s2 q2 hgot => ?_
        have q := trans_of Quiet q1 q2
        refine .ite (fun _ => .refuse rfl) fun heq => ?_
        have heq : got = want := Decidable.not_not.1 heq
        have hty : s.code.valueTy v = t := by
          have h1 := hgot v (q1.operand? hv)
          rw [heq, q2.type? hwant, q1.code] at h1
          exact (some.inj h1).symm
        refine .bind (ih (index + 1) ts (q.wf hs) fun u hu => q.holds (hps u (by simp [hu]))) ?_
        rintro vs s3 q3 ⟨hvs, htys⟩
        refine .pure ⟨.cons (q3.operand? (q.operand? hv)) hvs, fun j u w hj hw => ?_⟩
        cases j with
        | zero =>
          cases hj
          cases hw
          exact hty
        | succ j => exact q.code ▸ htys j u w hj hw

inductive CallsTo (s : Store) (home : Handle) (s' : Store) :
    Operand → Operand → Ty → List Ty → Bool → Prop where
  | own {h : Handle} {f : FuncInfo} (hf : s.func? h = some f) (hhome : f.module = home) (hsame : s' = s) :
      CallsTo s home s' (.func h) (.func h) f.ret f.code.params f.variadic
  | declared {h d : Handle} {f : FuncInfo} {m : ModuleInfo} (hf : s.func? h = some f)
      (hhome : f.module ≠ home) (hm : s.module? home = some m)
      (hd : m.declared.lookup f.ident.spoken = some d) (hsame : s' = s) :
      CallsTo s home s' (.func h) (.func d) f.ret f.code.params f.variadic
  | added {h d : Handle} {f : FuncInfo} {m : ModuleInfo} (hf : s.func? h = some f)
      (hhome : f.module ≠ home) (hm : s.module? home = some m)
      (hd : m.declared.lookup f.ident.spoken = none)
      (hnew : s'.func? d = some (bodiless home f.ident.spoken f.ret f.code.params f.variadic))
      (hcode : s.code.Declares d
        { module := home, ret := f.ret, params := f.code.params, variadic := f.variadic } s'.code) :
      CallsTo s home s' (.func h) (.func d) f.ret f.code.params f.variadic
  | pointer {v : Operand} {r : Ty} {ps : List Ty} {va : Bool} (hv : ∀ h, v ≠ .func h)
      (hty : s.code.tyOf v = .ptr (.func r ps va)) (hsame : s' = s) : CallsTo s home s' v v r ps va

lemma module?_home (hs : s.WF) (hb : s.block? block = some b) : ∃ m, s.module? (moduleOfBlock s block) = some m := by
  have hok := hs.entries block
  rw [block?_eq_some.1 hb] at hok
  obtain ⟨⟨F, hF, -⟩, -⟩ := hok
  have hFok := hs.entries b.func
  rw [hF] at hFok
  obtain ⟨⟨m, hm, -⟩, -⟩ := hFok
  refine ⟨m, module?_eq_some.2 ?_⟩
  simpa only [moduleOfBlock, hb, func?_eq_some.2 hF, Option.bind_eq_bind, Option.bind_some,
    Option.pure_def, Option.getD_some] using hm

lemma callTarget_along (hs : s.WF) (hb : s.block? block = some b) (hcallee : s.operand? func = some callee) :
    Along Grows s (callTarget block callee) fun t s' =>
      CallsTo s (moduleOfBlock s block) s' callee t.1 t.2.1 t.2.2.1 t.2.2.2 ∧
        s.Holds (.func t.2.1 t.2.2.1 t.2.2.2) := by
  have hpointer (hne : ∀ h, callee ≠ .func h) : Along Grows s (callTarget block callee) fun t s' =>
      CallsTo s (moduleOfBlock s block) s' callee t.1 t.2.1 t.2.2.1 t.2.2.2 ∧
        s.Holds (.func t.2.1 t.2.2.1 t.2.2.2) := by
    have hh := hs.holds_tyOf hcallee
    rw [callTarget, along_get_bind]
    on_goal 2 => exact hne
    split
    · next r ps va hty =>
      rw [hty] at hh
      exact .pure ⟨.pointer hne (by rw [← tyOf_eq_code, hty]) rfl, hh.elem⟩
    · exact .refuse rfl
  cases callee with
  | func h =>
    obtain ⟨rfl, f, hf⟩ := operand?_func hcallee
    obtain ⟨m, hm⟩ := module?_home hs hb
    unfold callTarget
    rw [along_get_bind, hf]
    refine .ite (fun hhome => .pure ⟨.own hf hhome rfl, hs.holds_signature hf⟩) fun hhome => ?_
    have hextern : Along Grows s (externIn (moduleOfBlock s block) f) fun d s' =>
        CallsTo s (moduleOfBlock s block) s' (.func h) (.func d) f.ret f.code.params f.variadic := by
      unfold externIn
      rw [along_get_bind, hm]
      simp only
      cases hd : m.declared.lookup f.ident.spoken with
      | some d => exact .pure (.declared hf hhome hm hd rfl)
      | none =>
        have hplain := hs.plain hf
        refine ((newFunc_along hs hm f.ident.spoken (hs.holds_signature hf) hplain.1 hplain.2).mono
          fun d s' _ hq => ?_).weaken fun _ r => r.toGrows
        exact .added hf hhome hm hd hq.2.1 hq.2.2.2
    refine .bind hextern fun d s' _ hcalls => ?_
    exact .pure ⟨hcalls, hs.holds_signature hf⟩
  | _ => exact hpointer (by simp)

lemma func?_home (hs : s.WF) (hb : s.block? block = some b) :
    ∃ F, s.func? b.func = some F ∧ F.module = moduleOfBlock s block := by
  have hok := hs.entries block
  rw [block?_eq_some.1 hb] at hok
  obtain ⟨⟨F, hF, -⟩, -⟩ := hok
  refine ⟨F, func?_eq_some.2 hF, ?_⟩
  simp only [moduleOfBlock, hb, func?_eq_some.2 hF, Option.bind_eq_bind, Option.bind_some, Option.pure_def,
    Option.getD_some]

lemma CallsTo.home {home : Handle} {target : Operand} (hs : s.WF) (h : CallsTo s home s' v target r ps va)
    (hd : target = .func d) :
    ∃ G, s'.func? d = some G ∧ G.module = home := by
  cases h with
  | own hf hhome hsame =>
    cases hd
    exact ⟨_, hsame ▸ hf, hhome⟩
  | declared hf hhome hm hdecl hsame =>
    cases hd
    obtain ⟨g, hg, hmodule, -⟩ := func?_of_declared hs hm hdecl
    exact hsame ▸ ⟨g, hg, hmodule⟩
  | added hf hhome hm hdecl hnew hcode =>
    cases hd
    exact ⟨_, hnew, rfl⟩
  | pointer hv hty hsame => exact absurd hd (hv d)

lemma CallsTo.blocks {home : Handle} {target : Operand} (h : CallsTo s home s' v target r ps va) :
    s'.code.blocks = s.code.blocks ∧ s'.code.active = s.code.active := by
  cases h with
  | own _ _ hsame | declared _ _ _ _ hsame | pointer _ _ hsame => exact hsame ▸ ⟨rfl, rfl⟩
  | added hf hhome hm hd hnew hcode =>
    rw [hcode.added]
    exact ⟨rfl, rfl⟩

lemma operand?_of_func? (hf : s.func? h = some f) : s.operand? h = some (.func h) := by
  simp only [operand?, func?_eq_some.1 hf]

lemma home_code (hs : s.WF) (ha : s.active = some block) (hb : s.block? block = some b) :
    ((s.code.active.bind s.code.blocks).bind fun B => s.code.funcs B.func).map FuncCode.module =
      some (moduleOfBlock s block) := by
  have hok := hs.entries block
  rw [block?_eq_some.1 hb] at hok
  obtain ⟨F, hF, -⟩ := hok.1
  have hF' := func?_eq_some.2 hF
  have hbB : s.code.blocks block = some b.code := block?_code hb
  have hfF : s.code.funcs b.code.func = some F.code := func?_code hF'
  have hact : s.code.active = some block := ha
  simp only [hact, bind_some, hbB, hfF, moduleOfBlock, hb, hF', bind, pure]
  rfl

lemma CallsTo.operand (hs : s.WF) {home : Handle} {target : Operand} (hv : s.operand? func = some v)
    (h : CallsTo s home s' v target r ps va) :
    ∃ x, s'.operand? x = some target := by
  cases h with
  | own hf hhome hsame => exact ⟨_, hsame ▸ operand?_of_func? hf⟩
  | declared hf hhome hm hd hsame =>
    obtain ⟨g, hg, -⟩ := func?_of_declared hs hm hd
    exact ⟨_, hsame ▸ operand?_of_func? hg⟩
  | added hf hhome hm hd hnew hcode => exact ⟨_, operand?_of_func? hnew⟩
  | pointer hne hty hsame => exact ⟨func, hsame ▸ hv⟩

def callTy (c : Code) (target : Operand) : Ty :=
  match c.tyOf target with
  | .ptr (.func r _ _) => r
  | _ => .void

lemma call_puts (hs : s.WF) (args)
    (hcallee : s.operand? func = some callee) :
    Along Grows s (call func args) fun h s' => ∃ block b s1 target r ps va vs,
      s.active = some block ∧ s.block? block = some b ∧ Grows s s1 ∧
      CallsTo s (moduleOfBlock s block) s1 callee target r ps va ∧
      Forall₂ (fun a v => s'.operand? a = some v) args vs ∧
      ps.length ≤ vs.length ∧ (va = false → ps.length = vs.length) ∧
      (∀ (j : Nat) t v, ps[j]? = some t → vs[j]? = some v → s1.code.valueTy v = t) ∧
      Puts s1 h (.call target vs) (callTy s1.code target) s' := by
  refine .bind (quietly (operandOf_along func)) ?_
  rintro callee' s1 - ⟨-, rfl, hcallee'⟩
  cases mem_unique hcallee hcallee'
  refine .bind (cursor_along hs) ?_
  rintro block s2 - ⟨rfl, b, ha, hb, hopen⟩
  refine .bind (callTarget_along hs hb hcallee) fun ⟨target, r, ps, va⟩ s1 r1 ⟨hcalls, hh⟩ => ?_
  refine .ite (fun _ => .refuse rfl) fun hcount => ?_
  simp only [Bool.or_eq_true, decide_eq_true_eq, Bool.and_eq_true, Bool.not_eq_true', not_or, not_and,
    Nat.not_lt] at hcount
  have hh1 := r1.holds hh
  refine .bind (quietly (callArgs_along args 0 ps (r1.wf hs) fun t ht => hh1.param ht)) ?_
  rintro us s3 r3 ⟨q, hops, htys⟩
  have hlen := hops.length_eq
  rw [along_get_bind]
  have hcur : s1.code.Cursor block b.code := by
    refine ⟨?_, ?_, by simp [BlockInfo.code, hopen]⟩
    · rw [hcalls.blocks.2]
      exact ha
    · rw [hcalls.blocks.1]
      exact block?_code hb
  obtain ⟨b', ha', hb', hopen'⟩ := cursor_of_code (q.code.symm ▸ hcur)
  have hhome : ∀ d vs, Inst.call target us = .call (.func d) vs →
      ∃ F G, s3.func? b'.func = some F ∧ s3.func? d = some G ∧ G.module = F.module := by
    intro d vs hd
    injection hd with htarget
    obtain ⟨F, hF, hmodule⟩ := func?_home hs hb
    obtain ⟨G, hG, hGmodule⟩ := hcalls.home hs htarget
    have r := trans_of Grows r1 r3
    obtain ⟨F', hF', hFle⟩ := r.func (func?_eq_some.1 hF)
    obtain ⟨G', hG', hGle⟩ := q.func (func?_eq_some.1 hG)
    obtain ⟨b'', hb'', hble⟩ := r.block (block?_eq_some.1 hb)
    cases Entry.block.inj ((block?_eq_some.1 hb').symm.trans hb'')
    refine ⟨F', G', func?_eq_some.2 (hble.func ▸ hF'), func?_eq_some.2 hG', ?_⟩
    rw [hGle.module, hGmodule, hFle.module, hmodule]
  obtain ⟨x, hx⟩ := hcalls.operand hs hcallee
  have hty : s3.tyOf target = s1.code.tyOf target := by rw [tyOf_eq_code, q.code]
  have hholds := (r3.wf (r1.wf hs)).holds_tyOf (q.operand? hx)
  rw [hty] at hholds ⊢
  refine Along.mono (P := fun h s' => Puts s1 h (.call target us) (callTy s1.code target) s') ?_ fun h s4 r4 hq => ?_
  · have hput : ∀ t, s3.Holds t → callTy s1.code target = t → Along Grows s3 (append block (.call target us) t)
        fun h s' => Puts s1 h (.call target us) (callTy s1.code target) s' := by
      rintro t ht rfl
      exact append_puts q ha' hb' hopen' ht (by simp) (by simp) hhome
    split
    · next hfun =>
      rw [hfun] at hholds
      exact hput _ hholds.elem.ret (by rw [callTy, hfun])
    · next hno =>
      refine hput .void (by simp [Holds, Ty.structs]) ?_
      unfold callTy
      split
      · next hfun => exact absurd hfun (hno _ _ _)
      · rfl
  · refine ⟨block, b, s1, target, r, ps, va, us, ha, hb, r1, hcalls, hops.imp fun _ _ => r4.operand?, ?_,
      fun hva => ?_, htys, hq⟩
    · exact hlen ▸ hcount.1
    · have := hcount.2 hva
      omega

lemma ret_along (hs : s.WF) (value) : Along Grows s (ret value) fun _ s' =>
      (value = noHandle ∧ (∀ b B F, s.code.Cursor b B → s.code.funcs B.func = some F → F.ret = .void) ∧
        s.code.Ends (.ret none) s'.code) ∨ ∃ v, s.operand? value = some v ∧ s.code.Ends (.ret (some v)) s'.code := by
  refine .bind (cursor_along hs) ?_
  rintro block s1 - ⟨rfl, b, ha, hb, hopen⟩
  refine .ite (fun h0 => ?_) fun _ => ?_
  · refine .ite (fun _ => .refuse rfl) fun hwant => ?_
    refine (terminate_along ha hb hopen (by simp [Terminator.successors])).mono fun _ s2 _ he =>
      .inl ⟨h0, fun x X F hX hF => ?_, he⟩
    cases mem_unique ha hX.active
    cases some.inj ((block?_code hb).symm.trans hX.block)
    simp only [Store.code, map_eq_some_iff] at hF
    obtain ⟨f, hf, rfl⟩ := hF
    have hf' : s1.func? b.func = some f := hf
    change f.ret = .void
    simpa [hb, hf'] using hwant
  · refine .bind (quietly (operandOf_along value)) ?_
    rintro v s2 - ⟨-, rfl, hv⟩
    refine .ite (fun _ => .refuse rfl) fun _ => ?_
    exact (terminate_along ha hb hopen (by simp [Terminator.successors])).mono fun _ s3 _ he => .inr ⟨v, hv, he⟩

lemma operands_unique : ∀ {vs us : List Operand},
    Forall₂ (fun a v => s.operand? a = some v) l vs → Forall₂ (fun a v => s.operand? a = some v) l us →
    us = vs := by
  induction l with
  | nil =>
    rintro _ _ (_ | _) (_ | _)
    rfl
  | cons a l ih =>
    rintro _ _ (_ | ⟨h, hs⟩) (_ | ⟨k, ks⟩)
    rw [ih hs ks, mem_unique k h]

lemma call_along (hs : s.WF) (hcallee : s.operand? func = some callee)
    (hargs : Forall₂ (fun a v => s.operand? a = some v) args vs) :
    Along Grows s (call func args) fun h s' => ∃ block b s1 target r ps va,
      s.active = some block ∧ s.block? block = some b ∧ Grows s s1 ∧
      CallsTo s (moduleOfBlock s block) s1 callee target r ps va ∧
      ps.length ≤ vs.length ∧ (va = false → ps.length = vs.length) ∧
      (∀ (j : Nat) t v, ps[j]? = some t → vs[j]? = some v → s1.code.valueTy v = t) ∧
      Puts s1 h (.call target vs) (callTy s1.code target) s' := by
  refine (call_puts hs args hcallee).mono ?_
  rintro h s' r ⟨block, b, s1, target, ret, ps, va, us, ha, hb, hgrow, hcalls, hops, hle, heq, htys, hput⟩
  cases operands_unique (hargs.imp fun _ _ => r.operand?) hops
  exact ⟨block, b, s1, target, ret, ps, va, ha, hb, hgrow, hcalls, hle, heq, htys, hput⟩

end Emit

end Arbor.IR
