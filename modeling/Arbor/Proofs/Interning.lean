import Arbor.Proofs.Growth

/-! Operations that leave the code of a store alone: they look something up, or give a type, a
constant or a parameter its handle. -/

namespace Arbor.IR

open Proofs List

variable {c : Const} {e : Entry} {k : Handle}

namespace Entry

def blockCode : Entry → Option BlockCode
  | .block b => some b.code
  | _ => none

def instCode : Entry → Option (Inst × Ty)
  | .inst i => some (i.inst, i.ty)
  | _ => none

def funcCode : Entry → Option FuncCode
  | .func f => some f.code
  | _ => none

/-- Two entries that hold the same code, if any. -/
structure Same (e e' : Entry) : Prop where
  block : e'.blockCode = e.blockCode
  inst : e'.instCode = e.instCode
  func : e'.funcCode = e.funcCode

end Entry

namespace Store

variable {s s' : Store} {h : Handle}

lemma code_blocks (s : Store) (h) : s.code.blocks h = (s.entry h).blockCode := by
  simp only [code, block?]
  cases s.entry h <;> rfl

lemma code_insts (s : Store) (h) : s.code.insts h = (s.entry h).instCode := by
  simp only [code, inst?]
  cases s.entry h <;> rfl

lemma code_funcs (s : Store) (h) : s.code.funcs h = (s.entry h).funcCode := by
  simp only [code, func?]
  cases s.entry h <;> rfl

lemma code_congr (hentry : ∀ h, (s.entry h).Same (s'.entry h)) (hactive : s'.active = s.active)
    (hviolations : s'.violations = s.violations) : s'.code = s.code := by
  ext1
  · funext h
    rw [code_blocks, code_blocks, (hentry h).block]
  · funext h
    rw [code_insts, code_insts, (hentry h).inst]
  · funext h
    rw [code_funcs, code_funcs, (hentry h).func]
  · exact hactive
  · exact hviolations

structure Quiet (s s' : Store) : Prop extends Grows s s' where
  code : s'.code = s.code

instance : IsPreorder Store Quiet where
  refl s := ⟨refl_of Grows s, rfl⟩
  trans _ _ _ h k := ⟨trans_of Grows h.toGrows k.toGrows, k.code.trans h.code⟩

structure Adding (s s' : Store) : Prop extends Grows s s' where
  adds : s.code.Adds s'.code

instance : IsPreorder Store Adding where
  refl s := ⟨refl_of Grows s, .refl _⟩
  trans _ _ _ h k := ⟨trans_of Grows h.toGrows k.toGrows, h.adds.trans k.adds⟩

lemma Quiet.adding (q : Quiet s s') : Adding s s' := ⟨q.toGrows, q.code.symm ▸ .refl _⟩

structure Changes (s : Store) (k : Handle) (e : Entry) (s' : Store) : Prop where
  entry : ∀ h, s'.entry h = if h = k then e else s.entry h
  le : (s.entry k).Le e
  size_le : s.entries.size ≤ s'.entries.size

lemma changes_push (s) (e) : Changes s s.entries.size e (s.push e).2 where
  entry := entry_push s e
  le := by
    rw [entry_of_size_le (Nat.le_refl _)]
    exact .reserved e
  size_le := by simp [push]

lemma changes_set (hk : s.entry k ≠ .reserved) (hle : (s.entry k).Le e) :
    Changes s k e { s with entries := s.entries.setIfInBounds k e } where
  entry x := by
    rw [entry_setIfInBounds]
    simp only [lt_size_of_entry_ne hk, and_true]
  le := hle
  size_le := by simp

namespace Changes

lemma entry_self (c : Changes s k e s') : s'.entry k = e := by
  rw [c.entry, if_pos rfl]

lemma entry_of_ne (c : Changes s k e s') (hne : h ≠ k) : s'.entry h = s.entry h := by
  rw [c.entry, if_neg hne]

lemma mono (c : Changes s k e s') (htypes : ∀ (key : String) (x), s.types[key]? = some x → s'.types[key]? = some x) :
    Mono s s' where
  size_le := c.size_le
  entry x := by
    rw [c.entry]
    split
    · next hx => rw [hx]; exact c.le
    · exact .refl _
  types := htypes

lemma same (c : Changes s k e s') (he : (s.entry k).Same e) (x) : (s.entry x).Same (s'.entry x) := by
  rw [c.entry]
  split
  · next hx => rwa [hx]
  · exact ⟨rfl, rfl, rfl⟩

end Changes

lemma Changes.grows (c : Changes s k e s') (hviolations : s'.violations = s.violations)
    (htypes : ∀ (key : String) (x), s.types[key]? = some x → s'.types[key]? = some x)
    (htypes' : ∀ (key : TypeKey) (x), s'.types[key.text]? = some x → s.types[key.text]? = some x ∨
      ∃ t, s'.entry x = .type t ∧ s'.Keyed t key)
    (hvalues : ∀ (v) (x),
      s'.values[v]? = some x → s.values[v]? = some x ∨ s'.operand? x = some v) (hk : s.WF → k ≠ noHandle)
    (hok : s.WF → Mono s s' → s'.EntryOk k e) : Grows s s' where
  toMono := c.mono htypes
  wf hs := by
    refine hs.of_changes (c.mono htypes) (fun x hx => ?_) htypes' hvalues (fun v hv => ?_) ?_
    · by_cases hxk : x = k
      · rw [hxk, c.entry_self]
        exact hok hs (c.mono htypes)
      · exact absurd (c.entry_of_ne hxk) hx
    · exact .inl (hviolations ▸ hv)
    · rw [c.entry_of_ne (Ne.symm (hk hs)), hs.reserved]

lemma Changes.quiet (c : Changes s k e s') (g : Grows s s') (hsame : (s.entry k).Same e) (hactive : s'.active = s.active)
    (hviolations : s'.violations = s.violations) : Quiet s s' :=
  ⟨g, code_congr (c.same hsame) hactive hviolations⟩

lemma Changes.code_blocks (c : Changes s k e s') : s'.code.blocks = Function.update s.code.blocks k e.blockCode := by
  funext x
  rw [Function.update_apply, Store.code_blocks, Store.code_blocks, c.entry]
  split <;> rfl

lemma Changes.code_insts (c : Changes s k e s') : s'.code.insts = Function.update s.code.insts k e.instCode := by
  funext x
  rw [Function.update_apply, Store.code_insts, Store.code_insts, c.entry]
  split <;> rfl

lemma Changes.code_funcs (c : Changes s k e s') : s'.code.funcs = Function.update s.code.funcs k e.funcCode := by
  funext x
  rw [Function.update_apply, Store.code_funcs, Store.code_funcs, c.entry]
  split <;> rfl

lemma Changes.blocks_eq (c : Changes s k e s') (he : e.blockCode = (s.entry k).blockCode) :
    s'.code.blocks = s.code.blocks := by
  rw [c.code_blocks, Function.update_eq_self_iff, Store.code_blocks, he]

lemma Changes.insts_eq (c : Changes s k e s') (he : e.instCode = (s.entry k).instCode) :
    s'.code.insts = s.code.insts := by
  rw [c.code_insts, Function.update_eq_self_iff, Store.code_insts, he]

lemma Changes.funcs_eq (c : Changes s k e s') (he : e.funcCode = (s.entry k).funcCode) :
    s'.code.funcs = s.code.funcs := by
  rw [c.code_funcs, Function.update_eq_self_iff, Store.code_funcs, he]

lemma WF.size_ne (hs : s.WF) : s.entries.size ≠ noHandle := Nat.ne_of_gt hs.size_pos

lemma WF.ne_noHandle (hs : s.WF) (hh : s.entry h ≠ .reserved) : h ≠ noHandle := by
  rintro rfl
  exact hh hs.reserved

end Store

namespace Emit

open Store

variable {s : Store}

lemma quiet_pushType (hk : s.Keyed t key) (hv : s.Holds t) (hnew : s.types[key.text]? = none) :
    Quiet s { (s.push (.type t)).2 with types := s.types.insert key.text s.entries.size } := by
  have c := changes_push s (.type t)
  have c' : Changes s _ _ { (s.push (.type t)).2 with types := s.types.insert key.text s.entries.size } :=
    ⟨c.entry, c.le, c.size_le⟩
  have hold : ∀ (l : String) x, s.types[l]? = some x → (s.types.insert key.text s.entries.size)[l]? = some x :=
    fun l x hx => getElem?_insert_of_new hnew hx
  have hkeyed := hk.mono (fun _ _ => (c'.mono hold).type?)
  refine c'.quiet (c'.grows rfl hold (fun l x hx => ?_) (fun _ _ => .inl) WF.size_ne fun hs g => ?_)
    (entry_of_size_le (Nat.le_refl _) ▸ ⟨rfl, rfl, rfl⟩) rfl rfl
  · rw [getElem?_insert_text] at hx
    split at hx
    · next hl =>
      cases hx
      exact .inr ⟨t, c.entry_self, hl ▸ hkeyed⟩
    · exact .inl hx
  · exact ⟨⟨key, hkeyed, by simp⟩, g.holds hv⟩

lemma internKey_along (hs : s.WF) (hk : s.Keyed t key) (hv : s.Holds t) :
    Along Quiet s (internKey key t) fun h s' => s'.type? h = some t := by
  unfold internKey
  rw [along_get_bind]
  cases hx : s.types[key.text]? with
  | some h =>
    obtain ⟨u, hu, hk'⟩ := hs.types key h hx
    exact .pure (hk.unique hk' ▸ type?_of_entry hu)
  | none => exact ⟨quiet_pushType hk hv hx, type?_of_entry (changes_push s (.type t)).entry_self⟩

lemma quiet_pushValue (hcode : Entry.reserved.Same e) (hok : ∀ s', Mono s s' → s'.EntryOk s.entries.size e)
    (hv : ∀ (s' : Store) h, s'.entry h = e → s'.operand? h = some v) :
    Quiet s { (s.push e).2 with values := s.values.insert v s.entries.size } := by
  have c := changes_push s e
  have c' : Changes s _ _ { (s.push e).2 with values := s.values.insert v s.entries.size } := ⟨c.entry, c.le, c.size_le⟩
  refine c'.quiet (c'.grows rfl (fun _ _ => id) (fun _ _ => .inl) (fun u x hx => ?_) WF.size_ne fun _ => hok _)
    (entry_of_size_le (Nat.le_refl _) ▸ hcode) rfl rfl
  by_cases hvu : v = u
  · subst hvu
    simp only [Std.HashMap.getElem?_insert_self, Option.some.injEq] at hx
    exact .inr (hv _ _ (hx ▸ c.entry_self))
  · left
    simpa [Std.HashMap.getElem?_insert, hvu] using hx

lemma valueHandle_along (hs : s.WF) (hcode : Entry.reserved.Same e)
    (hok : ∀ s', Mono s s' → s'.EntryOk s.entries.size e)
    (hv : ∀ (s' : Store) h, s'.entry h = e → s'.operand? h = some v) :
    Along Quiet s (valueHandle v e) fun h s' => s'.operand? h = some v := by
  unfold valueHandle
  rw [along_get_bind]
  cases hx : s.values[v]? with
  | some h => exact .pure (hs.values v h hx)
  | none => exact ⟨quiet_pushValue hcode hok hv, hv _ _ (changes_push s e).entry_self⟩

lemma constHandle_along (hs : s.WF) (hc : s.Holds c.ty) :
    Along Quiet s (valueHandle (.const c) (.const c)) fun h s' => s'.operand? h = some (.const c) :=
  valueHandle_along hs ⟨rfl, rfl, rfl⟩ (fun _ g => g.holds hc) fun s' h he => by
    simp only [operand?, he]

mutual

lemma internType_along : ∀ (t) {s : Store}, s.WF → s.Holds t → Along Quiet s (internType t) fun h s' => s'.type? h = some t
  | .ptr e, _, hs, ht => by
    refine .bind (internType_along e hs ht) fun _ s' r hx => ?_
    exact internKey_along (r.wf hs) (.ptr hx) (r.holds ht)
  | .array n e, _, hs, ht => by
    refine .bind (internType_along e hs ht) fun _ s' r hx => ?_
    exact internKey_along (r.wf hs) (.array n hx) (r.holds ht)
  | .func r ps v, s, hs, ht => by
    refine .bind (internType_along r hs fun k hk => ht k (by simp [Ty.structs, hk])) fun _ s1 r1 hx => ?_
    refine .bind (internTypes_along ps (r1.wf hs) fun t hp => r1.holds fun k hk => ht k ?_) fun _ s2 r2 hxs => ?_
    · exact mem_append_right _ (Ty.mem_structsAll.2 ⟨t, hp, hk⟩)
    · exact internKey_along (r2.wf (r1.wf hs)) (.func (r2.type? hx) hxs v) (r2.holds (r1.holds ht))
  | .struct k, s, hs, ht => by
    obtain ⟨i, hi⟩ := ht k (by simp [Ty.structs])
    exact .pure (by simp only [type?, hi])
  | .void, _, hs, ht => internKey_along hs .void ht
  | .label, _, hs, ht => internKey_along hs .label ht
  | .int w, _, hs, ht => internKey_along hs (.int w) ht
  | .float p, _, hs, ht => internKey_along hs (.float p) ht

lemma internTypes_along : ∀ (ts) {s : Store}, s.WF → (∀ t ∈ ts, s.Holds t) →
    Along Quiet s (internTypes ts) fun xs s' => xs.map s'.type? = ts.map some
  | [], s, _, _ => .pure rfl
  | t :: ts, s, hs, ht => by
    refine .bind (internType_along t hs (ht t (by simp))) fun x s1 r hx => ?_
    refine .bind (internTypes_along ts (r.wf hs) fun u hu => r.holds (ht u (by simp [hu]))) fun xs s2 r2 hxs => ?_
    exact .pure (by rw [map_cons, map_cons, hxs, r2.type? hx])

end

lemma quiet_set (he : s.entry k = e) (hne : e ≠ .reserved) (hle : e.Le e') (hsame : e.Same e')
    (hok : ∀ s' : Store, s'.EntryOk k e → s'.EntryOk k e') :
    Quiet s { s with entries := s.entries.setIfInBounds k e' } := by
  have hk : s.entry k ≠ .reserved := he ▸ hne
  have c := changes_set hk (he ▸ hle)
  refine c.quiet (c.grows rfl (fun _ _ => id) (fun _ _ => .inl) (fun _ _ => .inl)
    (fun hs => hs.ne_noHandle hk) fun hs g => ?_) (he ▸ hsame) rfl rfl
  exact hok _ (g.entryOk (he ▸ hs.entries k))

lemma quiet_setFunc (hf : s.func? k = some f) (hident : g.ident = f.ident)
    (hcode : g.code = f.code) : Quiet s (s.setFunc k g) := by
  have hm : g.module = f.module := congrArg FuncCode.module hcode
  have hsig : g.signature = f.signature := congrArg FuncCode.signature hcode
  have hb : g.blocks.toList = f.blocks.toList := congrArg FuncCode.blocks hcode
  have hret : g.ret = f.ret := congrArg FuncCode.ret hcode
  refine quiet_set (func?_eq_some.1 hf) (by simp) (.func ⟨⟨hm, ?_, ?_, ?_, ?_⟩, hident⟩) ⟨rfl, rfl, ?_⟩ ?_
  · exact hret
  · rw [hcode]
  · exact congrArg FuncCode.variadic hcode
  · exact hb ▸ prefix_rfl
  · simp only [Entry.funcCode, hcode]
  · intro s' hok
    simp only [EntryOk] at hok ⊢
    rwa [hm, hsig, hb, hret, hcode]

lemma quiet_setModule (hm : s.module? k = some m) (hle : m.Le n) (hfuncs : n.funcs = m.funcs)
    (hdecl : n.declared = m.declared) : Quiet s (s.setModule k n) := by
  refine quiet_set (module?_eq_some.1 hm) (by simp) (.module hle) ⟨rfl, rfl, rfl⟩ fun s' hok => ?_
  simp only [EntryOk] at hok ⊢
  rwa [hfuncs, hdecl]

lemma quiet_setInst (hi : s.inst? k = some i) (hle : i.Le j) : Quiet s (s.setInst k j) := by
  refine quiet_set (inst?_eq_some.1 hi) (by simp) (.inst hle) ⟨rfl, ?_, rfl⟩ fun s' hok => ?_
  · simp only [Entry.instCode, hle.inst, hle.ty]
  · simp only [EntryOk] at hok ⊢
    rwa [hle.ty, hle.inst, hle.block]

lemma quiet_push (hcode : Entry.reserved.Same e) (hok : ∀ s', Mono s s' → s'.EntryOk s.entries.size e) :
    Quiet s (s.push e).2 :=
  (changes_push s e).quiet ((changes_push s e).grows rfl (fun _ _ => id) (fun _ _ => .inl)
    (fun _ _ => .inl) WF.size_ne fun _ => hok _) (entry_of_size_le (Nat.le_refl _) ▸ hcode) rfl rfl

lemma localName_along (func name) : Along Quiet s (localName func name) := by
  refine .ite (fun _ => .pure trivial) fun _ => ?_
  rw [along_get_bind]
  cases hf : s.func? func with
  | none => exact .pure trivial
  | some f => exact ⟨quiet_setFunc hf rfl rfl, trivial⟩

/-! ### Looking things up -/

section Lookup

variable [IsPreorder Store R]

lemma typeOf_along (h) : Along R s (typeOf h) fun t s' => s' = s ∧ s.type? h = some t := by
  unfold typeOf
  rw [along_get_bind]
  cases ht : s.type? h with
  | none => exact .throw
  | some t => exact .pure ⟨rfl, rfl⟩

lemma operandOf_along (h) : Along R s (operandOf h) fun v s' => s' = s ∧ s.operand? h = some v := by
  unfold operandOf
  rw [along_get_bind]
  cases hv : s.operand? h with
  | none => exact .throw
  | some v => exact .pure ⟨rfl, rfl⟩

lemma blockOf_along (h) : Along R s (blockOf h) fun b s' => s' = s ∧ s.block? h = some b := by
  unfold blockOf
  rw [along_get_bind]
  cases hb : s.block? h with
  | none => exact .throw
  | some b => exact .pure ⟨rfl, rfl⟩

lemma moduleOf_along (h) : Along R s (moduleOf h) fun m s' => s' = s ∧ s.module? h = some m ∧ m.dropped = false := by
  unfold moduleOf
  rw [along_get_bind]
  cases hm : s.module? h with
  | none => exact .throw
  | some m =>
    refine .ite (fun _ => .throw) fun hd => .pure ⟨rfl, rfl, ?_⟩
    simpa using hd

lemma funcOf_along (h) : Along R s (funcOf h) fun f s' => s' = s ∧ s.func? h = some f := by
  refine .look (operandOf_along h) fun v _ => ?_
  cases v with
  | func g =>
    rw [along_get_bind]
    cases hf : s.func? h with
    | none => exact .throw
    | some f => exact .pure ⟨rfl, rfl⟩
  | _ => exact .throw

lemma paramTypes_along (params) : ∀ index, Along R s (paramTypes index params) fun ts s' =>
    s' = s ∧ params.map s.type? = ts.map some ∧ ∀ t ∈ ts, (∃ x, s.type? x = some t) ∧ t ≠ .void := by
  induction params with
  | nil => exact fun _ => .pure ⟨rfl, rfl, by simp⟩
  | cons h params ih =>
    intro index
    unfold paramTypes
    rw [along_get_bind]
    split
    · exact .throw
    · exact .throw
    · next t hvoid ht =>
      refine .bind (ih (index + 1)) ?_
      rintro ts s' - ⟨rfl, hmap, hts⟩
      refine .pure ⟨rfl, by rw [map_cons, ht, hmap, map_cons], ?_⟩
      rintro u (_ | ⟨_, hu⟩)
      · exact ⟨⟨h, ht⟩, hvoid⟩
      · exact hts u hu

lemma fieldTypes_along (fields) : ∀ index, Along R s (fieldTypes index fields) fun _ s' => s' = s := by
  induction fields with
  | nil => exact fun _ => .pure rfl
  | cons h fields ih =>
    intro index
    unfold fieldTypes
    rw [along_get_bind]
    cases s.type? h with
    | none => exact .throw
    | some t =>
      refine .bind (ih (index + 1)) ?_
      rintro ts s' - rfl
      exact .pure rfl

lemma funcParts_along (type) : Along R s (funcParts type) fun parts s' => s' = s ∧ s.funcParts? type = some parts := by
  refine .look (typeOf_along type) fun t _ => ?_
  rw [along_get_bind]
  cases hp : s.funcParts? type with
  | none => exact refl_of R s
  | some parts => exact .pure ⟨rfl, rfl⟩

end Lookup

end Emit

/-! ### Types and constants -/

namespace Store

variable {s : Store}

lemma WF.holds_of_type? (hs : s.WF) (ht : s.type? h = some t) : s.Holds t := by
  have hok := hs.entries h
  unfold type? at ht
  split at ht
  · next heq =>
    rw [heq] at hok
    cases ht
    exact hok.2
  · next i heq =>
    cases ht
    intro k hk
    simp only [Ty.structs, mem_singleton] at hk
    exact ⟨i, hk ▸ heq⟩
  · cases ht

lemma WF.holds_signature (hs : s.WF) (hf : s.func? h = some f) : s.Holds f.signature := by
  have hok := hs.entries h
  rw [func?_eq_some.1 hf] at hok
  exact hok.2.1

lemma WF.plain (hs : s.WF) (hf : s.func? h = some f) : f.ret.Plain ∧ ∀ t ∈ f.code.params, t.Plain := by
  have hok := hs.entries h
  rw [func?_eq_some.1 hf] at hok
  exact hok.2.2.2

lemma Holds.elem (ht : s.Holds (.ptr t)) : s.Holds t := ht

lemma Holds.ret (ht : s.Holds (.func r ps v)) : s.Holds r := fun k hk => ht k (mem_append_left _ hk)

lemma Holds.param (ht : s.Holds (.func r ps v)) (hp : p ∈ ps) : s.Holds p :=
  fun k hk => ht k (mem_append_right _ (Ty.mem_structsAll.2 ⟨p, hp, hk⟩))

lemma operand?_func (hv : s.operand? h = some (.func g)) : g = h ∧ ∃ f, s.func? h = some f := by
  unfold operand? at hv
  split at hv <;> try simp_all
  next f hf => exact ⟨f, func?_eq_some.2 hf⟩

lemma operand?_inst (hv : s.operand? h = some (.inst g)) : g = h ∧ ∃ i, s.inst? h = some i := by
  unfold operand? at hv
  split at hv <;> try simp_all
  next i hi => exact ⟨i, inst?_eq_some.2 hi⟩

lemma operand?_param (hv : s.operand? h = some (.param f i)) : s.entry h = .param f i := by
  unfold operand? at hv
  split at hv <;> try simp_all

lemma operand?_const (hv : s.operand? h = some (.const c)) : s.entry h = .const c := by
  unfold operand? at hv
  split at hv <;> try simp_all

lemma WF.holds_tyOf (hs : s.WF) (hv : s.operand? h = some v) : s.Holds (s.tyOf v) := by
  have hok := hs.entries h
  cases v with
  | const c =>
    rw [operand?_const hv] at hok
    exact hok
  | param f i =>
    rw [operand?_param hv] at hok
    obtain ⟨F, hF, hi⟩ := hok
    have hsig := hs.holds_signature (func?_eq_some.2 hF)
    simp only [tyOf, func?_eq_some.2 hF, Option.bind_some, Array.getElem?_eq_getElem hi]
    exact hsig.param (mem_map.2 ⟨F.params[i], by simp, rfl⟩)
  | func g =>
    obtain ⟨rfl, f, hf⟩ := operand?_func hv
    simp only [tyOf, hf]
    exact hs.holds_signature hf
  | inst g =>
    obtain ⟨rfl, i, hi⟩ := operand?_inst hv
    rw [inst?_eq_some.1 hi] at hok
    simp only [tyOf, hi]
    exact hok.1
  | block g => simp [tyOf, Holds, Ty.structs]

lemma valueTy_eq_tyOf (hv : ∀ g, v ≠ .func g) : s.code.valueTy v = s.tyOf v := by
  rw [tyOf_eq_code]
  cases v <;> first | rfl | exact absurd rfl (hv _)

lemma valueTy_func (hf : s.func? h = some f) : s.code.valueTy (.func h) = f.signature := by
  simp only [Code.valueTy, code, hf, Option.map_some, Option.elim_some, f.code_signature]

end Store

namespace Emit

open Store

variable {s : Store}

lemma pointer_along (hs : s.WF) (elem) :
    Along Quiet s (pointer elem) fun h s' => ∃ t, s.type? elem = some t ∧ s'.type? h = some (.ptr t) := by
  refine .look (typeOf_along elem) fun t ht => ?_
  split
  · exact .throw
  · exact .throw
  · have hp : s.Holds (.ptr t) := hs.holds_of_type? (t := t) ht
    exact (internKey_along hs (.ptr ht) hp).mono fun h s _ he => ⟨t, ht, he⟩

lemma func_along (hs : s.WF) (ret params variadic) :
    Along Quiet s (func ret params variadic) fun h s' => ∃ r ps, s.type? ret = some r ∧
      params.map s.type? = ps.map some ∧ s'.type? h = some (.func r ps variadic) := by
  unfold func
  rw [along_get_bind]
  cases hr : s.type? ret with
  | none => exact .throw
  | some r =>
    dsimp only
    rw [along_get_bind]
    cases hx : s.types[(TypeKey.func ret params variadic).text]? with
    | some h =>
      obtain ⟨u, hu, hk⟩ := hs.types _ h hx
      cases hk with
      | func hr' hps =>
        cases Option.mem_unique hr hr'
        exact .pure ⟨r, _, rfl, hps, type?_of_entry hu⟩
    | none =>
      refine .bind (paramTypes_along params 0) ?_
      rintro ps s' - ⟨rfl, hps, -⟩
      refine (internKey_along hs (.func hr hps variadic) fun k hk => ?_).mono fun h s1 _ he => ⟨r, ps, rfl, hps, he⟩
      rcases mem_append.1 hk with hk | hk
      · exact hs.holds_of_type? hr k hk
      · obtain ⟨t, htp, hkt⟩ := Ty.mem_structsAll.1 hk
        obtain ⟨x, -, hx⟩ := mem_map.1 (hps ▸ mem_map_of_mem htp)
        exact hs.holds_of_type? hx k hkt

lemma struct_along (hs : s.WF) (module name) :
    Along Quiet s (struct module name) fun h s' => s'.type? h = some (.struct h) := by
  refine .bind (moduleOf_along module) ?_
  rintro m s' - ⟨rfl, hm, -⟩
  simp only
  generalize hi : ({ name, label := (freshName m.labels name).1, module } : StructInfo) = i
  have c := changes_push s' (.struct i)
  have q : Quiet s' (s'.push (.struct i)).2 := quiet_push ⟨rfl, rfl, rfl⟩ fun _ _ => trivial
  refine .bind (P := fun h s1 => h = s'.entries.size ∧ s1 = (s'.push (.struct i)).2) ⟨q, rfl, rfl⟩ ?_
  rintro h s1 - ⟨rfl, rfl⟩
  have hne : module ≠ s'.entries.size := Nat.ne_of_lt
    (lt_size_of_entry_ne (by rw [module?_eq_some.1 hm]; simp))
  have hm' : (s'.push (.struct i)).2.module? module = some m :=
    module?_eq_some.2 (by rw [c.entry_of_ne hne, module?_eq_some.1 hm])
  have q' := quiet_setModule (n := { m with
    labels := (freshName m.labels name).2, structs := m.structs.push s'.entries.size }) hm'
    ⟨rfl, rfl, prefix_rfl, prefix_rfl, prefix_rfl⟩ rfl rfl
  refine ⟨q', q'.type? ?_⟩
  simp only [type?, c.entry_self]

lemma setStructBody_along (type fields) : Along Quiet s (setStructBody type fields) := by
  refine .look (typeOf_along type) fun t _ => ?_
  rw [along_get_bind]
  cases hi : s.struct? type with
  | none => exact .refuse rfl
  | some i =>
    refine .bind (fieldTypes_along fields 0) ?_
    rintro ts s1 - rfl
    exact ⟨quiet_set (struct?_eq_some.1 hi) (by simp) (.struct rfl) ⟨rfl, rfl, rfl⟩ fun _ _ => trivial, trivial⟩

lemma constant_along (hs : s.WF) (hc : s.Holds c.ty) :
    Along Quiet s (constant c) fun h s' => s'.operand? h = some (.const c) :=
  .bind (internType_along c.ty hs hc) fun _ _ r _ => constHandle_along (r.wf hs) (r.holds hc)

end Emit

def Const.number : Width → UInt64 → Const
  | .w1, n => .bool (n != 0)
  | w, n => .int w n.toInt64

def Const.zeroOf? : Ty → Option Const
  | .int .w1 => some (.bool false)
  | .int w => some (.int w 0)
  | .float p => some (.float p 0)
  | .ptr e => some (.null (.ptr e))
  | .struct k => some (.zero (.struct k))
  | .array n e => some (.zero (.array n e))
  | .void | .label | .func .. => none

lemma Const.ty_of_zeroOf? (h : Const.zeroOf? t = some c) : c.ty = t := by
  unfold Const.zeroOf? at h
  split at h <;> cases h <;> rfl

namespace Emit

open Store

variable {s : Store}

lemma holds_int (w) : s.Holds (.int w) := fun k hk => by simp [Ty.structs] at hk

lemma int_along (hs : s.WF) (value bits) : Along Quiet s (int value bits) fun h s' => ∃ w, Width.ofBits? bits = some w ∧
      s'.operand? h = some (.const (Const.number w value)) := by
  unfold int
  cases hw : Width.ofBits? bits with
  | none => exact .throw
  | some w =>
    cases w with
    | w1 => exact (constant_along hs (holds_int .w1)).mono fun h s' _ he => ⟨.w1, rfl, he⟩
    | _ => exact (constant_along hs (holds_int _)).mono fun h s' _ he => ⟨_, rfl, he⟩

lemma boolConst_along (hs : s.WF) (b) :
    Along Quiet s (boolConst b) fun h s' => s'.operand? h = some (.const (.bool b)) :=
  constant_along hs (holds_int .w1)

lemma text_along (hs : s.WF) (module t) :
    Along Quiet s (text module t) fun h s' => ∃ i, s'.operand? h = some (.const (.text module i)) := by
  have hbytes : ∀ (s : Store) i, s.Holds (Const.text module i).ty := fun s i k hk => by
    simp [Const.ty, Ty.structs] at hk
  refine .bind (moduleOf_along module) ?_
  rintro m s' - ⟨rfl, hm, -⟩
  split
  · exact (constHandle_along hs (hbytes _ _)).mono fun h s1 _ he => ⟨_, he⟩
  · have q := quiet_setModule (n := { m with texts := m.texts.push t }) hm
      ⟨rfl, rfl, prefix_rfl, prefix_rfl, by simp⟩ rfl rfl
    refine .bind (P := fun _ s1 => s1 = s'.setModule module { m with texts := m.texts.push t })
      ⟨q, rfl⟩ ?_
    rintro - s1 - rfl
    exact (constHandle_along (q.wf hs) (hbytes _ _)).mono fun h s1 _ he => ⟨_, he⟩

lemma defaultValue_along (hs : s.WF) (type) :
    Along Quiet s (defaultValue type) fun h s' => ∃ t c, s.type? type = some t ∧
      Const.zeroOf? t = some c ∧ s'.operand? h = some (.const c) := by
  refine .look (typeOf_along type) fun t ht => ?_
  have hh := hs.holds_of_type? ht
  split
  · exact (boolConst_along hs false).mono fun h s1 _ he => ⟨_, _, ht, rfl, he⟩
  · next w hw =>
    refine (int_along hs 0 w.bits).mono fun h s1 _ ⟨w', hw', he⟩ => ?_
    cases w with
    | w1 => exact absurd rfl hw
    | _ =>
      cases hw'
      exact ⟨_, _, ht, rfl, he⟩
  · exact (constant_along (c := .float _ 0) hs hh).mono fun h s1 _ he => ⟨_, _, ht, rfl, he⟩
  · exact (constant_along (c := .null _) hs hh).mono fun h s1 _ he => ⟨_, _, ht, rfl, he⟩
  · exact (constant_along (c := .zero _) hs hh).mono fun h s1 _ he => ⟨_, _, ht, rfl, he⟩
  · exact (constant_along (c := .zero _) hs hh).mono fun h s1 _ he => ⟨_, _, ht, rfl, he⟩
  · exact .refuse rfl

lemma typeSize_along (hs : s.WF) (type) :
    Along Quiet s (typeSize type) fun h s' => ∃ n, s'.operand? h = some (.const (.int .w64 n)) := by
  refine .look (typeOf_along type) fun t ht => ?_
  rw [along_get_bind]
  split
  · refine (int_along hs _ 64).mono fun h s1 _ ⟨w, hw, he⟩ => ?_
    cases hw
    exact ⟨_, he⟩
  · exact .refuse rfl

lemma typeKind_of_type? (ht : s.type? h = some t) : s.typeKind h = t.kind := by
  simp only [typeKind, ht]

lemma valueType_along (hs : s.WF) (value) : Along Quiet s (valueType value) fun h s' => ∀ v, s.operand? value = some v →
      s'.type? h = some (s.code.valueTy v) := by
  unfold valueType
  rw [along_get_bind]
  cases hv : s.operand? value with
  | none => exact .pure nofun
  | some v =>
    have hty : (∀ g, v ≠ .func g) → Along Quiet s (internType (s.tyOf v)) fun h s' => ∀ u,
        some v = some u → s'.type? h = some (s.code.valueTy u) := fun hne =>
      (internType_along _ hs (hs.holds_tyOf hv)).mono fun h s' _ he u hu => by
        rw [← Option.some.inj hu, valueTy_eq_tyOf hne, he]
    cases v with
    | func g =>
      obtain ⟨rfl, f, hf⟩ := operand?_func hv
      rw [along_get_bind, hf]
      exact (internType_along _ hs (hs.holds_signature hf)).mono fun h s' _ he u hu => by
        rw [← Option.some.inj hu, valueTy_func hf, he]
    | _ => exact hty (by simp)

lemma funcParts?_holds (hs : s.WF) (hp : s.funcParts? type = some (r, ps, v)) : s.Holds (.func r ps v) := by
  unfold funcParts? at hp
  split at hp
  · next ht =>
    cases hp
    exact hs.holds_of_type? ht
  · next ht =>
    cases hp
    exact Holds.elem (hs.holds_of_type? ht)
  · cases hp

lemma funcRetType_along (hs : s.WF) (type) :
    Along Quiet s (funcRetType type) fun h s' => ∀ r ps v, s.funcParts? type = some (r, ps, v) →
      s'.type? h = some r := by
  unfold funcRetType
  rw [along_get_bind]
  cases hp : s.funcParts? type with
  | none => exact .pure nofun
  | some parts =>
    obtain ⟨r, ps, v⟩ := parts
    refine (internType_along r hs (funcParts?_holds hs hp).ret).mono fun h s' _ he r' ps' v' hr => ?_
    cases hr
    exact he

lemma funcArgType_along (hs : s.WF) (type index) : Along Quiet s (funcArgType type index) fun h s' => ∀ r ps v t,
      s.funcParts? type = some (r, ps, v) → ps[index]? = some t → s'.type? h = some t := by
  unfold funcArgType
  rw [along_get_bind]
  cases hp : s.funcParts? type with
  | none => exact .pure nofun
  | some parts =>
    obtain ⟨r, ps, v⟩ := parts
    simp only
    cases ht : ps[index]? with
    | none =>
      refine .pure fun r' ps' v' t hr hi => ?_
      cases hr
      rw [ht] at hi
      cases hi
    | some t =>
      refine (internType_along t hs ((funcParts?_holds hs hp).param (mem_of_getElem? ht))).mono
        fun h s' _ he r' ps' v' t' hr hi => ?_
      cases hr
      rw [ht] at hi
      cases hi
      exact he

lemma funcArg_along (hs : s.WF) (func) (index) :
    Along Quiet s (funcArg func index) fun h s' => ∃ f, s.func? func = some f ∧
      index < f.params.size ∧ s'.operand? h = some (.param func index) := by
  refine .look (funcOf_along func) fun f hf => ?_
  refine .ite (fun hi => ?_) fun _ => .throw
  refine (valueHandle_along (e := .param func index) hs ⟨rfl, rfl, rfl⟩ (fun _ g => g.entryOk
    ⟨f, func?_eq_some.1 hf, hi⟩) fun s' h he => ?_).mono fun h s1 _ he => ⟨f, hf, hi, he⟩
  simp only [operand?, he]

end Emit

end Arbor.IR
