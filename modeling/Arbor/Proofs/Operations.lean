import Arbor.IR.Printer
import Arbor.Proofs.Coherence
import Arbor.Proofs.Emission

/-! Every operation of the backend moves a store on, whether it succeeds or is refused. Nothing is asked
of whoever calls it: operands are checked by the operation itself. -/

namespace Arbor.IR

open Proofs

namespace Store

/-- The type that a value is asked for by: a function's is its function type. -/
def ownTy (s : Store) : Operand → Ty
  | .func h => (s.func? h).elim .void FuncInfo.signature
  | v => s.tyOf v

def Open (s : Store) (b : Handle) : Prop := ∀ c, s.block? b = some c → c.ending = none

structure Prepares (B : Handle → Prop) (s s' : Store) : Prop extends Moves B s s' where
  stays : ∀ b, s.Open b → s'.Open b

variable {B : Handle → Prop} {s : Store} {h : Handle}

lemma Interns.ownTy_eq (n : Interns s s') (v) : s'.ownTy v = s.ownTy v := by
  cases v with
  | func h => simp only [ownTy, n.func?_eq]
  | _ => simp only [ownTy, n.tyOf_eq]

instance : IsPreorder Store (Prepares B) where
  refl s := ⟨refl_of (Moves B) s, fun _ => id⟩
  trans _ _ _ h k := ⟨trans_of (Moves B) h.toMoves k.toMoves, fun b => k.stays b ∘ h.stays b⟩

lemma Moves.prepares (m : Moves B s s')
    (hblock : ∀ b c, s'.entry b = .block c → s.entry b = .block c ∨ c.ending = none) : Prepares B s s' := by
  refine ⟨m, fun b hb c hc => ?_⟩
  rcases hblock b c (block?_eq_some.1 hc) with hc | hc
  · exact hb c (block?_eq_some.2 hc)
  · exact hc

lemma Interns.prepares (n : Interns s s') : Prepares B s s' :=
  n.moves.prepares fun _ _ hc => .inl ((n.entry_iff (by simp) (by simp)).1 hc)

lemma prepares_set (he : s.entry k = e) (hne : e ≠ .reserved) (hlasts : e.Lasts (B k) e')
    (hblock : ∀ c, e' ≠ .block c) : Prepares B s { s with entries := s.entries.setIfInBounds k e' } := by
  refine (moves_set (he ▸ hne) (he ▸ hlasts)).prepares fun b c hc => ?_
  rw [entry_setIfInBounds] at hc
  split at hc
  · exact absurd hc (hblock c)
  · exact .inl hc

lemma prepares_setFunc (hf : s.func? k = some f) (hle : f.Alike g) : Prepares B s (s.setFunc k g) :=
  prepares_set (func?_eq_some.1 hf) (by simp) (.func hle) (by simp)

lemma prepares_setInst (hi : s.inst? k = some i) (hle : i.Le j) : Prepares B s (s.setInst k j) :=
  prepares_set (inst?_eq_some.1 hi) (by simp) (.inst hle) (by simp)

lemma prepares_setModule (hm : s.module? k = some m) (hname : n.name = m.name)
    (hdropped : m.dropped → n.dropped) : Prepares B s (s.setModule k n) :=
  prepares_set (module?_eq_some.1 hm) (by simp) (.module hname hdropped) (by simp)

lemma moves_setBlock (hb : s.block? k = some b) (hle : b.Le c) : Moves B s (s.setBlock k c) :=
  moves_set (by simp [block?_eq_some.1 hb]) (by rw [block?_eq_some.1 hb]; exact .block hle)

end Store

lemma FuncInfo.alike_nameParam (f : FuncInfo) (i) (ident) :
    f.Alike { f with params := f.params.modify i ({ · with ident }) } := by
  refine ⟨rfl, rfl, ?_, rfl, List.prefix_rfl⟩
  refine List.ext_getElem (by simp [code]) fun j _ _ => ?_
  simp only [code, List.getElem_map, Array.getElem_toList, Array.getElem_modify]
  split <;> rfl

namespace Emit

open Store

variable {α β : Type} {B : Handle → Prop} {s : Store}

def Yields (s : Store) (a : Emit α) (Q : α → Store → Prop) : Prop := ∃ x s', a s = .ok x s' ∧ Q x s'

namespace Yields

variable {P : α → Store → Prop}

lemma pure (h : P x s) : Yields s (pure x) P := ⟨x, s, rfl, h⟩

lemma bind (h : Yields s a P) (k : ∀ x s', P x s' → Yields s' (f x) Q) : Yields s (a >>= f) Q := by
  obtain ⟨x, s1, hx, hP⟩ := h
  obtain ⟨y, s2, hy, hQ⟩ := k x s1 hP
  refine ⟨y, s2, ?_, hQ⟩
  change EStateM.bind a f s = _
  rw [EStateM.bind, hx]
  exact hy

lemma along (h : Yields s a P) (hr : ∀ x s', P x s' → R s s') : Along R s a P := by
  obtain ⟨x, s', hx, hP⟩ := h
  unfold Along
  rw [hx]
  exact ⟨hr x s' hP, hP⟩

lemma mono (h : Yields s a P) (himp : ∀ x s', P x s' → P' x s') : Yields s a P' := by
  obtain ⟨x, s', hx, hP⟩ := h
  exact ⟨x, s', hx, himp x s' hP⟩

lemma moves (h : Yields s a fun x s' => Interns s s' ∧ P x s') :
    Along (Moves B) s a fun x s' => Interns s s' ∧ P x s' := h.along fun _ _ hh => hh.1.moves

end Yields

lemma along_any (h : Along R s a Q) : Along R s a := h.mono fun _ _ _ _ => trivial

lemma modify_pure [IsPreorder Store R] (h : R s (f s)) : Along R s (modify f >>= fun _ => pure x : Emit α) :=
  .bind (P := fun _ _ => True) (.modify h trivial) fun _ _ _ _ => .pure trivial

/-! ### Types -/

lemma internKey_known (ht : s.types[key.text]? = some h) : internKey key t s = .ok h s := by
  simp only [internKey, get_bind_apply, ht]
  rfl

lemma internKey_yields (hs : s.Coherent) (hk : s.Keyed t key) (hadmits : s.Admits t) :
    Yields s (internKey key t) fun h s' => Interns s s' ∧ s'.type? h = some t := by
  cases hx : s.types[key.text]? with
  | some h =>
    obtain ⟨u, hu, hk'⟩ := hs.types key h hx
    exact ⟨h, s, internKey_known hx, refl_of Interns s, hk.unique hk' ▸ type?_of_entry hu⟩
  | none =>
    -- The type takes the next handle, and its parts have theirs already.
    have hentry := entry_push s (.type t)
    have hself : (s.push (.type t)).2.entry s.entries.size = .type t := by rw [hentry, if_pos rfl]
    have hold : ∀ (l : String) x, s.types[l]? = some x → (s.types.insert key.text s.entries.size)[l]? = some x :=
      fun l x hl => getElem?_insert_of_new hx hl
    have htype (x u) (hu : s.type? x = some u) : (s.push (.type t)).2.type? x = some u := by
      rw [type?, hentry, if_neg (Nat.ne_of_lt (lt_size_of_type? hu))]
      exact hu
    have hmoves : Moves (fun _ => True) s { (s.push (.type t)).2 with types := s.types.insert key.text s.entries.size } := by
      refine .of_entry hentry ?_ (by simp [Store.push]) hold (fun l x hl => ?_)
        List.prefix_rfl Coherent.size_ne fun hs g => ⟨⟨key, hk.mono fun _ _ => g.type?, by simp⟩, g.admits hadmits⟩
      · rw [entry_of_size_le (Nat.le_refl _)]
        exact .reserved _
      · rw [getElem?_insert_text] at hl
        split at hl
        · next heq =>
          cases hl
          exact .inr ⟨t, hself, heq ▸ hk.mono htype⟩
        · exact .inl hl
    refine ⟨s.entries.size, { (s.push (.type t)).2 with types := s.types.insert key.text s.entries.size }, ?_,
      ⟨hmoves.size_le, fun x hlt => ?_, fun x hle hlt => ?_, hold, rfl, rfl, rfl, hmoves.coherent⟩, type?_of_entry hself⟩
    · simp only [internKey, get_bind_apply, hx]
      rfl
    · exact (hentry x).trans (if_neg (Nat.ne_of_lt hlt))
    · have hx : x = s.entries.size := by
        simp only [Store.push, Array.size_push] at hlt
        omega
      exact ⟨t, (hentry x).trans (if_pos hx)⟩

lemma internKey_after (n : Interns s s') (hs : s.Coherent) (hk : s'.Keyed t key) (hadmits : s.Admits t) :
    Yields s' (internKey key t) fun h s'' => Interns s s'' ∧ s''.type? h = some t :=
  (internKey_yields (n.coherent hs) hk (n.evolves.admits hadmits)).mono fun _ _ h => ⟨trans_of Interns n h.1, h.2⟩

mutual

lemma internType_yields : ∀ (t) {s : Store}, s.Coherent → s.Admits t →
    Yields s (internType t) fun h s' => Interns s s' ∧ s'.type? h = some t
  | .ptr e, s, hs, ht =>
    .bind (internType_yields e hs ht.elem) fun x s1 ⟨n1, hx⟩ => internKey_after n1 hs (.ptr hx) ht
  | .func r ps v, s, hs, ht => by
    obtain ⟨hr, hps⟩ := Admits.func_iff.1 ht
    refine .bind (internType_yields r hs hr) fun x s1 ⟨n1, hx⟩ => ?_
    refine .bind (internTypes_yields ps (n1.coherent hs) fun p hp => n1.evolves.admits (hps p hp).1) ?_
    rintro xs s2 ⟨n2, hxs⟩
    exact internKey_after (trans_of Interns n1 n2) hs (.func (n2.evolves.type? hx) hxs v) ht
  | .array n e, s, hs, ht =>
    .bind (internType_yields e hs ⟨ht.formed, ht.holds⟩) fun x s1 ⟨n1, hx⟩ => internKey_after n1 hs (.array n hx) ht
  | .struct k, s, hs, ht => by
    obtain ⟨i, hi⟩ := ht.holds k (by simp [Ty.structs])
    exact .pure ⟨refl_of Interns s, by simp only [type?, hi]⟩
  | .void, _, hs, ht => internKey_yields hs .void ht
  | .label, _, hs, ht => internKey_yields hs .label ht
  | .int w, _, hs, ht => internKey_yields hs (.int w) ht
  | .float p, _, hs, ht => internKey_yields hs (.float p) ht

lemma internTypes_yields : ∀ (ts) {s : Store}, s.Coherent → (∀ t ∈ ts, s.Admits t) →
    Yields s (internTypes ts) fun xs s' => Interns s s' ∧ xs.map s'.type? = ts.map some
  | [], s, _, _ => .pure ⟨refl_of Interns s, rfl⟩
  | t :: ts, s, hs, ht => by
    refine .bind (internType_yields t hs (ht t (by simp))) fun x s1 ⟨n1, hx⟩ => ?_
    refine .bind (internTypes_yields ts (n1.coherent hs) fun u hu => n1.evolves.admits (ht u (by simp [hu]))) ?_
    rintro xs s2 ⟨n2, hxs⟩
    exact .pure ⟨trans_of Interns n1 n2, by rw [List.map_cons, List.map_cons, hxs, n2.evolves.type? hx]⟩

end

lemma pointer_moves (hs : s.Coherent) (elem) : Along (Moves B) s (pointer elem) := by
  refine .look (typeOf_along elem) fun t ht => ?_
  have hadmits := hs.admits_of_type? ht
  have hptr : t ≠ .void → t ≠ .label → Along (Moves B) s (internKey (.ptr elem) (.ptr t)) := fun hvoid hlabel =>
    along_any (internKey_yields hs (.ptr ht) (hadmits.ptr hvoid hlabel)).moves
  cases t with
  | void => exact .throw
  | label => exact .throw
  | _ => exact hptr (by simp) (by simp)

lemma func_moves (hs : s.Coherent) (ret params variadic) : Along (Moves B) s (func ret params variadic) := by
  unfold func
  rw [along_get_bind]
  cases hr : s.type? ret with
  | none => exact .throw
  | some r =>
    dsimp only
    rw [along_get_bind]
    cases s.types[(TypeKey.func ret params variadic).text]? with
    | some h => exact .pure trivial
    | none =>
      refine .bind (paramTypes_along params 0) ?_
      rintro ps s' - ⟨rfl, hmap, hps⟩
      have hadmits : s'.Admits (.func r ps variadic) := by
        refine Admits.func_iff.2 ⟨hs.admits_of_type? hr, fun p hp => ?_⟩
        obtain ⟨⟨x, hx⟩, hvoid⟩ := hps p hp
        exact ⟨hs.admits_of_type? hx, hvoid⟩
      exact along_any (internKey_yields hs (.func hr hmap variadic) hadmits).moves

lemma push_moves (hfine : s.Coherent → ∀ s', Evolves B s s' → s'.Fine s.entries.size e)
    (hopen : ∀ c, e = .block c → c.ending = none) : Along (Prepares B) s (push e) fun h s' =>
      h = s.entries.size ∧ s' = (s.push e).2 :=
  .modifyGet ((moves_push e hfine).prepares fun b c hc => by
    rw [entry_push] at hc
    split at hc
    · exact .inr (hopen c hc)
    · exact .inl hc) ⟨rfl, rfl⟩

lemma setStructBody_moves (type fields) : Along (Moves (· = type)) s (setStructBody type fields) := by
  refine .bind (typeOf_along type) ?_
  rintro t s' - ⟨rfl, -⟩
  rw [along_get_bind]
  cases hi : s'.struct? type with
  | none => exact refl_of _ s'
  | some i =>
    refine .bind (fieldTypes_along fields 0) ?_
    rintro ts s1 - rfl
    have hset : Prepares (· = type) s1 (s1.setStruct type { i with fields := some ts }) :=
      prepares_set (struct?_eq_some.1 hi) (by simp) (.struct rfl rfl rfl fun h => absurd rfl h) (by simp)
    exact .modify hset.toMoves trivial

lemma admits_funcParts (hs : s.Coherent) (hp : s.funcParts? type = some (r, ps, v)) :
    s.Admits (.func r ps v) := by
  unfold funcParts? at hp
  split at hp
  · next ht =>
    cases hp
    exact hs.admits_of_type? ht
  · next ht =>
    cases hp
    exact (hs.admits_of_type? ht).elem
  · cases hp

lemma funcRetType_moves (hs : s.Coherent) (type) : Along (Moves B) s (funcRetType type) := by
  unfold funcRetType
  rw [along_get_bind]
  cases hp : s.funcParts? type with
  | none => exact .pure trivial
  | some parts =>
    obtain ⟨r, ps, v⟩ := parts
    exact along_any (internType_yields r hs (Admits.func_iff.1 (admits_funcParts hs hp)).1).moves

lemma funcArgType_moves (hs : s.Coherent) (type index) : Along (Moves B) s (funcArgType type index) := by
  unfold funcArgType
  rw [along_get_bind]
  cases hp : s.funcParts? type with
  | none => exact .pure trivial
  | some parts =>
    obtain ⟨r, ps, v⟩ := parts
    dsimp only
    cases hi : ps[index]? with
    | none => exact .pure trivial
    | some t =>
      have ht := (Admits.func_iff.1 (admits_funcParts hs hp)).2 t (List.mem_of_getElem? hi)
      exact along_any (internType_yields t hs ht.1).moves

/-! ### Values -/

lemma valueHandle_moves
    (hfine : s.Coherent → ∀ s', Evolves B s s' → s'.Fine s.entries.size e) (hopen : ∀ c, e = .block c → c.ending = none) :
    Along (Moves B) s (valueHandle v e) := by
  unfold valueHandle
  rw [along_get_bind]
  cases s.values[v]? with
  | some h => exact .pure trivial
  | none =>
    refine .bind ((push_moves hfine hopen).weaken fun _ p => p.toMoves) fun h s' _ _ => ?_
    exact modify_pure (moves_beside rfl rfl List.prefix_rfl)

lemma constHandle_moves (hc : s.Admits c.ty) : Along (Moves B) s (valueHandle (.const c) (.const c)) :=
  valueHandle_moves (fun _ _ g => g.admits hc) (by simp)

lemma constant_moves (hs : s.Coherent) (hc : s.Admits c.ty) : Along (Moves B) s (constant c) := by
  refine .bind (internType_yields c.ty hs hc).moves fun h s' _ ⟨n, _⟩ => ?_
  exact constHandle_moves (n.evolves.admits hc)

lemma boolConst_moves (hs : s.Coherent) (b) : Along (Moves B) s (boolConst b) := constant_moves hs (.int .w1)

lemma int_moves (hs : s.Coherent) (value bits) : Along (Moves B) s (int value bits) := by
  unfold int
  split
  · exact .throw
  · exact boolConst_moves hs _
  · exact constant_moves hs (.int _)

lemma text_moves (module t) : Along (Moves B) s (text module t) := by
  refine .bind (moduleOf_along module) ?_
  rintro m s' - ⟨rfl, hm, -⟩
  cases m.texts.toList.idxOf? t with
  | some i => exact constHandle_moves .bytes
  | none =>
    refine .bind (P := fun _ _ => True) (.modify (prepares_setModule hm (by rfl) ?_).toMoves trivial)
      fun _ _ _ _ => constHandle_moves .bytes
    exact id

lemma defaultValue_moves (hs : s.Coherent) (type) : Along (Moves B) s (defaultValue type) := by
  refine .look (typeOf_along type) fun t ht => ?_
  have hadmits := hs.admits_of_type? ht
  cases t with
  | int w =>
    cases w with
    | w1 => exact boolConst_moves hs false
    | _ => exact int_moves hs 0 _
  | float p => exact constant_moves hs (.float p)
  | ptr | struct | array => exact constant_moves hs hadmits
  | void | label | func => exact refl_of _ s

lemma newFunc_moves (hsig : s.Admits (.func r ps v)) (module) (name) :
    Along (Prepares B) s (newFunc module name r ps v) := by
  refine .bind (push_moves (fun _ s' g => ?_) (by simp)) ?_
  · change s'.Admits (FuncInfo.signature _)
    simpa [FuncInfo.signature, Function.comp_def] using g.admits hsig
  · rintro h s' - ⟨-, rfl⟩
    rw [along_get_bind]
    split
    · exact .pure trivial
    · next m hm =>
      refine modify_pure (prepares_setModule hm (by rfl) ?_)
      exact id

lemma declareFunc_moves (hs : s.Coherent) (module name type) : Along (Moves B) s (declareFunc module name type) := by
  refine .bind (moduleOf_along module) ?_
  rintro m s' - ⟨rfl, -, -⟩
  refine .bind (funcParts_along type) ?_
  rintro ⟨r, ps, v⟩ s1 - ⟨rfl, hp⟩
  cases m.declared.lookup name with
  | none => exact (newFunc_moves (admits_funcParts hs hp) module name).weaken fun _ p => p.toMoves
  | some h =>
    rw [along_get_bind]
    cases hf : s1.func? h with
    | none => exact .throw
    | some f =>
      refine .bind (internType_yields f.signature hs (hs.admits_signature hf)).moves fun x s2 _ _ => ?_
      exact .ite (fun _ => .pure trivial) fun _ => .throw

lemma admits_ownTy (hs : s.Coherent) (hv : s.operand? h = some v) : s.Admits (s.ownTy v) := by
  cases v with
  | func g =>
    obtain ⟨rfl, f, hf⟩ := operand?_func hv
    simpa only [ownTy, hf, Option.elim] using hs.admits_signature hf
  | _ => exact hs.admits_tyOf (hs.grounded hv)

lemma valueType_eq (hv : s.operand? value = some v) : valueType value s = internType (s.ownTy v) s := by
  cases v with
  | func g =>
    obtain ⟨rfl, f, hf⟩ := operand?_func hv
    simp only [valueType, get_bind_apply, hv, hf, ownTy, Option.elim]
  | _ => simp only [valueType, get_bind_apply, hv, ownTy]

lemma valueType_yields (hs : s.Coherent) (value) : Yields s (valueType value) fun h s' => Interns s s' ∧
    (s.operand? value).elim (h = noHandle) fun v => s'.type? h = some (s.ownTy v) := by
  cases hv : s.operand? value with
  | none =>
    refine ⟨noHandle, s, ?_, refl_of Interns s, rfl⟩
    simp only [valueType, get_bind_apply, hv]
    rfl
  | some v =>
    obtain ⟨h, s', hh, hQ⟩ := internType_yields _ hs (admits_ownTy hs hv)
    exact ⟨h, s', (valueType_eq hv).trans hh, hQ⟩

lemma localName_moves (func name) : Along (Prepares B) s (localName func name) := by
  refine .ite (fun _ => .pure trivial) fun _ => ?_
  rw [along_get_bind]
  cases hf : s.func? func with
  | none => exact .pure trivial
  | some f =>
    refine modify_pure (prepares_setFunc hf ?_)
    exact ⟨rfl, rfl, rfl, rfl, List.prefix_rfl⟩

lemma setValueName_moves (value) (name) : Along (Moves B) s (setValueName value name) := by
  unfold setValueName
  rw [along_get_bind]
  split
  · exact .pure trivial
  · exact .pure trivial
  · next v _ _ =>
    rw [along_get_bind]
    extract_lets jp
    have hset (unique s') : Along (Moves B) s' (jp unique) := by
      dsimp only [jp]
      cases v with
      | const c => exact .pure trivial
      | param f i =>
        rw [along_get_bind]
        cases hf : s'.func? f with
        | none => exact .pure trivial
        | some F => exact .modify (prepares_setFunc hf (F.alike_nameParam i _)).toMoves trivial
      | func h =>
        rw [along_get_bind]
        cases hf : s'.func? h with
        | none => exact .pure trivial
        | some F =>
          refine .modify (prepares_setFunc hf ?_).toMoves trivial
          exact ⟨rfl, rfl, rfl, rfl, List.prefix_rfl⟩
      | inst h =>
        rw [along_get_bind]
        cases hi : s'.inst? h with
        | none => exact .pure trivial
        | some i =>
          refine .modify (prepares_setInst hi ?_).toMoves trivial
          exact ⟨rfl, rfl, rfl⟩
      | block h =>
        rw [along_get_bind]
        cases hb : s'.block? h with
        | none => exact .pure trivial
        | some b => exact .modify (moves_setBlock hb ⟨rfl, List.prefix_rfl, fun _ h => ⟨h, rfl⟩⟩) trivial
    -- A local whose function is gone keeps the name as it is given.
    cases ownerOf s v with
    | none => exact hset name s
    | some f => exact .bind ((localName_moves f name).weaken fun _ p => p.toMoves) fun unique s' _ _ => hset unique s'

/-! ### Modules and blocks -/

lemma dropModule_moves (module) : Along (Moves B) s (dropModule module) := by
  unfold dropModule
  rw [along_get_bind]
  cases hm : s.module? module with
  | none => exact .pure trivial
  | some m =>
    refine .ite (fun _ => .pure trivial) fun _ => ?_
    refine .bind (P := fun _ _ => True) (.modify (prepares_setModule hm (by rfl) ?_).toMoves trivial) fun _ _ _ _ => ?_
    · exact fun _ => rfl
    · exact .modify (moves_beside rfl rfl List.prefix_rfl) trivial

lemma createBlock_moves (func name) : Along (Moves B) s (createBlock func name) := by
  refine .look (funcOf_along func) fun f _ => ?_
  rw [along_get_bind]
  cases s.module? f.module
  case' some m => refine .ite (fun _ => .throw) fun _ => ?_
  all_goals
    refine .bind ((localName_moves func name).weaken fun _ p => p.toMoves) fun unique s1 _ _ => ?_
    refine .bind ((push_moves (fun _ _ _ => by trivial) (by simp)).weaken fun _ p => p.toMoves) fun h s2 _ _ => ?_
    rw [along_get_bind]
    cases hf : s2.func? func with
    | none => exact .pure trivial
    | some f =>
      refine modify_pure (prepares_setFunc hf ?_).toMoves
      exact ⟨rfl, rfl, rfl, rfl, by simp⟩

lemma cursor_moves : Along (Moves B) s cursor fun b s' => s' = s ∧ s.Open b := by
  unfold cursor
  rw [along_get_bind]
  cases s.active with
  | none => exact .throw
  | some h =>
    refine .look (blockOf_along h) fun b hb => ?_
    cases he : b.ending with
    | none =>
      refine .pure ⟨rfl, fun c hc => ?_⟩
      cases hb.symm.trans hc
      exact he
    | some e =>
      rw [along_get_bind]
      refine .bind (P := fun _ _ => True) (.modify (moves_beside rfl rfl ?_) trivial) fun _ _ _ _ => .throw
      simp

end Emit

end Arbor.IR
