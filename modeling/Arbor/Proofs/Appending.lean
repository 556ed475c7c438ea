import Arbor.Proofs.Operations

/-! Appending and printing move a store on. What is appended goes to an open block, and what is done on
the way there leaves it open. -/

namespace Arbor.IR

open Proofs

namespace Emit

open Store

variable {s : Store}

lemma append_moves (hopen : s.Open block) (hty : s.Admits ty)
    (halloca : ∀ e, inst = .alloca e → ty = .ptr e) (hload : ∀ e v, inst = .load e v → s.Grounded v) :
    Along (Moves B) s (append block inst ty) fun h s' => s'.entry h = .inst { inst, ty, block } := by
  have hfine : s.Coherent → ∀ s', Evolves B s s' → s'.Fine s.entries.size (.inst { inst, ty, block }) :=
    fun _ _ g => ⟨g.admits hty, halloca, fun e v hv => g.grounded (hload e v hv)⟩
  refine .bind ((push_moves hfine (by simp)).keep fun _ p => p.toMoves) ?_
  rintro h s1 - ⟨p, rfl, rfl⟩
  have hself := entry_push s (.inst { inst, ty, block }) s.entries.size
  rw [if_pos rfl] at hself
  rw [along_get_bind]
  split
  · exact .pure hself
  · next b hb =>
    -- Nothing may be added to a block that has ended, and this one has not.
    have hle : b.Le { b with insts := b.insts.push s.entries.size } :=
      ⟨rfl, by simp, fun e he => by rw [p.stays block hopen b hb] at he; cases he⟩
    refine .bind
      (.modify (moves_setBlock hb hle) ?_) fun _ _ _ hh => .pure hh
    have hne : s.entries.size ≠ block := by
      rintro rfl
      rw [block?_eq_some, hself] at hb
      cases hb
    exact (entry_setIfInBounds _ _ _ _).trans ((if_neg fun h => hne h.1).trans hself)

lemma terminate_moves (hopen : s.Open block) (t) : Along (Moves B) s (terminate block t) := by
  refine .bind ((push_moves (fun _ _ _ => by trivial) (by simp)).keep fun _ p => p.toMoves) fun h s1 _ ⟨p, _, _⟩ => ?_
  rw [along_get_bind]
  split
  · exact .pure trivial
  · next b hb =>
    have hle : b.Le { b with ending := some ⟨h, t⟩ } :=
      ⟨rfl, List.prefix_rfl, fun e he => by rw [p.stays block hopen b hb] at he; cases he⟩
    exact modify_pure (moves_setBlock hb hle)

section

variable (hs : s.Coherent)

include hs

lemma alloc_moves (type name) : Along (Moves B) s (alloc type name) := by
  refine .look (typeOf_along type) fun t ht => ?_
  have hadmits := hs.admits_of_type? ht
  have hslot : ∀ elem, s.Admits elem → elem ≠ .void → elem ≠ .label → Along (Moves B) s (do
      let block ← cursor
      let func := ((← get).block? block).elim noHandle BlockInfo.func
      let unique ← localName func name
      let h ← append block (.alloca elem) (.ptr elem)
      modify (·.setInst h { inst := .alloca elem, ty := .ptr elem, block, ident := { name := unique } })
      pure h) fun _ _ => True := by
    intro elem helem hvoid hlabel
    refine .look cursor_moves fun block hopen => ?_
    rw [along_get_bind]
    refine .bind ((localName_moves _ name).keep fun _ p => p.toMoves) fun unique s2 _ ⟨p, _⟩ => ?_
    refine .bind (append_moves (p.stays block hopen) (p.admits (helem.ptr hvoid hlabel)) (by simp) (by simp)) ?_
    intro h s3 _ hh
    refine modify_pure (prepares_setInst (inst?_eq_some.2 hh) ?_).toMoves
    exact ⟨rfl, rfl, rfl⟩
  cases t with
  | void => exact .throw
  | label => exact .throw
  | func r ps v => exact hslot _ (hadmits.ptr (by simp) (by simp)) (by simp) (by simp)
  | _ => exact hslot _ hadmits (by simp) (by simp)

lemma load_moves (ptr) : Along (Moves B) s (load ptr) := by
  refine .look (operandOf_along ptr) fun p hp => ?_
  rw [along_get_bind]
  have hgrounded := hs.grounded hp
  have hadmits := hs.admits_tyOf hgrounded
  cases ht : s.tyOf p with
  | ptr elem =>
    rw [ht] at hadmits
    refine .look cursor_moves fun block hopen => ?_
    refine along_any (append_moves hopen hadmits.elem (by simp) fun e v hv => ?_)
    cases hv
    exact hgrounded
  | _ => exact refl_of _ s

lemma store_moves (ptr value) : Along (Moves B) s (store ptr value) := by
  refine .look (operandOf_along ptr) fun p hp => ?_
  refine .look (operandOf_along value) fun v hv => ?_
  rw [along_get_bind]
  have hadmits := hs.admits_tyOf (hs.grounded hp)
  cases ht : s.tyOf p with
  | ptr elem =>
    rw [ht] at hadmits
    refine .bind (internType_yields elem hs hadmits.elem).moves fun want s2 _ ⟨n2, _⟩ => ?_
    refine .bind (valueType_yields (n2.coherent hs) value).moves fun own s3 _ ⟨n3, _⟩ => ?_
    have hs3 := n3.coherent (n2.coherent hs)
    have hv3 : s3.operand? value = some v := by rw [n3.operand?_eq, n2.operand?_eq, hv]
    -- A function is stored as its address, whose type is looked up once more.
    cases v
    case' func g =>
      rw [along_get_bind]
      refine .bind (along_any (internType_yields _ hs3 (hs3.admits_tyOf (hs3.grounded hv3))).moves) fun got s4 _ _ => ?_
    all_goals
      refine .ite (fun _ => refl_of _ _) fun _ => .bind cursor_moves ?_
      rintro block s5 - ⟨rfl, hopen⟩
      exact along_any (append_moves hopen .void (by simp) (by simp))
  | _ => exact refl_of _ s

lemma coerce_moves (value type) : Along (Moves B) s (coerce value type) := by
  refine .bind (valueType_yields hs value).moves fun source s1 _ ⟨n, _⟩ => ?_
  refine .ite (fun _ => .pure trivial) fun _ => ?_
  refine .look (operandOf_along value) fun v _ => ?_
  refine .look (typeOf_along type) fun t ht => ?_
  rw [along_get_bind]
  refine .look cursor_moves fun block hopen => ?_
  cases castBetween (s1.typeKind source) t.kind with
  | none => exact refl_of _ s1
  | some c => exact along_any (append_moves hopen ((n.coherent hs).admits_of_type? ht) (by simp) (by simp))

end

lemma operandHandle_moves (hv : s.Grounded v) : Along (Moves B) s (operandHandle v) := by
  cases v with
  | const c => exact constHandle_moves (hv c rfl)
  | param f i => exact valueHandle_moves (fun _ _ _ => trivial) (by simp)
  | _ => exact .pure trivial

lemma ptrRef_moves (hs : s.Coherent) (value) : Along (Moves B) s (ptrRef value) := by
  refine .look (operandOf_along value) fun v _ => ?_
  cases v with
  | inst h =>
    rw [along_get_bind]
    cases hi : s.inst? h with
    | none => exact refl_of _ s
    | some i =>
      have hfine := hs.entries h
      rw [inst?_eq_some.1 hi] at hfine
      split
      · exact .pure trivial
      · next e src he => exact operandHandle_moves (hfine.2.2 e src (Option.some.inj he))
      · exact refl_of _ s
  | _ => exact refl_of _ s

lemma unary_moves (hs : s.Coherent) (op value) :
    Along (Moves B) s (unary op value) fun h s' => ∀ x w, s.operand? value = some x → s.tyOf x = .int w → w ≠ .w1 →
      ∃ i, s'.inst? h = some i ∧ (op = .neg → i.inst = .int .sub (.const (.int w 0)) x) ∧
        (op = .flip → i.inst = .int .xor x (.const (.int w (-1)))) := by
  refine .look (operandOf_along value) fun x hx => ?_
  refine .bind (valueType_yields hs value).moves fun type s1 _ ⟨n, _⟩ => ?_
  rw [along_get_bind]
  refine .look cursor_moves fun block hopen => ?_
  rw [along_get_bind, n.tyOf_eq]
  split
  · refine (append_moves hopen (.float _) (by simp) (by simp)).mono fun h s3 _ _ x w hx ht _ => ?_
    grind
  · refine (append_moves hopen (.int _) (by simp) (by simp)).mono fun h s3 _ hh x w hx ht hw => ?_
    grind
  · exact .throw
  · refine (append_moves hopen (.int _) (by simp) (by simp)).mono fun h s3 _ hh x w hx ht hw => ?_
    exact ⟨_, inst?_eq_some.2 hh, by grind, by grind⟩
  · refine (append_moves hopen (.int _) (by simp) (by simp)).mono fun h s3 _ hh x w hx ht hw => ?_
    exact ⟨_, inst?_eq_some.2 hh, by grind, by grind⟩
  · exact .throw

lemma binaryInst?_plain (h : binaryInst? op kind x y = some inst) :
    (∀ e, inst ≠ .alloca e) ∧ ∀ e v, inst ≠ .load e v := by
  unfold binaryInst? at h
  cases hc : comparison? op with
  | some c =>
    rw [hc] at h
    dsimp only at h
    split_ifs at h <;> cases h <;> simp
  | none =>
    rw [hc] at h
    split_ifs at h <;> obtain ⟨o, -, rfl⟩ := Option.map_eq_some_iff.1 h <;> simp

lemma binary_moves (hs : s.Coherent) (op left right) : Along (Moves B) s (binary op left right) := by
  refine .look (operandOf_along left) fun x hx => ?_
  refine .look (operandOf_along right) fun y _ => ?_
  refine .bind (valueType_yields hs left).moves fun leftType s2 _ ⟨n2, _⟩ => ?_
  refine .bind (valueType_yields (n2.coherent hs) right).moves fun rightType s3 _ ⟨n3, _⟩ => ?_
  have hs3 := n3.coherent (n2.coherent hs)
  have hx3 : s3.operand? left = some x := by rw [n3.operand?_eq, n2.operand?_eq, hx]
  refine .ite (fun _ => refl_of _ _) fun _ => ?_
  rw [along_get_bind]
  refine .look cursor_moves fun block hopen => ?_
  cases hi : binaryInst? op (s3.typeKind leftType) x y with
  | none => exact .throw
  | some inst =>
    obtain ⟨halloca, hload⟩ := binaryInst?_plain hi
    refine along_any (append_moves hopen ?_ (fun e he => absurd he (halloca e)) fun e v he => absurd he (hload e v))
    split
    · exact .int .w1
    · exact .int .w1
    · exact hs3.admits_tyOf (hs3.grounded hx3)

lemma jumpCond_moves (hs : s.Coherent) (cond yes no) : Along (Moves B) s (jumpCond cond yes no) := by
  refine .look (operandOf_along cond) fun c _ => ?_
  refine .bind (valueType_yields hs cond).moves fun type s1 _ ⟨n1, _⟩ => ?_
  refine .bind (internType_yields (.int .w1) (n1.coherent hs) (.int .w1)).moves ?_
  rintro bool s2 - -
  refine .ite (fun _ => refl_of _ _) fun _ => ?_
  refine .look (blockOf_along yes) fun b _ => ?_
  refine .look (blockOf_along no) fun b' _ => ?_
  refine .look cursor_moves fun block hopen => ?_
  exact terminate_moves hopen _

lemma phiEdges_moves (type incoming) : ∀ {s : Store}, s.Coherent → ∀ index,
    Along (Moves B) s (phiEdges type index incoming) fun edges s' => ∀ e ∈ edges, s'.Grounded e.1 := by
  induction incoming with
  | nil => exact fun _ _ => .pure (by simp)
  | cons edge rest ih =>
    intro s hs index
    obtain ⟨value, pred⟩ := edge
    refine .bind (valueType_yields hs value).moves fun got s1 _ ⟨n, _⟩ => ?_
    refine .ite (fun _ => refl_of _ _) fun _ => ?_
    refine .look (operandOf_along value) fun v hv => ?_
    refine .look (blockOf_along pred) fun b _ => ?_
    refine .bind (ih (n.coherent hs) (index + 1)) fun edges s4 m hedges => .pure ?_
    rintro e (_ | ⟨_, he⟩)
    · exact m.grounded ((n.coherent hs).grounded hv)
    · exact hedges e he

lemma phi_moves (hs : s.Coherent) (type incoming) : Along (Moves B) s (phi type incoming) := by
  refine .ite (fun _ => .throw) fun _ => ?_
  refine .bind (phiEdges_moves type incoming hs 0) fun edges s1 m hedges => ?_
  refine .look cursor_moves fun block hopen => ?_
  refine along_any (append_moves hopen ?_ (by simp) (by simp))
  cases edges with
  | nil => exact .void
  | cons e edges => exact (m.coherent hs).admits_tyOf (hedges e (by simp))

lemma externIn_moves (hf : s.Admits f.signature) (module) : Along (Prepares B) s (externIn module f) := by
  unfold externIn
  rw [along_get_bind]
  cases s.module? module with
  | none => exact .pure trivial
  | some m =>
    dsimp only
    cases m.declared.lookup f.ident.spoken with
    | some h => exact .pure trivial
    | none => exact newFunc_moves hf module _

lemma callTarget_moves (hs : s.Coherent) (hv : s.Grounded v) :
    Along (Prepares B) s (callTarget block v) fun target s' => s'.Grounded target.1 ∧ ∀ p ∈ target.2.2.1, s'.Admits p := by
  have hadmits := hs.admits_tyOf hv
  cases v
  case func h =>
    unfold callTarget
    rw [along_get_bind]
    cases hf : s.func? h with
    | none => exact .throw
    | some f =>
      have hsig := hs.admits_signature hf
      have hps : ∀ p ∈ f.params.toList.map ParamInfo.ty, s.Admits p := fun p hp => ((Admits.func_iff.1 hsig).2 p hp).1
      refine .ite (fun _ => .pure ⟨by simp [Grounded], hps⟩) fun _ => ?_
      refine .bind (externIn_moves hsig _) fun h' s' p _ => .pure ⟨by simp [Grounded], fun q hq => p.admits (hps q hq)⟩
  all_goals
    unfold callTarget
    rw [along_get_bind]
    split
    · next r ps variadic ht =>
      rw [ht] at hadmits
      exact .pure ⟨hv, fun p hp => ((Admits.func_iff.1 hadmits.elem).2 p hp).1⟩
    · exact refl_of _ s

lemma callArgs_moves (args) : ∀ {s : Store}, s.Coherent → ∀ index ps, (∀ p ∈ ps, s.Admits p) →
    Along (Prepares B) s (callArgs index ps args) := by
  induction args with
  | nil =>
    intro s _ index ps _
    exact .pure trivial
  | cons a args ih =>
    intro s hs index ps hps
    cases ps with
    | nil =>
      unfold callArgs
      rw [along_get_bind]
      cases s.operand? a with
      | none => exact .throw
      | some v => exact .bind (ih hs (index + 1) [] hps) fun _ _ _ _ => .pure trivial
    | cons p ps =>
      unfold callArgs
      rw [along_get_bind]
      cases s.operand? a with
      | none => exact .throw
      | some v =>
        refine .bind ((internType_yields p hs (hps p (by simp))).along fun _ _ hh => hh.1.prepares) ?_
        rintro want s1 - ⟨n1, -⟩
        refine .bind ((valueType_yields (n1.coherent hs) a).along fun _ _ hh => hh.1.prepares) ?_
        rintro got s2 - ⟨n2, -⟩
        have n := trans_of Interns n1 n2
        refine .ite (fun _ => refl_of _ _) fun _ => ?_
        exact .bind (ih (n.coherent hs) (index + 1) ps fun q hq => n.evolves.admits (hps q (by simp [hq])))
          fun _ _ _ _ => .pure trivial

lemma call_moves (hs : s.Coherent) (func args) : Along (Moves B) s (call func args) := by
  refine .look (operandOf_along func) fun callee hcallee => ?_
  refine .look cursor_moves fun block hopen => ?_
  refine .bind ((callTarget_moves hs (hs.grounded hcallee)).keep fun _ p => p.toMoves) ?_
  rintro ⟨target, r, ps, variadic⟩ s2 - ⟨p2, htarget, hps⟩
  refine .ite (fun _ => .throw) fun _ => ?_
  -- The callee may have been declared here just now, and types were named: the block is open still.
  refine .bind ((callArgs_moves args (p2.coherent hs) 0 ps hps).keep fun _ p => p.toMoves) fun vs s3 _ ⟨p3, _⟩ => ?_
  have hopen3 := p3.stays block (p2.stays block hopen)
  have hadmits := (p3.coherent (p2.coherent hs)).admits_tyOf (p3.grounded htarget)
  rw [along_get_bind]
  split
  · next r' ps' v' ht =>
    rw [ht] at hadmits
    exact along_any (append_moves hopen3 (Admits.func_iff.1 hadmits.elem).1 (by simp) (by simp))
  · exact along_any (append_moves hopen3 .void (by simp) (by simp))

/-! ### Printing -/

lemma moves_setIdent (func ident l) : Moves B s (setIdent s func ident l) := by
  cases l with
  | param i =>
    simp only [setIdent]
    cases hf : s.func? func with
    | none => exact refl_of _ s
    | some f => exact (prepares_setFunc hf (f.alike_nameParam i ident)).toMoves
  | block h =>
    simp only [setIdent]
    cases hb : s.block? h with
    | none => exact refl_of _ s
    | some b => exact moves_setBlock hb ⟨rfl, List.prefix_rfl, fun _ h => ⟨h, rfl⟩⟩
  | inst h =>
    simp only [setIdent]
    cases hi : s.inst? h with
    | none => exact refl_of _ s
    | some i => exact (prepares_setInst (j := { i with ident }) hi ⟨rfl, rfl, rfl⟩).toMoves

lemma numberLocals_moves (func locals) : ∀ {s : Store} next, Along (Moves B) s (numberLocals func next locals) := by
  induction locals with
  | nil => exact fun _ => .pure trivial
  | cons l rest ih =>
    intro s next
    unfold numberLocals
    refine .ite (fun _ => ih next) fun _ => .ite (fun _ => ⟨refl_of _ s, trivial⟩) fun _ => ?_
    exact .bind (P := fun _ _ => True) (.modify (moves_setIdent func _ l) trivial) fun _ _ _ _ => ih (next + 1)

lemma funcTexts_moves (funcs) : ∀ {s : Store}, Along (Moves B) s (funcTexts funcs) := by
  induction funcs with
  | nil => exact .pure trivial
  | cons h rest ih =>
    intro s
    unfold funcTexts
    rw [along_get_bind]
    cases s.func? h with
    | none => exact ih
    | some f =>
      rw [along_get_bind]
      refine .bind (numberLocals_moves h _ 0) fun numbered s1 _ _ => ?_
      cases numbered with
      | error e => exact .pure trivial
      | ok _ =>
        rw [along_get_bind]
        split
        · exact .pure trivial
        · refine .bind ih fun texts s2 _ _ => ?_
          cases texts <;> exact .pure trivial

lemma numberFuncs_moves (funcs) : ∀ {s : Store} next, Along (Moves B) s (numberFuncs next funcs) := by
  induction funcs with
  | nil => exact fun _ => .pure trivial
  | cons h rest ih =>
    intro s next
    unfold numberFuncs
    rw [along_get_bind]
    cases hf : s.func? h with
    | none => exact ih next
    | some f =>
      refine .ite (fun _ => ih next) fun _ => .ite (fun _ => .pure trivial) fun _ => ?_
      refine .bind (P := fun _ _ => True) (.modify (prepares_setFunc hf ?_).toMoves trivial) fun _ _ _ _ => ih (next + 1)
      exact ⟨rfl, rfl, rfl, rfl, List.prefix_rfl⟩

lemma dumpModule_moves (module) : Along (Moves B) s (dumpModule module) := by
  unfold dumpModule
  rw [along_get_bind]
  cases s.module? module with
  | none => exact .pure trivial
  | some m =>
    refine .ite (fun _ => .pure trivial) fun _ => ?_
    refine .bind (numberFuncs_moves _ 0) fun numbered s1 _ _ => ?_
    cases numbered with
    | error e => exact .pure trivial
    | ok _ =>
      refine .bind (funcTexts_moves _) fun texts s2 _ _ => ?_
      cases texts <;> exact ⟨refl_of _ s2, trivial⟩

end Emit

end Arbor.IR
