import Arbor.Proofs.Canonical
import Arbor.Proofs.Halting

/-! Blocks that have ended are frozen. What they hold never changes again, and an instruction or terminator
that would go into one is refused, whichever operation it comes from: its operands are looked at, types may
get handles for that, and then the cursor turns it down and remembers it against the module. -/

namespace Arbor.IR

open Proofs Store Command Build.Act Emit

variable {type : Handle} {c : Command}

def Store.EdgeFits (s : Store) (type : Handle) (e : Handle × Handle) : Prop :=
  (∃ v, s.operand? e.1 = some v ∧ s.type? type = some (s.ownTy v)) ∧ ∃ c, s.block? e.2 = some c

namespace Emit

variable {α β : Type} {s s' : Store} {h b : Handle}

def Reaches (s : Store) (a : Emit α) : Prop :=
  ∃ (s' : Store) (k : Handle → Emit α), Interns s s' ∧ a s = (cursor >>= k) s'

/-- If `P` holds, the action comes to ask for the cursor. Otherwise it does no more than to name types. -/
structure Attempts (P : Prop) (s : Store) (a : Emit α) : Prop where
  reaches : P → Reaches s a
  stops : ¬P → Along Interns s a

lemma operandOf_known (hv : s.operand? h = some v) : operandOf h s = .ok v s := by
  simp only [operandOf, get_bind_apply, hv]
  rfl

lemma blockOf_known {c : BlockInfo} (hc : s.block? h = some c) : blockOf h s = .ok c s := by
  simp only [blockOf, get_bind_apply, hc]
  rfl

namespace Attempts

variable {f : α → Emit β}

lemma cursor {k : Handle → Emit α} (hP : P) : Attempts P s (cursor >>= k) :=
  ⟨fun _ => ⟨s, k, refl_of Interns s, rfl⟩, fun h => absurd hP h⟩

lemma stop (hP : ¬P) (h : Along Interns s a) : Attempts P s a := ⟨fun h => absurd h hP, fun _ => h⟩

lemma bind {Q : α → Store → Prop} (h : Yields s a fun x s' => Interns s s' ∧ Q x s')
    (hf : ∀ x s', Interns s s' → Q x s' → Attempts P s' (f x)) : Attempts P s (a >>= f) := by
  obtain ⟨x, s1, hx, n1, hQ⟩ := h
  have hrest : (a >>= f) s = f x s1 := by
    change EStateM.bind a f s = _
    rw [EStateM.bind, hx]
  refine ⟨fun hP => ?_, fun hP => ?_⟩
  · obtain ⟨s2, k, n2, hk⟩ := (hf x s1 n1 hQ).reaches hP
    exact ⟨s2, k, trans_of Interns n1 n2, hrest.trans hk⟩
  · have hstop := (hf x s1 n1 hQ).stops hP
    unfold Along at hstop ⊢
    rw [hrest]
    cases hr : f x s1 with
    | ok y s2 =>
      rw [hr] at hstop
      exact ⟨trans_of Interns n1 hstop.1, trivial⟩
    | error e s2 =>
      rw [hr] at hstop
      exact trans_of Interns n1 hstop

lemma known (ha : a s = .ok x s) (hf : Attempts P s (f x)) : Attempts P s (a >>= f) :=
  bind (Q := fun y s' => y = x ∧ s' = s) ⟨x, s, ha, refl_of Interns s, rfl, rfl⟩ fun _ _ _ h => h.1 ▸ h.2 ▸ hf

lemma operandOf {f : Operand → Emit β} (hnone : s.operand? h = none → ¬P)
    (hsome : ∀ v, s.operand? h = some v → Attempts P s (f v)) : Attempts P s (operandOf h >>= f) := by
  cases hv : s.operand? h with
  | none => exact stop (hnone hv) (.bind (operandOf_along h) fun v _ _ hx => by rw [hv] at hx; cases hx.2)
  | some v => exact known (operandOf_known hv) (hsome v hv)

lemma typeOf {f : Ty → Emit β} (hnone : s.type? h = none → ¬P)
    (hsome : ∀ t, s.type? h = some t → Attempts P s (f t)) : Attempts P s (typeOf h >>= f) := by
  cases ht : s.type? h with
  | none => exact stop (hnone ht) (.bind (typeOf_along h) fun t _ _ hx => by rw [ht] at hx; cases hx.2)
  | some t => exact known (typeOf_known ht) (hsome t ht)

lemma blockOf {f : BlockInfo → Emit β} (hnone : s.block? h = none → ¬P)
    (hsome : ∀ c, s.block? h = some c → Attempts P s (f c)) : Attempts P s (blockOf h >>= f) := by
  cases hc : s.block? h with
  | none => exact stop (hnone hc) (.bind (blockOf_along h) fun c _ _ hx => by rw [hc] at hx; cases hx.2)
  | some c => exact known (blockOf_known hc) (hsome c hc)

lemma ite {c : Prop} [Decidable c] {a b : Emit α} (hc : c → ¬P) (ha : c → Along Interns s a)
    (hb : ¬c → Attempts P s b) : Attempts P s (if c then a else b) := by
  by_cases h : c
  · rw [if_pos h]
    exact stop (hc h) (ha h)
  · rw [if_neg h]
    exact hb h

lemma congr (h : Attempts P s a) (hiff : P ↔ P') : Attempts P' s a :=
  ⟨h.reaches ∘ hiff.2, h.stops ∘ mt hiff.1⟩

lemma discard (h : Attempts P s a) : Attempts P s (discard a) := by
  refine ⟨fun hP => ?_, fun hP => discarded (h.stops hP)⟩
  obtain ⟨s', k, n, hk⟩ := h.reaches hP
  refine ⟨s', fun x => k x >>= fun _ => pure (), n, ?_⟩
  rw [← bind_assoc]
  change EStateM.bind a (fun _ => pure ()) s = EStateM.bind (Emit.cursor >>= k) (fun _ => pure ()) s'
  rw [EStateM.bind, EStateM.bind, hk]

end Attempts

lemma attempts_get : Attempts P s (get >>= f) ↔ Attempts P s (f s) :=
  ⟨fun h => ⟨h.reaches, h.stops⟩, fun h => ⟨h.reaches, h.stops⟩⟩

lemma Reaches.refused {c : BlockInfo} (h : Reaches s a) (hactive : s.active = some b)
    (hb : s.block? b = some c) (he : c.ending = some e) :
    ∃ s', Interns s s' ∧ a s = .error (.terminated (describeBlock s b))
      { s' with violations := s'.violations.push ⟨moduleOfBlock s b, describeBlock s b⟩ } := by
  obtain ⟨s', k, n, hk⟩ := h
  have hactive' : s'.active = some b := n.active.trans hactive
  have hb' : s'.block? b = some c := (n.block?_eq b).trans hb
  have hmodule : moduleOfBlock s' b = moduleOfBlock s b := by simp only [moduleOfBlock, n.block?_eq, n.func?_eq]
  have hplace : describeBlock s' b = describeBlock s b := by simp only [describeBlock, n.block?_eq, n.func?_eq]
  refine ⟨s', n, ?_⟩
  rw [hk, ← hmodule, ← hplace]
  change EStateM.bind cursor k s' = _
  conv_lhs => rw [EStateM.bind, cursor, get_bind_apply, hactive']
  dsimp only
  conv_lhs => rw [bind_of_ok (blockOf_known hb'), he]
  rfl

/-! ### The operations -/

lemma load_attempts (ptr) :
    Attempts (∃ p elem, s.operand? ptr = some p ∧ s.tyOf p = .ptr elem) s (load ptr) := by
  refine .operandOf (by simp_all) fun p hp => ?_
  rw [attempts_get]
  cases ht : s.tyOf p with
  | ptr elem => exact .cursor ⟨p, elem, hp, ht⟩
  | _ => exact .stop (by simp [hp, ht]) (refl_of Interns s)

section

variable (hs : s.Coherent)

include hs

lemma ptrVal_attempts (value) :
    Attempts (∃ i e, s.inst? value = some i ∧ i.inst = .alloca e) s (ptrVal value) := by
  refine .operandOf ?_ fun v hv => ?_
  · rintro hnone ⟨i, e, hi, he⟩
    simp [operand?, inst?_eq_some.1 hi, he, Inst.isValue] at hnone
  · cases v
    case inst g =>
      obtain ⟨rfl, i, hi⟩ := operand?_inst hv
      have hfine := hs.entries g
      rw [inst?_eq_some.1 hi] at hfine
      -- The type of a slot is a pointer to what it holds, so the load that follows gets to the cursor.
      have hinst : (s.inst? g).map InstInfo.inst = some i.inst := by rw [hi, Option.map_some]
      rw [attempts_get, hinst]
      cases he : i.inst with
      | alloca e =>
        refine (load_attempts g).congr ⟨fun _ => ⟨i, e, hi, he⟩, fun _ => ⟨.inst g, e, hv, ?_⟩⟩
        simp [tyOf, hi, hfine.2.1 e he]
      | _ => exact .stop (by simp [hi, he]) (.pure trivial)
    all_goals
      refine .stop ?_ (.pure trivial)
      rintro ⟨i, e, hi, he⟩
      simp [operand?, inst?_eq_some.1 hi, he] at hv

lemma binary_attempts (op) (left right : Handle) :
    Attempts (∃ x y, s.operand? left = some x ∧ s.operand? right = some y ∧ s.ownTy x = s.ownTy y) s
      (binary op left right) := by
  refine .operandOf (by simp_all) fun x hx => .operandOf (by simp_all) fun y hy => ?_
  refine .bind (valueType_yields hs left) fun leftType s1 n1 h1 => ?_
  refine .bind (valueType_yields (n1.coherent hs) right) fun rightType s2 n2 h2 => ?_
  rw [hx] at h1
  rw [n1.operand?_eq, hy] at h2
  have hiff := (n2.coherent (n1.coherent hs)).type?_eq_iff (n2.evolves.type? h1) h2
  rw [n1.ownTy_eq] at hiff
  refine .ite (fun hne => ?_) (fun _ => refl_of Interns _) fun heq => ?_
  · rintro ⟨x', y', hx', hy', hty⟩
    cases hx.symm.trans hx'
    cases hy.symm.trans hy'
    exact hne (hiff.2 hty)
  · exact attempts_get.2 (.cursor ⟨x, y, hx, hy, hiff.1 (not_not.1 heq)⟩)

lemma jumpCond_attempts (cond yes no : Handle) :
    Attempts ((∃ c, s.operand? cond = some c ∧ s.ownTy c = .bool) ∧ (∃ c, s.block? yes = some c) ∧
      ∃ c, s.block? no = some c) s (jumpCond cond yes no) := by
  refine .operandOf (by simp_all) fun c hc => ?_
  refine .bind (valueType_yields hs cond) fun type s1 n1 h1 => ?_
  refine .bind (internType_yields (.int .w1) (n1.coherent hs) (.int .w1)) fun bool s2 n2 h2 => ?_
  have n := trans_of Interns n1 n2
  rw [hc] at h1
  have hiff := (n.coherent hs).type?_eq_iff (n2.evolves.type? h1) h2
  refine .ite (fun hne => ?_) (fun _ => refl_of Interns _) fun heq => ?_
  · rintro ⟨⟨c', hc', hty⟩, -⟩
    cases hc.symm.trans hc'
    exact hne (hiff.2 hty)
  · refine .blockOf (fun hnone => ?_) fun b hb => .blockOf (fun hnone => ?_) fun b' hb' => .cursor ?_
    · rw [n.block?_eq] at hnone
      simp [hnone]
    · rw [n.block?_eq] at hnone
      simp [hnone]
    · rw [n.block?_eq] at hb hb'
      exact ⟨⟨c, hc, hiff.1 (not_not.1 heq)⟩, ⟨b, hb⟩, b', hb'⟩

lemma coerce_attempts (htype : type < s.entries.size) :
    Attempts (∃ v t, s.operand? value = some v ∧ s.type? type = some t ∧ s.ownTy v ≠ t) s (coerce value type) := by
  refine .bind (valueType_yields hs value) fun source s1 n h1 => ?_
  have hiff : ∀ {v t}, s.operand? value = some v → s.type? type = some t → (source = type ↔ s.ownTy v = t) := by
    intro v t hv ht
    rw [hv] at h1
    exact (n.coherent hs).type?_eq_iff h1 (n.evolves.type? ht)
  refine .ite (fun heq => ?_) (fun _ => .pure trivial) fun hne => ?_
  · rintro ⟨v, t, hv, ht, hty⟩
    exact hty ((hiff hv ht).1 heq)
  · refine .operandOf (fun hnone => ?_) fun v hv => .typeOf (fun hnone => ?_) fun t ht => attempts_get.2 (.cursor ?_)
    · rw [n.operand?_eq] at hnone
      simp [hnone]
    · rw [n.type?_eq htype] at hnone
      simp [hnone]
    · rw [n.operand?_eq] at hv
      rw [n.type?_eq htype] at ht
      exact ⟨v, t, hv, ht, fun hty => hne ((hiff hv ht).2 hty)⟩

lemma store_attempts (ptr value : Handle) :
    Attempts (∃ p v, s.operand? ptr = some p ∧ s.operand? value = some v ∧ s.tyOf p = .ptr (s.tyOf v)) s
      (store ptr value) := by
  refine .operandOf (by simp_all) fun p hp => .operandOf (by simp_all) fun v hv => ?_
  rw [attempts_get]
  have hadmits := hs.admits_tyOf (hs.grounded hp)
  cases ht : s.tyOf p
  case ptr elem =>
    rw [ht] at hadmits
    refine .bind (internType_yields elem hs hadmits.elem) fun want s1 n1 h1 => ?_
    refine .bind (valueType_yields (n1.coherent hs) value) fun own s2 n2 h2 => ?_
    have n := trans_of Interns n1 n2
    have hs2 := n.coherent hs
    rw [n1.operand?_eq, hv] at h2
    have hwrites : ∀ {got : Handle} {s3 : Store}, Interns s2 s3 → s3.type? got = some (s.tyOf v) →
        (want = got ↔ ∃ p v, s.operand? ptr = some p ∧ s.operand? value = some v ∧ s.tyOf p = .ptr (s.tyOf v)) := by
      intro got s3 n3 hgot
      rw [(n3.coherent hs2).type?_eq_iff (n3.evolves.type? (n2.evolves.type? h1)) hgot]
      constructor
      · rintro rfl
        exact ⟨p, v, hp, hv, ht⟩
      · rintro ⟨p', v', hp', hv', hty⟩
        cases hp.symm.trans hp'
        cases hv.symm.trans hv'
        exact Ty.ptr.inj (ht.symm.trans hty)
    cases v
    case func g =>
      have hv2 : s2.operand? value = some (.func g) := by rw [n.operand?_eq, hv]
      rw [attempts_get]
      refine .bind (internType_yields _ hs2 (hs2.admits_tyOf (hs2.grounded hv2))) fun got s3 n3 h3 => ?_
      rw [n.tyOf_eq] at h3
      refine .ite (fun hne => ?_) (fun _ => refl_of Interns _) fun heq => .cursor ((hwrites n3 h3).1 (not_not.1 heq))
      exact fun hP => hne ((hwrites n3 h3).2 hP)
    all_goals
      have hown := hwrites (refl_of Interns s2) (h2.trans (congrArg some (n1.ownTy_eq _)))
      refine .ite (fun hne => ?_) (fun _ => refl_of Interns _) fun heq => .cursor (hown.1 (not_not.1 heq))
      exact fun hP => hne (hown.2 hP)
  all_goals exact .stop (by simp [hp, ht]) (refl_of Interns s)

end

lemma phiEdges_attempts (incoming : List (Handle × Handle)) : ∀ {s : Store}, s.Coherent →
    type < s.entries.size → ∀ (index) (k : List (Operand × Handle) → Emit Handle),
      (∀ edges, ∃ f, k edges = (cursor >>= f)) →
      Attempts (∀ e ∈ incoming, s.EdgeFits type e) s (phiEdges type index incoming >>= k) := by
  induction incoming with
  | nil =>
    intro s _ _ index k hk
    obtain ⟨f, hf⟩ := hk []
    rw [phiEdges, pure_bind, hf]
    exact .cursor (by simp)
  | cons edge rest ih =>
    intro s hs htype index k hk
    obtain ⟨value, pred⟩ := edge
    rw [phiEdges, bind_assoc]
    refine .bind (valueType_yields hs value) fun got s1 n h1 => ?_
    have hs1 := n.coherent hs
    have hfits : ∀ e, s1.EdgeFits type e ↔ s.EdgeFits type e := fun e => by
      simp only [EdgeFits, n.operand?_eq, n.block?_eq, n.ownTy_eq, n.type?_eq htype]
    refine .congr (P := ∀ e ∈ (value, pred) :: rest, s1.EdgeFits type e) ?_ (by simp only [hfits])
    -- The edge has the type asked for if the handles are the same, since each type has one.
    by_cases heq : got = type
    · rw [if_neg (not_not.2 heq), bind_assoc]
      refine .operandOf (fun hnone => by simp [EdgeFits, hnone]) fun v hv => ?_
      rw [n.operand?_eq] at hv
      rw [hv] at h1
      rw [bind_assoc]
      refine .blockOf (fun hnone => by simp [EdgeFits, hnone]) fun c hc => ?_
      rw [bind_assoc]
      refine (ih hs1 (Nat.lt_of_lt_of_le htype n.size_le) (index + 1) _ fun edges => ?_).congr ?_
      · exact hk _
      · have hhead : s1.EdgeFits type (value, pred) := by
          refine ⟨⟨v, by rw [n.operand?_eq, hv], ?_⟩, c, hc⟩
          rw [← heq, h1, n.ownTy_eq]
        simp [hhead]
    · rw [if_pos heq]
      refine .stop (fun hP => ?_) (refl_of Interns s1)
      obtain ⟨⟨v, hv, ht⟩, -⟩ := hP (value, pred) (by simp)
      have hv' : s.operand? value = some v := (n.operand?_eq value).symm.trans hv
      rw [hv'] at h1
      rw [n.ownTy_eq] at ht
      exact heq (hs1.type?_inj h1 ht)

end Emit

namespace Store

variable {B : Handle → Prop} {s s' : Store}

/-- Nothing that a module holds differs. -/
structure SameCode (s s' : Store) : Prop where
  modules : ∀ h, s'.module? h = s.module? h
  structs : ∀ h, s'.struct? h = s.struct? h
  funcs : ∀ h, s'.func? h = s.func? h
  blocks : ∀ h, s'.block? h = s.block? h
  insts : ∀ h, s'.inst? h = s.inst? h
  operands : ∀ h, s'.operand? h = s.operand? h

lemma Interns.sameCode (n : Interns s s') (violations) : s.SameCode { s' with violations } :=
  ⟨n.module?_eq, n.struct?_eq, n.func?_eq, n.block?_eq, n.inst?_eq, n.operand?_eq⟩

lemma SameCode.verdict_eq (c : s.SameCode s')
    (hviolations : s'.violations.toList.filter (·.module = m) = s.violations.toList.filter (·.module = m)) :
    verdict s' m = verdict s m := by
  have hfunc : s'.func? = s.func? := funext c.funcs
  have hopen : s'.openBlocks = s.openBlocks := by
    funext f
    simp only [openBlocks, c.blocks]
  have hdefects : s'.defects m = s.defects m := by
    funext info
    rw [defects, defects, hfunc, hopen, hviolations]
  rw [verdict, verdict, c.modules, hdefects]

/-- A module that verification turns down, so that it can be neither run nor written out. What was recorded
against it has no part in the verdicts on other modules. -/
structure Spoiled (s : Store) (m : Handle) : Prop where
  verify : ∃ problem, Build.Act.verdict s m = some problem
  run : ∀ maxSteps, ∃ f, (Run.program s m maxSteps).1 = .error f
  emit : ∀ {σ : Type} (w : Build.World σ), w.store = s → ∃ problem, Build.Act.emitFile m w = .ok (.error problem) w
  others : ∀ k, k ≠ m → Build.Act.verdict { s with violations := s.violations.filter (·.module ≠ m) } k =
    Build.Act.verdict s k

lemma spoiled_of_violation (hv : v ∈ s.violations) : s.Spoiled v.module := by
  have hdefects : ∀ info, s.defects v.module info ≠ [] := by
    intro info hnil
    have hmem : Defect.violation v ∈ s.defects v.module info :=
      List.mem_append_right _ (List.mem_map_of_mem (List.mem_filter.2 ⟨Array.mem_toList_iff.2 hv, by simp⟩))
    rw [hnil] at hmem
    cases hmem
  have hverify : ∃ problem, verdict s v.module = some problem := by
    unfold verdict
    cases s.module? v.module with
    | none => exact ⟨_, rfl⟩
    | some info =>
      dsimp only
      by_cases hd : info.dropped
      · exact ⟨_, if_pos hd⟩
      · rw [if_neg hd, if_neg (by simpa using hdefects info)]
        exact ⟨_, rfl⟩
  refine ⟨hverify, fun maxSteps => ?_, fun w hw => ?_, fun k hk => ?_⟩
  · unfold Run.program
    cases s.module? v.module with
    | none => exact ⟨_, rfl⟩
    | some info =>
      dsimp only
      by_cases hd : info.dropped
      · rw [if_pos hd]
        exact ⟨_, rfl⟩
      · rw [if_neg hd, if_pos (by simpa using hdefects info)]
        exact ⟨_, rfl⟩
  · obtain ⟨problem, hproblem⟩ := hverify
    refine ⟨problem, ?_⟩
    unfold emitFile
    rw [Build.Act.store, bind_assoc, get_bind_apply]
    simp only [pure_bind, hw, hproblem]
    rfl
  · refine SameCode.verdict_eq
      ⟨fun _ => rfl, fun _ => rfl, fun _ => rfl, fun _ => rfl, fun _ => rfl, fun _ => rfl⟩ ?_
    simp only [Array.toList_filter, List.filter_filter]
    refine List.filter_congr fun u _ => ?_
    by_cases hu : u.module = k <;> simp [hu, hk]

end Store

namespace Command

variable {s : Store}

def Emits : Command → Prop
  | .alloc .. | .load .. | .store .. | .bitcast .. | .coerce .. | .ptrVal .. | .unary .. | .binary .. | .jump ..
  | .jumpCond .. | .phi .. | .call .. | .ret .. => True
  | _ => False

/-- The type that an operation is given has a handle by now; it could be the one that is given out next. -/
def Issued (s : Store) : Command → Prop
  | .coerce _ type | .phi type _ => type < s.entries.size
  | _ => True

def Admissible (s : Store) : Command → Prop
  | .alloc type _ => ∃ t, s.type? type = some t ∧ t ≠ .void ∧ t ≠ .label
  | .load ptr => ∃ p elem, s.operand? ptr = some p ∧ s.tyOf p = .ptr elem
  | .store ptr value => ∃ p v, s.operand? ptr = some p ∧ s.operand? value = some v ∧ s.tyOf p = .ptr (s.tyOf v)
  | .bitcast value type => (∃ v, s.operand? value = some v) ∧ ∃ t, s.type? type = some t
  | .coerce value type => ∃ v t, s.operand? value = some v ∧ s.type? type = some t ∧ s.ownTy v ≠ t
  | .ptrVal value => ∃ i e, s.inst? value = some i ∧ i.inst = .alloca e
  | .unary _ value => ∃ v, s.operand? value = some v
  | .binary _ left right => ∃ x y, s.operand? left = some x ∧ s.operand? right = some y ∧ s.ownTy x = s.ownTy y
  | .jump target => ∃ c, s.block? target = some c
  | .jumpCond cond yes no => (∃ c, s.operand? cond = some c ∧ s.ownTy c = .bool) ∧ (∃ c, s.block? yes = some c) ∧
      ∃ c, s.block? no = some c
  | .phi type incoming => incoming ≠ [] ∧ ∀ e ∈ incoming, s.EdgeFits type e
  | .call f _ => ∃ v, s.operand? f = some v
  | .ret _ => True
  | _ => False

lemma attempts (hs : s.Coherent) (hc : c.Emits) (hi : c.Issued s) : Emit.Attempts (c.Admissible s) s c.perform := by
  cases c with
  | alloc type name =>
    refine .discard (.typeOf (by simp_all [Admissible]) fun t ht => ?_)
    cases t with
    | void | label => exact .stop (by simp [Admissible, ht]) .throw
    | _ => exact .cursor ⟨_, ht, by simp, by simp⟩
  | load ptr => exact (load_attempts ptr).discard
  | store ptr value => exact (store_attempts hs ptr value).discard
  | bitcast value type =>
    refine .discard (.operandOf (by simp_all [Admissible]) fun v hv => .typeOf (by simp_all [Admissible]) fun t ht => ?_)
    exact .cursor ⟨⟨v, hv⟩, t, ht⟩
  | coerce value type => exact (coerce_attempts hs hi).discard
  | ptrVal value => exact (ptrVal_attempts hs value).discard
  | unary op value =>
    refine .discard (.operandOf (by simp_all [Admissible]) fun v hv => .bind (valueType_yields hs value) ?_)
    exact fun type s1 _ _ => attempts_get.2 (.cursor ⟨v, hv⟩)
  | binary op left right => exact (binary_attempts hs op left right).discard
  | jump target => exact .discard (.blockOf (by simp_all [Admissible]) fun c hc => .cursor ⟨c, hc⟩)
  | jumpCond cond yes no => exact (jumpCond_attempts hs cond yes no).discard
  | phi type incoming =>
    refine .discard (.ite (fun hempty => ?_) (fun _ => .throw) fun hne => ?_)
    · simp [Admissible, List.isEmpty_iff.1 hempty]
    · rw [List.isEmpty_iff] at hne
      exact (phiEdges_attempts incoming hs hi 0 _ fun _ => ⟨_, rfl⟩).congr (by simp [Admissible, hne])
  | call f args => exact .discard (.operandOf (by simp_all [Admissible]) fun v hv => .cursor ⟨v, hv⟩)
  | ret value => exact .discard (.cursor trivial)
  | _ => exact hc.elim

lemma Admissible.emits (h : c.Admissible s) : c.Emits := by
  cases c <;> first | exact trivial | exact h.elim

lemma Admissible.issued (h : c.Admissible s) : c.Issued s := by
  cases c with
  | coerce value type =>
    obtain ⟨-, t, -, ht, -⟩ := h
    exact lt_size_of_type? ht
  | phi type incoming =>
    obtain ⟨e, he⟩ := List.exists_mem_of_ne_nil _ h.1
    obtain ⟨⟨v, -, ht⟩, -⟩ := h.2 e he
    exact lt_size_of_type? ht
  | _ => trivial

/-- An operation is turned down because block `b` has ended, and that is remembered for good. -/
structure Refused (c : Command) (s : Store) (b : Handle) (s' : Store) : Prop where
  error : c.perform s = .error (.terminated (Emit.describeBlock s b)) s'
  recorded : s'.violations = s.violations.push ⟨Emit.moduleOfBlock s b, Emit.describeBlock s b⟩
  code : s.SameCode s'
  others : ∀ m, m ≠ Emit.moduleOfBlock s b → Build.Act.verdict s' m = Build.Act.verdict s m
  spoiled : ∀ ds, (run s' ds).Spoiled (Emit.moduleOfBlock s b)

lemma Admissible.refused (hs : s.Coherent)
    (h : c.Admissible s) (hactive : s.active = some b) (hb : s.block? b = some B) (he : B.ending = some e) :
    ∃ s', c.Refused s b s' := by
  obtain ⟨s', n, herror⟩ := ((attempts hs h.emits h.issued).reaches h).refused hactive hb he
  refine ⟨_, herror, ?_, n.sameCode _, fun m hm => ?_, fun ds => ?_⟩
  · rw [n.violations]
  · refine (n.sameCode _).verdict_eq ?_
    simp [n.violations, hm.symm]
  -- Violations are only ever added, so this one is there in every later state.
  · have hlater := (run_moves ds ((n.coherent hs).violate ⟨moduleOfBlock s b, describeBlock s b⟩)).violations
    exact spoiled_of_violation (v := ⟨moduleOfBlock s b, describeBlock s b⟩)
      (Array.mem_toList_iff.1 (hlater.subset (by simp)))

lemma step_of_not_admissible (hs : s.Coherent) (hc : c.Emits) (hi : c.Issued s)
    (h : ¬c.Admissible s) : Interns s (step s c) :=
  ((attempts hs hc hi).stops h).endState

end Command

/-- A block that has ended. What it holds stays, whatever is done next; what would be appended to it is turned
down, or does not get that far. -/
structure Store.Frozen (s : Store) (b : Handle) (B : BlockInfo) : Prop where
  block : ∀ ds, ∃ B', (Command.run s ds).block? b = some B' ∧ B'.func = B.func ∧ B'.insts = B.insts ∧ B'.ending = B.ending
  insts : ∀ ds i I, i ∈ B.insts → s.inst? i = some I → ∃ I', (Command.run s ds).inst? i = some I' ∧
    I'.inst = I.inst ∧ I'.ty = I.ty ∧ I'.block = I.block
  refused : ∀ ds (c : Command), (Command.run s ds).active = some b → c.Admissible (Command.run s ds) →
    ∃ s', c.Refused (Command.run s ds) b s'
  dismissed : ∀ ds (c : Command), c.Emits → c.Issued (Command.run s ds) → ¬c.Admissible (Command.run s ds) →
    (Command.run s ds).SameCode (Command.run s (ds ++ [c])) ∧
      (Command.run s (ds ++ [c])).violations = (Command.run s ds).violations

theorem terminated_frozen (cs : List Command) {b : Handle} {B : BlockInfo} {e : Ending}
    (hb : (Command.run .initial cs).block? b = some B) (he : B.ending = some e) :
    (Command.run .initial cs).Frozen b B := by
  have hs := Command.run_coherent cs
  have hblock : ∀ ds, ∃ B', (Command.run (Command.run .initial cs) ds).block? b = some B' ∧ B'.func = B.func ∧
      B'.insts = B.insts ∧ B'.ending = some e := by
    intro ds
    obtain ⟨B', hB', hle⟩ := (Command.run_moves ds hs).block (block?_eq_some.1 hb)
    obtain ⟨hending, hinsts⟩ := hle.ending e he
    exact ⟨B', block?_eq_some.2 hB', hle.func, hinsts, hending⟩
  refine ⟨he ▸ hblock, fun ds i I _ hI => ?_, fun ds c hactive hc => ?_, fun ds c hc hi hnot => ?_⟩
  · obtain ⟨I', hI', hle⟩ := (Command.run_moves ds hs).inst (inst?_eq_some.1 hI)
    exact ⟨I', inst?_eq_some.2 hI', hle.inst, hle.ty, hle.block⟩
  · obtain ⟨B', hB', -, -, he'⟩ := hblock ds
    exact hc.refused ((Command.run_moves ds hs).coherent hs) hactive hB' he'
  · have n := Command.step_of_not_admissible ((Command.run_moves ds hs).coherent hs) hc hi hnot
    rw [Command.run_append]
    exact ⟨n.sameCode _, n.violations⟩

def idleSession : List Command :=
  [.makeModule [109, 97, 105, 110], .func 4 [] false, .declareFunc 11 [109, 97, 105, 110] 12, .createBlock 13 [101],
    .setActiveBlock 14, .jump 14]

lemma run_idleSession : run .initial idleSession = Run.idleStore := by
  have hfunc := Run.func_new (s := Run.idleStart) (h := 4) rfl (Run.initial_types_func _ _ _)
  have hstep : step Run.idleStart (.func 4 [] false) = { Run.idleStart with
      entries := Run.idleStart.entries.push (.type (.func .i32 [] false)),
      types := Run.idleStart.types.insert (TypeKey.func 4 [] false).text Run.idleStart.entries.size } := by
    simp only [step, endState, perform, Functor.discard, Functor.mapConst, EStateM.map, Function.comp, hfunc]
  change ([.declareFunc 11 [109, 97, 105, 110] 12, .createBlock 13 [101], .setActiveBlock 14, .jump 14].foldl
    step (step Run.idleStart (.func 4 [] false))) = _
  rw [hstep]
  rfl

theorem idle_frozen : (Command.run .initial idleSession).block? 14 =
      some { ident := { name := [101] }, func := 13, ending := some ⟨15, .br 14⟩ } ∧
    ∃ s', (Command.ret noHandle).Refused (Command.run .initial idleSession) 14 s' := by
  have hb : (Command.run .initial idleSession).block? 14 =
      some { ident := { name := [101] }, func := 13, ending := some ⟨15, .br 14⟩ } := by
    rw [run_idleSession]
    rfl
  have hactive : (Command.run .initial idleSession).active = some 14 := by
    rw [run_idleSession]
    rfl
  exact ⟨hb, (terminated_frozen idleSession hb rfl).refused [] (.ret noHandle) hactive trivial⟩

end Arbor.IR
