import Arbor.Proofs.Composed
import Arbor.Proofs.Names

/-! Lowering leaves a module in the scope that it found it in, with the targets of `break` and `continue` that it
found, however it ends: with a fault, at an absent node or at a type that has no end. No statement takes anything of
the world for granted, so the parts of a statement may be any actions that do the same. -/

set_option synthInstance.maxSize 20000

namespace Arbor.Build

open IR Diag Proofs

variable {σ α β : Type} {k m : Handle} {w : World σ} {M N : Module}

/-- Each scope has the parent that it had. -/
def Scopes.Rooted (D D' : Scopes) : Prop := ∀ id sc, D.get? id = some sc →
  ∃ sc', D'.get? id = some sc' ∧ sc'.parent = sc.parent

lemma Scopes.Rooted.trans {D D₁ D' : Scopes} (h : D.Rooted D₁) (h' : D₁.Rooted D') : D.Rooted D' := fun id sc hsc => by
  obtain ⟨sc₁, hsc₁, hp₁⟩ := h id sc hsc
  obtain ⟨sc', hsc', hp'⟩ := h' id sc₁ hsc₁
  exact ⟨sc', hsc', hp'.trans hp₁⟩

/-- The module is in the scope that `M` is in and has the targets of `M`. -/
def Back (m : Handle) (M : Module) (w : World σ) : Prop :=
  ∃ M', w.modules[m]? = some M' ∧ M'.current = M.current ∧ M'.loop = M.loop ∧ M.scopes.Rooted M'.scopes

lemma Back.refl (hM : w.modules[m]? = some M) : Back m M w := ⟨M, hM, rfl, rfl, fun _ sc h => ⟨sc, h, rfl⟩⟩

lemma Back.update {f : Module → Module} (hM : w.modules[m]? = some M)
    (h : ∀ M', w.modules[k]? = some M' → (f M').current = M'.current ∧ (f M').loop = M'.loop ∧
      M'.scopes.Rooted (f M').scopes) : Back m M { w with modules := w.modules.modify k f } := by
  refine ⟨_, (modify_at m).trans (congrArg _ hM), ?_⟩
  split
  · next heq => exact h M (heq ▸ hM)
  · exact ⟨rfl, rfl, fun _ sc h => ⟨sc, h, rfl⟩⟩

def SameModules (w w' : World σ) : Prop := w'.modules = w.modules

instance : IsPreorder (World σ) SameModules where
  refl _ := rfl
  trans _ _ _ h h' := h'.trans h

namespace Act

/-- However the action ends, a module that was in one of its scopes, with targets of `S`, is there again and has the
same targets. -/
def Restores (m : Handle) (S : Option LoopTargets → Prop) {α : Type} (a : Act σ α) : Prop :=
  ∀ w M sc, w.modules[m]? = some M → M.scopes.get? M.current = some sc → S M.loop →
    Obeys w a (fun _ => Back m M) fun _ => Back m M

variable {S : Option LoopTargets → Prop} {a : Act σ α} {sc : Scope} {Q E : World σ → Prop}

lemma Restores.mono {T : Option LoopTargets → Prop} (h : Restores m T a) (hST : ∀ l, S l → T l) : Restores m S a :=
  fun w M sc hM hsc hS => h w M sc hM hsc (hST _ hS)

lemma Restores.keeps (h : Restores m S a) (hsc : M.scopes.get? M.current = some sc) (hS : S M.loop) (hw : Back m M w) :
    Obeys w a (fun _ => Back m M) fun _ => Back m M := by
  obtain ⟨M', hM', hcur, hloop, hroot⟩ := hw
  obtain ⟨sc', hsc', -⟩ := hroot _ sc hsc
  have htrans (w' : World σ) : Back m M' w' → Back m M w' := by
    rintro ⟨M'', hM'', hcur', hloop', hroot'⟩
    exact ⟨M'', hM'', hcur'.trans hcur, hloop'.trans hloop, hroot.trans hroot'⟩
  exact (h w M' sc' hM' (hcur ▸ hsc') (hloop ▸ hS)).imp (fun _ w' _ => htrans w') fun _ w' => htrans w'

lemma Restores.of_modules (h : ∀ w, Along SameModules w a) : Restores m S a :=
  fun w _ _ hM _ _ => Obeys.imp (h w) (fun _ _ _ hw => .refl (hw.1 ▸ hM)) fun _ _ hw => .refl (hw ▸ hM)

lemma rescope_restores (id : ScopeId) (name : Text) (t : Option TypeId) (v : Option ValueId) :
    Restores m S (rescope k fun s => s.addValue id name t v : Act σ Unit) := by
  intro w M _ hM _ _
  have hlook : Obeys w (module k) (fun M' w' => w' = w ∧ w.modules[k]? = some M') fun _ w' => Back m M w' :=
    Obeys.imp (module_along (R := Eq) k) (fun _ _ _ h => h.2) fun _ _ h => h ▸ .refl hM
  refine .bind hlook ?_
  rintro K w' ⟨rfl, hK⟩
  dsimp only
  cases hD : K.scopes.addValue id name t v with
  | error e => exact .refl hM
  | ok D =>
    refine Back.update hM fun K' hK' => ⟨rfl, rfl, fun id' sc' hid => ?_⟩
    cases Option.mem_unique hK hK'
    obtain ⟨sc, hsc, -, rfl⟩ := addValue_ok hD
    dsimp only
    rw [Scopes.get?_set (Scopes.get?_eq_some.1 hsc).1 (Scopes.get?_lt hsc)]
    split
    · next heq =>
      cases heq
      cases Option.mem_unique hsc hid
      exact ⟨_, rfl, rfl⟩
    · exact ⟨sc', hid, rfl⟩

lemma attempt_keeps (h : Obeys w a (fun _ => Q) fun _ => Q) : Obeys w (attempt a) (fun _ => Q) fun _ => Q :=
  (attempt_obeys h).imp (fun _ _ _ h => h.elim (fun ⟨_, _, h⟩ => h) fun ⟨_, _, h⟩ => h) fun _ _ h => h.1

instance : Closed (@Restores σ m S) where
  pure _ _ _ _ hM _ _ := .refl hM
  bind ha hf w M sc hM hsc hS := .bind (ha w M sc hM hsc hS) fun x w' hw => (hf x).keeps hsc hS hw
  throw _ := ⟨fun _ _ _ hM _ _ => .refl hM⟩
  attempt _ := ⟨fun w M sc hM hsc hS => attempt_keeps (Has.out (P := @Restores σ m S) w M sc hM hsc hS)⟩
  module _ := ⟨.of_modules fun w => (need_along _).mono fun _ _ _ _ => trivial⟩
  store := ⟨.of_modules fun _ => ⟨rfl, trivial⟩⟩
  emit _ := ⟨.of_modules fun w => .modifyGet (by dsimp only; split <;> rfl) trivial⟩
  note h := ⟨fun _ _ _ hM _ _ => .update hM fun M' _ =>
    ⟨(h M').2.1, (h M').2.2, fun _ sc hsc => ⟨sc, (h M').1 ▸ hsc, rfl⟩⟩⟩
  report _ _ := ⟨.of_modules fun w => .look (module_along _) fun _ _ => ⟨rfl, trivial⟩⟩
  define _ _ _ _ _ := ⟨rescope_restores _ _ _ _⟩

lemma update_obeys {f : Module → Module} {E : Failure → World σ → Prop}
    (h : Q { w with modules := w.modules.modify m f }) : Obeys w (update m f) (fun _ => Q) E := h

lemma pushScope_enters (hM : w.modules[m]? = some M) (hsc : M.scopes.get? M.current = some sc) :
    ∃ N scN, N.scopes.get? N.current = some scN ∧ scN.parent = M.current ∧ N.loop = M.loop ∧ M.scopes.Rooted N.scopes ∧
      ∀ E, Obeys w (pushScope m none) (fun _ => Back m N) E := by
  obtain ⟨D, hD, -, hnew, hold⟩ := Scopes.addChild_get? none hsc
  refine ⟨{ M with scopes := D, current := M.scopes.data.size }, _, hnew, rfl, rfl, fun id sc' hid => ?_, fun E => ?_⟩
  · obtain ⟨sc₁, hsc₁, hp, -⟩ := Scopes.addChild_same hsc hold hid
    exact ⟨sc₁, hsc₁, hp⟩
  · refine .bind (module_known hM) ?_
    rintro _ w' ⟨rfl, rfl⟩
    simp only [hD]
    exact Back.refl (by rw [Std.HashMap.getElem?_modify_self, hM, Option.map_some])

lemma back_setLoop {l : Option LoopTargets} (hw : Back m N w) :
    Back m { N with loop := l } { w with modules := w.modules.modify m fun i => { i with loop := l } } := by
  obtain ⟨K, hK, hcur, -, hroot⟩ := hw
  exact ⟨{ K with loop := l }, by rw [Std.HashMap.getElem?_modify_self, hK, Option.map_some], hcur, rfl, hroot⟩

def Left (m : Handle) (N : Module) (w : World σ) : Prop := ∃ l, Back m { N with loop := l } w

lemma popScope_back (hsc : M.scopes.get? M.current = some sc) (hN : N.scopes.get? N.current = some scN)
    (hp : scN.parent = M.current) (hroot : M.scopes.Rooted N.scopes) (hloop : N.loop = M.loop) (hw : Back m N w) (E : Failure → World σ → Prop) :
    Obeys w (popScope m) (fun _ => Back m M) E := by
  obtain ⟨K, hK, hcur, hloop', hroot'⟩ := hw
  obtain ⟨sc', hsc', hp'⟩ := hroot' _ scN hN
  have hparent : K.scopes.parent K.current = M.current := by
    rw [hcur, Scopes.parent, hsc', Option.elim_some, hp', hp]
  refine .bind (module_known hK) ?_
  rintro K' w' ⟨hw, hK'⟩
  subst hw hK'
  dsimp only
  rw [hparent, if_neg (Scopes.get?_eq_some.1 hsc).1]
  refine ⟨{ K' with current := M.current }, ?_, rfl, hloop'.trans hloop, hroot.trans hroot'⟩
  rw [Std.HashMap.getElem?_modify_self, hK, Option.map_some]

lemma ensuring_leaves {after : Act σ Unit} (h : Obeys w a (fun _ => Q) fun _ => Q)
    (hafter : ∀ w', Q w' → ∀ E, Obeys w' after (fun _ => Back m M) E) :
    Obeys w (ensuring a after) (fun _ => Back m M) fun _ => Back m M := by
  exact ensuring_obeys h (fun _ w' hw => attempt_keeps (hafter w' hw _)) fun _ w' hw => hafter w' hw _

lemma ensuring_congr {b : Act σ α} {after : Act σ Unit} (h : a w = b w) : ensuring a after w = ensuring b after w := by
  have htry (k : Failure → Act σ α) : tryCatch a k w = tryCatch b k w := by rw [tryCatch_apply, tryCatch_apply, h]
  change EStateM.bind _ _ w = EStateM.bind _ _ w
  unfold EStateM.bind
  rw [htry]

lemma block_restores {body : Option (Act σ Unit)} [HasPart (@Restores σ m S) body] :
    Restores m S (stmtBlock m body) := by
  intro w M sc hM hsc hS
  have hrun := Has.out (P := @Restores σ m S) (a := runOptional body)
  obtain ⟨N, scN, hN, hp, hloop, hroot, hpush⟩ := pushScope_enters hM hsc
  exact .bind (hpush _) fun _ w₁ hw₁ => ensuring_leaves (hrun.keeps hN (hloop ▸ hS) hw₁) fun w₂ hw₂ =>
    popScope_back hsc hN hp hroot hloop hw₂

/-- The two actions do the same and end where `Q` holds, or where `E` does if they fail. -/
def Matches (w : World σ) (a b : Act σ α) (Q E : World σ → Prop) : Prop :=
  a w = b w ∧ Obeys w a (fun _ => Q) fun _ => E

lemma Matches.bind {a b : Act σ α} {f g : α → Act σ β} {P : α → World σ → Prop} (heq : a w = b w)
    (h : Obeys w a P fun _ => E) (hf : ∀ x w', P x w' → Matches w' (f x) (g x) Q E) :
    Matches w (a >>= f) (b >>= g) Q E := by
  refine ⟨?_, .bind h fun x w' hP => (hf x w' hP).2⟩
  change EStateM.bind a f w = EStateM.bind b g w
  unfold Obeys at h
  unfold EStateM.bind
  rw [← heq]
  cases hx : a w with
  | ok x w' =>
    rw [hx] at h
    exact (hf x w' h).1
  | error e w' => rfl

lemma Matches.mono {a b : Act σ α} {P : World σ → Prop} (h : Matches w a b P P) (hPQ : ∀ w', P w' → Q w') :
    Matches w a b Q Q := ⟨h.1, h.2.imp (fun _ w' _ => hPQ w') fun _ => hPQ⟩

lemma Matches.of_eq {a b c : Act σ α} (h : Matches w b c Q E) (heq : a w = b w) : Matches w a c Q E :=
  ⟨heq.trans h.1, by unfold Obeys; rw [heq]; exact h.2⟩

def RestoresAs (m : Handle) (S : Option LoopTargets → Prop) {α : Type} (a b : Act σ α) : Prop :=
  ∀ w M sc, w.modules[m]? = some M → M.scopes.get? M.current = some sc → S M.loop → Matches w a b (Back m M) (Back m M)

lemma RestoresAs.restores {b : Act σ α} (h : RestoresAs m S a b) : Restores m S a :=
  fun w M sc hM hsc hS => (h w M sc hM hsc hS).2

lemma Restores.self (h : Restores m S a) : RestoresAs m S a a := fun w M sc hM hsc hS => ⟨rfl, h w M sc hM hsc hS⟩

lemma RestoresAs.of_has [h : Has (@Restores σ m S) a] : RestoresAs m S a a := h.out.self

lemma RestoresAs.keeps {b : Act σ α} (h : RestoresAs m S a b) (hsc : M.scopes.get? M.current = some sc) (hS : S M.loop)
    (hw : Back m M w) : Matches w a b (Back m M) (Back m M) := by
  refine ⟨?_, h.restores.keeps hsc hS hw⟩
  obtain ⟨M', hM', hcur, hloop, hroot⟩ := hw
  obtain ⟨sc', hsc', -⟩ := hroot _ sc hsc
  exact (h w M' sc' hM' (hcur ▸ hsc') (hloop ▸ hS)).1

lemma RestoresAs.bind {a b : Act σ α} {f g : α → Act σ β} (ha : RestoresAs m S a b)
    (hf : ∀ x, RestoresAs m S (f x) (g x)) : RestoresAs m S (a >>= f) (b >>= g) := fun w M sc hM hsc hS =>
  have h := ha w M sc hM hsc hS
  .bind h.1 h.2 fun x _ hw => (hf x).keeps hsc hS hw

lemma loop_restores {outer : Option LoopTargets} {init init' : Option (Act σ Unit)}
    {cond cond' : Option (Act σ (Option ValueId))} {step step' body body' : LoopTargets → Option (Act σ Unit)}
    (hinit : Option.Rel (RestoresAs m (· = outer)) init init')
    (hcond : Option.Rel (RestoresAs m (· = outer)) cond cond')
    (hstep : ∀ own, Option.Rel (RestoresAs m (· = some own)) (step own) (step' own))
    (hbody : ∀ own, Option.Rel (RestoresAs m (· = some own)) (body own) (body' own)) :
    RestoresAs m (· = outer) (stmtLoopWith m init cond step body) (stmtLoopWith m init' cond' step' body') := by
  have hpart {S : Option LoopTargets → Prop} {s s' : Option (Act σ Unit)} (h : Option.Rel (RestoresAs m S) s s') :
      RestoresAs m S (runOptional s) (runOptional s') := by
    cases h with
    | some h => exact h
    | none => exact .of_has
  intro w M sc hM hsc hS
  obtain ⟨N, scN, hN, hp, hloop, hroot, hpush⟩ := pushScope_enters hM hsc
  -- Up to the condition the targets are those from around the loop.
  have hfirst {α : Type} {a b : Act σ α} {f g : α → Act σ Unit} {w : World σ} (h : RestoresAs m (· = outer) a b)
      (hw : Back m N w) (hf : ∀ x w', Back m N w' → Matches w' (f x) (g x) (Left m N) (Left m N)) :
      Matches w (a >>= f) (b >>= g) (Left m N) (Left m N) :=
    have h := h.keeps hN (hloop.trans hS) hw
    .bind h.1 (h.2.imp (fun _ _ _ => id) fun _ _ h => ⟨N.loop, h⟩) hf
  -- What is repeated finds the loop's own targets and leaves them.
  have hrest (own : LoopTargets) (start again : BlockId) (w : World σ) (hw : Back m N w) :
      Matches w (repeating m own start again step body) (repeating m own start again step' body') (Left m N) (Left m N) := by
    refine .bind (P := fun _ => Back m { N with loop := some own }) rfl (back_setLoop hw) fun _ w' hw' => ?_
    refine Matches.mono (RestoresAs.keeps (M := { N with loop := some own }) (S := (· = some own)) ?_ hN rfl hw')
      fun _ h => ⟨_, h⟩
    exact .bind .of_has fun _ => (hpart (hbody own)).bind fun _ => .bind .of_has fun _ =>
      .bind .of_has fun _ => (hpart (hstep own)).bind fun _ => .of_has
  have hwith (w : World σ) (hw : Back m N w) :
      Matches w (loopWith m init cond step body) (loopWith m init' cond' step' body') (Left m N) (Left m N) := by
    refine hfirst (hpart hinit) hw fun _ _ hw => hfirst .of_has hw fun _ _ hw => hfirst .of_has hw fun _ _ hw => ?_
    refine hfirst .of_has hw fun _ _ hw => hfirst .of_has hw fun _ _ hw => hfirst .of_has hw fun _ _ hw => ?_
    refine hfirst .of_has hw fun _ _ hw => ?_
    cases hcond with
    | none => exact hfirst .of_has hw fun _ _ hw => hrest _ _ _ _ hw
    | some h =>
      refine hfirst (.bind (.bind h fun r => ?_) fun _ => .of_has) hw fun _ _ hw => ?_
      · cases r <;> exact .of_has
      · exact hfirst .of_has hw fun _ _ hw => hrest _ _ _ _ hw
  refine .bind rfl (hpush _) fun _ w₁ hw₁ => ?_
  obtain ⟨K, hK, hcur, hloop', hroot'⟩ := hw₁
  refine .bind rfl (module_known hK) ?_
  rintro _ w₁ ⟨rfl, rfl⟩
  have h := hwith w₁ ⟨_, hK, hcur, hloop', hroot'⟩
  refine ⟨ensuring_congr h.1, ensuring_leaves h.2 fun w₂ ⟨l, hw₂⟩ E => ?_⟩
  refine .bind (update_obeys (Q := Back m N) ?_) fun _ w₃ hw₃ => popScope_back hsc hN hp hroot hloop hw₃ E
  rw [hloop']
  exact back_setLoop (N := { N with loop := l }) hw₂

/-- An action that is done only where `P` holds. -/
noncomputable def asserting (P : World σ → Prop) (a : Act σ α) : Act σ α := open Classical in do
  if P (← get) then a else throw .missing

lemma asserting_eq {P : World σ → Prop} (h : P w) : asserting P a w = a w := by
  unfold asserting
  rw [get_bind_apply, if_pos h]

/-- Some block ends with a test that leads to `yes` if it holds and to `no` if it does not. -/
def Tests (s : Store) (yes no : Handle) : Prop :=
  ∃ p b e c, s.block? p = some b ∧ b.ending = some e ∧ e.terminator = .condBr c yes no

/-- A test leads to the active block or to `leave`. -/
def Tested (leave : BlockId) (w : World σ) : Prop := ∃ a, w.store.active = some a ∧ Tests w.store a leave.handle

instance : Lenient (σ := σ) ⊤ where
  refl _ := trivial
  trans _ _ _ _ _ := trivial
  of_silent _ := trivial

instance : IsPreorder Store ⊤ where
  refl _ := trivial
  trans _ _ _ _ _ := trivial

lemma along_top {ε τ α : Type} {s : τ} (a : EStateM ε τ α) : Along ⊤ s a := by
  unfold Along
  split <;> trivial

lemma of_top {P : α → World σ → Prop} (h : Along ⊤ w a P) : Obeys w a P fun _ _ => True :=
  Obeys.imp h (fun _ _ _ h => h.2) fun _ _ _ => trivial

lemma backend_top {e : Emit α} {Q : α → Store → Prop} {message : Text} (h : Along ⊤ w.store e Q) :
    Along ⊤ w (backend m message e) fun x w' => Q x w'.store := by
  refine .bind (emit_of (R := ⊤) (fun _ _ => trivial) h) fun r w' _ hr => ?_
  cases r with
  | ok x => exact .pure (hr.2 x rfl)
  | error r => exact .bind (along_top _) fun _ _ _ _ => .throw

lemma cursor_top {s : Store} : Along ⊤ s Emit.cursor fun p s' => ∃ b, s'.block? p = some b := by
  unfold Emit.cursor
  rw [along_get_bind]
  cases s.active with
  | none => exact .throw
  | some p =>
    refine .look (Emit.blockOf_along p) fun b hb => ?_
    cases b.ending with
    | none => exact .pure ⟨b, hb⟩
    | some e => exact .bind (along_top _) fun _ _ _ _ => .bind (along_top _) fun _ _ _ _ => .throw

lemma terminate_top {s : Store} {p : Handle} {b : BlockInfo} (hb : s.block? p = some b) (t) :
    Along ⊤ s (Emit.terminate p t) fun _ s' => ∃ b e, s'.block? p = some b ∧ b.ending = some e ∧ e.terminator = t := by
  have hpush := Emit.block?_push (.ending p) hb
  refine .bind (P := fun _ s₁ => s₁.block? p = some b) (.modifyGet trivial hpush) fun h s₁ _ hs₁ => ?_
  rw [along_get_bind, hs₁]
  refine .bind (.modify trivial ?_) fun _ _ _ h => .pure h
  have hlt := Store.lt_size_of_entry_ne (Store.block?_eq_some.1 hs₁ ▸ by simp : s₁.entry p ≠ .reserved)
  refine ⟨{ b with ending := some ⟨h, t⟩ }, ⟨h, t⟩, Store.block?_eq_some.2 ?_, rfl, rfl⟩
  exact (Store.entry_setIfInBounds s₁ p _ p).trans (if_pos ⟨rfl, hlt⟩)

lemma jumpCond_tests (cond : ValueId) (yes no : BlockId) : Along ⊤ w (jumpCond m cond yes no) fun _ w' =>
    Tests w'.store yes.handle no.handle := by
  have hend (s : Store) (c) : Along ⊤ s (do Emit.terminate (← Emit.cursor) (.condBr c yes.handle no.handle)) fun _ s' =>
      Tests s' yes.handle no.handle :=
    .bind cursor_top fun p _ _ ⟨_, hb⟩ => (terminate_top hb _).mono fun _ _ _ ⟨b, e, h⟩ => ⟨p, b, e, c, h⟩
  have hemit (s : Store) : Along ⊤ s (Emit.jumpCond cond.handle yes.handle no.handle) fun _ s' =>
      Tests s' yes.handle no.handle := by
    refine .bind (along_top _) fun c _ _ _ => .bind (along_top _) fun _ _ _ _ => .bind (along_top _) fun _ _ _ _ => ?_
    refine .ite (fun _ => .bind (along_top _) fun _ _ _ _ => .throw) fun _ => ?_
    exact .bind (along_top _) fun _ _ _ _ => .bind (along_top _) fun _ _ _ _ => hend _ c
  refine .bind (along_top _) fun _ _ _ _ => .bind (along_top _) fun _ _ _ _ => ?_
  exact fail_ite fun _ => backend_top (hemit _)

lemma setActiveBlock_top {b : BlockId} (hb : b.handle ≠ noHandle) : Along ⊤ w (setActiveBlock m (some b)) fun _ w' =>
    w'.store.active = some b.handle ∧ ∀ p, w'.store.block? p = w.store.block? p := by
  refine backend_top (Q := fun _ s => s.active = some b.handle ∧ ∀ p, s.block? p = w.store.block? p) ?_
  refine .ite (fun h => absurd h hb) fun _ => .look (Emit.blockOf_along b.handle) fun _ _ => ?_
  exact .modify trivial ⟨rfl, fun _ => rfl⟩

lemma createBlock_top (name : Text) : Along ⊤ w (createBlock m name) fun b _ => b.handle ≠ noHandle := by
  refine .bind (along_top _) fun fn _ _ _ => ?_
  cases fn with
  | none => exact .bind (along_top _) fun _ _ _ _ => .throw
  | some fn =>
    refine .bind (along_top _) fun h w₁ _ _ => .bind (P := fun b _ => ∀ x ∈ b, x.handle ≠ noHandle) ?_ fun b w₂ _ hb => ?_
    · refine .ite (fun _ => .pure nofun) fun hh => .bind (along_top _) fun _ _ _ _ => .pure ?_
      rintro _ ⟨⟩
      exact hh
    · exact (need_along b).mono fun x w' _ ⟨_, hx⟩ => hb x hx


/-- The last part of a loop, done only if it starts at the block that `continue` leads to. -/
noncomputable def atNext (own : LoopTargets) (s : Option (Act σ Unit)) : Option (Act σ Unit) :=
  s.map (asserting (·.store.active = some own.next.handle))

/-- The body of a loop with or without a condition, done only if the condition leads to it or to where `break` does. -/
noncomputable def unlessLeft (cond : Bool) (own : LoopTargets) (s : Option (Act σ Unit)) : Option (Act σ Unit) :=
  s.map (asserting fun w => cond → Tested own.leave w)

/-- There are targets, the same whatever is repeated, that the parts are told: each part starts where it should, and
in the end control is where `break` leads. -/
def Pinned (w : World σ) (cond : Bool) (f : (step body : LoopTargets → Option (Act σ Unit)) → Act σ Unit) : Prop :=
  ∃ own : LoopTargets, ∀ step body, Matches w (f step body)
    (f (fun _ => atNext own (step own)) fun _ => unlessLeft cond own (body own))
    (·.store.active = some own.leave.handle) fun _ => True

variable {cond : Bool}

lemma pinned_repeating {own : LoopTargets} {start again : BlockId} (hstart : start.handle ≠ noHandle)
    (hnext : own.next.handle ≠ noHandle) (hleave : own.leave.handle ≠ noHandle)
    (htest : cond → Tests w.store start.handle own.leave.handle) : Pinned w cond (repeating m own start again) := by
  have hpart {P : World σ → Prop} {w : World σ} (h : P w) (s : Option (Act σ Unit)) :
      runOptional s w = runOptional (s.map (asserting P)) w := by
    cases s with
    | none => rfl
    | some a => exact (asserting_eq h).symm
  refine ⟨own, fun step body => .bind (P := fun _ w' => w'.store = w.store) rfl rfl fun _ w₁ hw₁ => ?_⟩
  refine .bind rfl (of_top (setActiveBlock_top hstart)) fun _ w₂ ⟨hactive, hblocks⟩ => ?_
  refine .bind (hpart ?_ _) (of_top (along_top _)) fun _ w₃ _ => .bind rfl (of_top (along_top _)) fun _ w₄ _ => ?_
  · intro hc
    obtain ⟨p, b, e, v, hb, he⟩ := htest hc
    exact ⟨_, hactive, p, b, e, v, (hblocks p).trans (hw₁ ▸ hb), he⟩
  · refine .bind rfl (of_top (setActiveBlock_top hnext)) fun _ w₅ ⟨hactive, _⟩ => ?_
    refine .bind (hpart hactive _) (of_top (along_top _)) fun _ w₆ _ => .bind rfl (of_top (along_top _)) fun _ w₇ _ => ?_
    exact ⟨rfl, (of_top (setActiveBlock_top hleave)).imp (fun _ _ _ h => h.1) fun _ _ => id⟩

lemma Pinned.bind {a : Act σ β} {f : (step body : LoopTargets → Option (Act σ Unit)) → β → Act σ Unit}
    {P : β → World σ → Prop} (h : Along ⊤ w a P) (hf : ∀ x w', P x w' → Pinned w' cond fun s b => f s b x) :
    Pinned w cond fun s b => a >>= f s b := by
  cases hx : a w with
  | ok x w' =>
    obtain ⟨own, hown⟩ := hf x w' (h.of_ok hx).2
    have hat : Obeys w a (fun y w'' => y = x ∧ w'' = w') fun _ _ => True := by
      unfold Obeys
      rw [hx]
      exact ⟨rfl, rfl⟩
    refine ⟨own, fun step body => .bind rfl hat ?_⟩
    rintro _ _ ⟨rfl, rfl⟩
    exact hown step body
  | error e w' =>
    have hat : Obeys w a (fun _ _ => False) fun _ _ => True := by
      unfold Obeys
      rw [hx]
      trivial
    exact ⟨⟨⟨0, 0⟩, ⟨0, 0⟩⟩, fun _ _ => .bind rfl hat fun _ _ => False.elim⟩

lemma pinned_loopWith (init : Option (Act σ Unit)) (cond : Option (Act σ (Option ValueId))) :
    Pinned w cond.isSome (loopWith m init cond) := by
  refine .bind (along_top _) fun _ _ _ => .bind (createBlock_top _) fun blkCond _ _ => ?_
  refine .bind (createBlock_top _) fun blkStep _ hnext => .bind (createBlock_top _) fun blkBody _ hstart => ?_
  refine .bind (createBlock_top _) fun blkEnd _ hleave => .bind (along_top _) fun _ _ _ => ?_
  refine .bind (along_top _) fun _ _ _ => ?_
  cases cond with
  | none => exact .bind (along_top _) fun _ _ _ => pinned_repeating hstart hnext hleave nofun
  | some c =>
    refine .bind (along_top _) fun v _ _ => .bind (jumpCond_tests _ _ _) fun _ _ htest => ?_
    exact pinned_repeating hstart hnext hleave fun _ => htest

lemma pinned_stmtLoopWith (init : Option (Act σ Unit)) (cond : Option (Act σ (Option ValueId))) :
    Pinned w cond.isSome (stmtLoopWith m init cond) := by
  refine .bind (along_top _) fun _ _ _ => .bind (along_top _) fun M w₂ _ => ?_
  obtain ⟨own, hown⟩ := pinned_loopWith (w := w₂) (m := m) init cond
  refine ⟨own, fun step body => ⟨ensuring_congr (hown step body).1, ensuring_obeys (hown step body).2 ?_ fun _ w₃ hw₃ => ?_⟩⟩
  · exact fun _ _ _ => (of_top (along_top _)).imp (fun _ _ _ _ => trivial) fun _ _ => id
  · refine .bind (update_obeys (Q := (·.store = w₃.store)) rfl) fun _ w₄ hs => ?_
    have hpop : Along ⊤ w₄ (popScope m) fun _ w' => w'.store = w₃.store :=
      .look (module_along m) fun M _ => fail_ite fun _ => ⟨trivial, hs⟩
    exact (of_top hpop).imp (fun _ w' _ h => h ▸ hw₃) fun _ _ => id

/-- An action that first looks at where `break` and `continue` go. -/
def seeing (m : Handle) (f : Option LoopTargets → Act σ α) : Act σ α := do f (← module m).loop

lemma seeing_restores {f : Option LoopTargets → Act σ α} {l : Option LoopTargets} (h : Restores m (· = l) (f l)) :
    RestoresAs m (· = l) (seeing m f) (f l) := by
  rintro w M sc hM hsc rfl
  have heq : seeing m f w = f M.loop w := by
    unfold seeing module
    rw [bind_assoc, get_bind_apply, hM]
    rfl
  refine ⟨heq, ?_⟩
  unfold Obeys
  rw [heq]
  exact h w M sc hM hsc rfl

instance : Encloses m (@Restores σ m ⊤) where
  block _ := ⟨block_restores⟩
  loop _ _ _ _ := ⟨fun w M sc hM hsc _ => by
    have hpart {α : Type} {s : Option (Act σ α)} {l : Option LoopTargets} [h : HasPart (@Restores σ m ⊤) s] :
        Option.Rel (RestoresAs m (· = l)) s s := by
      cases s with
      | none => exact .none
      | some a => exact .some ((h.out a rfl).mono fun _ _ => trivial).self
    exact (loop_restores hpart hpart (fun _ => hpart) fun _ => hpart).restores w M sc hM hsc rfl⟩

end Act

end Arbor.Build

namespace Arbor.Lower

open Build Act IR Proofs Arbor.Tree

variable {σ : Type}

/-- Lowering a statement or an expression restores the scope and the targets, and so does each construct around parts
that do. What the parts of a loop find, if they look when they start: its first part and its condition the targets from
around the loop, its body and its last part two blocks that do not depend on what these do: the one that is active when
the last part starts, and the one that is active when the loop is done and to which the condition leads if it does not
hold. -/
theorem lowering_restores (m : Handle) :
    (∀ s, Restores m ⊤ (stmt m s : Act σ Unit)) ∧ (∀ e, Restores m ⊤ (expr m e : Act σ ValueId)) ∧
    (∀ body : Option (Act σ Unit), (∀ a ∈ body, Restores m ⊤ a) → Restores m ⊤ (Act.stmtBlock m body)) ∧
    (∀ (cond : Option (Act σ (Option ValueId))) (yes no : Option (Act σ Unit)), (∀ a ∈ cond, Restores m ⊤ a) →
      (∀ a ∈ yes, Restores m ⊤ a) → (∀ a ∈ no, Restores m ⊤ a) → Restores m ⊤ (Act.stmtBranch m cond yes no)) ∧
    (∀ cond yes no : Option (Act σ (Option ValueId)), (∀ a ∈ cond, Restores m ⊤ a) → (∀ a ∈ yes, Restores m ⊤ a) →
      (∀ a ∈ no, Restores m ⊤ a) → Restores m ⊤ (Act.exprBranch m cond yes no)) ∧
    (∀ (init : Option (Act σ Unit)) (cond : Option (Act σ (Option ValueId))) (step body : Option (Act σ Unit)),
      (∀ a ∈ init, Restores m ⊤ a) → (∀ a ∈ cond, Restores m ⊤ a) → (∀ a ∈ step, Restores m ⊤ a) →
      (∀ a ∈ body, Restores m ⊤ a) → Restores m ⊤ (Act.stmtLoop m init cond step body)) ∧
    ∀ (init : Option (Option LoopTargets → Act σ Unit)) (cond : Option (Option LoopTargets → Act σ (Option ValueId))),
      (∀ f ∈ init, ∀ l, Restores m (· = l) (f l)) → (∀ f ∈ cond, ∀ l, Restores m (· = l) (f l)) →
      ∀ (w : World σ) (M : Build.Module) (sc : Scope), w.modules[m]? = some M → M.scopes.get? M.current = some sc →
        ∃ own : LoopTargets, ∀ step body : Option (Option LoopTargets → Act σ Unit),
          (∀ f ∈ step, ∀ l, Restores m (· = l) (f l)) → (∀ f ∈ body, ∀ l, Restores m (· = l) (f l)) →
          Matches w
            (Act.stmtLoop m (init.map (seeing m)) (cond.map (seeing m)) (step.map (seeing m)) (body.map (seeing m)))
            (Act.stmtLoop m (init.map (· M.loop)) (cond.map (· M.loop))
              (atNext own (step.map (· (some own)))) (unlessLeft cond.isSome own (body.map (· (some own)))))
            (·.store.active = some own.leave.handle) fun _ => True := by
  have hpart {α : Type} {s : Option (Act σ α)} (h : ∀ a ∈ s, Restores m ⊤ a) : HasPart (@Restores σ m ⊤) s := ⟨h⟩
  refine ⟨fun s => (stmt_has s).out, fun e => (expr_has e).out, fun _ h => ?_, fun _ _ _ hc hy hn => ?_,
    fun _ _ _ hc hy hn => ?_, fun _ _ _ _ hi hc hs hb => ?_, ?_⟩
  · have := hpart h
    exact Has.out
  · have := hpart hc
    have := hpart hy
    have := hpart hn
    exact Has.out
  · have := hpart hc
    have := hpart hy
    have := hpart hn
    exact Has.out
  · have := hpart hi
    have := hpart hc
    have := hpart hs
    have := hpart hb
    exact Has.out
  · intro init cond hinit hcond w M sc hM hsc
    have hpart {α : Type} {s : Option (Option LoopTargets → Act σ α)} (h : ∀ f ∈ s, ∀ l, Restores m (· = l) (f l))
        (l : Option LoopTargets) : Option.Rel (RestoresAs m (· = l)) (s.map (seeing m)) (s.map (· l)) := by
      cases s with
      | none => exact .none
      | some f => exact .some (seeing_restores (h f rfl l))
    obtain ⟨own, hown⟩ := pinned_stmtLoopWith (w := w) (m := m) (init.map (· M.loop)) (cond.map (· M.loop))
    refine ⟨own, fun step body hstep hbody => ?_⟩
    have hsee := (loop_restores (hpart hinit M.loop) (hpart hcond M.loop) (fun own => hpart hstep (some own)) fun own =>
      hpart hbody (some own)) w M sc hM hsc rfl
    have htold := hown (fun own => step.map (· (some own))) fun own => body.map (· (some own))
    rw [Option.isSome_map] at htold
    exact htold.of_eq hsee.1

end Arbor.Lower
