import Arbor.Proofs.Linking
import Arbor.Proofs.Halting

/-! Which body a call runs: what the emitted instruction refers to, and what that reference stands
for once the program is linked. -/

namespace Arbor.IR.Store

def Later : Store → Store → Prop := Relation.ReflTransGen fun s s' => Grows s s' ∨ Emit.Dropped s s'

lemma Later.inst (l : Later s s') (hi : s.inst? h = some i) : ∃ j, s'.inst? h = some j ∧ j.inst = i.inst := by
  induction l with
  | refl => exact ⟨i, hi, rfl⟩
  | tail _ step ih =>
    obtain ⟨j, hj, hsame⟩ := ih
    rcases step with g | d
    · obtain ⟨k, hk, hle⟩ := g.inst (inst?_eq_some.1 hj)
      exact ⟨k, inst?_eq_some.2 hk, hle.inst.trans hsame⟩
    · exact ⟨j, inst?_eq_some.2 ((d.entry_iff (by simp)).2 (inst?_eq_some.1 hj)), hsame⟩

end Arbor.IR.Store

namespace Arbor.Run

open IR Proofs Option

def Defined (s : Store) (h : Handle) : Prop := ∃ f, s.func? h = some f ∧ f.blocks.size ≠ 0

lemma mem_definitions (hmem : (name, h) ∈ definitions s m) : Defined s h := by
  obtain ⟨g, -, hg⟩ := List.mem_filterMap.1 hmem
  cases hf : s.func? g with
  | none => simp [hf] at hg
  | some f =>
    by_cases hb : f.blocks.size = 0
    · simp only [hf, bind_eq_bind, bind_some, hb, if_true, reduceCtorEq] at hg
    · simp only [hf, bind_eq_bind, bind_some, hb, if_false, some.injEq, Prod.mk.injEq] at hg
      exact ⟨f, hg.2 ▸ hf, hb⟩

lemma defined_of_lookup (hl : (linkOrder s entry m).lookup name = some h) : Defined s h := by
  obtain ⟨l, l', heq, -⟩ := List.lookup_eq_some_iff.1 hl
  have hmem : (name, h) ∈ linkOrder s entry m := by simp [heq]
  rcases List.mem_append.1 hmem with hown | hother
  · exact mem_definitions hown
  · obtain ⟨x, -, hx⟩ := List.mem_flatMap.1 hother
    exact mem_definitions hx

namespace Image

/-- The function whose body a call of `h` runs; none if a library function answers. -/
def body (img : Image) (h : Handle) : Option Handle := (img.store.func? h).bind fun f =>
    if (img.resolve h f).2.blocks.size = 0 then none else some (img.resolve h f).1

lemma func?_resolve (img : Image) (hf : img.store.func? h = some f) :
    img.store.func? (img.resolve h f).1 = some (img.resolve h f).2 := by
  unfold resolve
  split
  · exact hf
  · split
    · exact hf
    · split
      · assumption
      · exact hf

lemma body_of_defined {img : Image} (hf : img.store.func? h = some f) (hb : f.blocks.size ≠ 0) :
    img.body h = some h := by
  simp only [body, hf, bind_some, resolve, hb, ne_eq, not_false_iff, if_true, if_false]

lemma body_of_bodiless {maxSteps : Nat} (hf : s.func? h = some f) (hb : f.blocks.size = 0) :
    body ⟨s, link s entry m, maxSteps⟩ h = (linkOrder s entry m).lookup f.ident.spoken := by
  simp only [body, hf, bind_some, resolve, hb, ne_eq, getElem?_link]
  cases hl : (linkOrder s entry m).lookup f.ident.spoken with
  | none => simp [hb]
  | some d =>
    obtain ⟨g, hg, hne⟩ := defined_of_lookup hl
    simp [hg, hne]

def Called (img : Image) (f : Frame) (callers : List Frame) (call : Handle) (rest : List Handle) (d : Handle)
    (next : Next) : Prop :=
  (∃ g G vs, img.body d = some g ∧ img.store.func? g = some G ∧
    next = .go (frameFor g G vs f.calls f.depth) ({ f with rest := some (call :: rest) } :: callers)) ∨
  (img.body d = none ∧ ∃ v, next = .go (f.finish call rest v) callers)

lemma invoke_along {img : Image} : Along Uncounted m (img.invoke f callers call rest ty d args) fun next _ =>
    img.Called f callers call rest d next := by
  unfold invoke
  cases hd : img.store.func? d with
  | none => exact .throw
  | some info =>
    have hres := img.func?_resolve hd
    have hbody : img.body d =
        if (img.resolve d info).2.blocks.size = 0 then none else some (img.resolve d info).1 := by
      simp only [body, hd, bind_some]
    dsimp only
    refine .ite (fun hempty => ?_) fun hsome => .ite (fun _ => .throw) fun _ => .pure (.inl ⟨_, _, _, ?_, hres, rfl⟩)
    · rw [if_pos hempty] at hbody
      split
      · exact .throw
      · next lib hlib => exact (find?_uncounted hlib args).bind fun v _ _ _ => .pure (.inr ⟨hbody, _, rfl⟩)
    · rwa [if_neg hsome] at hbody

lemma execute_call (img : Image) (hi : img.store.inst? h = some i) (hcall : i.inst = .call (.func d) us) :
    Along (fun m m' => m'.steps = m.steps + 1) m (img.execute f callers h rest) fun next _ =>
      img.Called f callers h rest d next := by
  refine along_modify_bind.2 ((?_ : Along Uncounted _ _ _).weaken fun _ r => r)
  refine along_get_bind.2 (.ite (fun _ => .throw) fun _ => ?_)
  simp only [hi, hcall, Exec.eval, pure_bind]
  refine uncounted.bind fun vs _ _ _ => invoke_along

lemma entered_iff {img : Image} {f : Frame} {next : Next}
    (hnext : img.Called f callers h rest d next) :
    (∃ G vs, img.store.func? fn = some G ∧ next = .go (frameFor fn G vs f.calls f.depth) ({ f with rest := some (h :: rest) } :: callers)) ↔
    img.body d = some fn := by
  constructor
  · rintro ⟨G, vs, hG, rfl⟩
    rcases hnext with ⟨g, G', ws, hbody, -, hsame⟩ | ⟨-, v, hsame⟩
    · injection hsame with hframe
      exact hbody.trans (congrArg some (congrArg Frame.func hframe).symm)
    · injection hsame with _ hcallers
      exact absurd (congrArg List.length hcallers) (by simp)
  · intro hbody
    rcases hnext with ⟨g, G, vs, hg, hG, rfl⟩ | ⟨hnone, -⟩
    · cases mem_unique hbody hg
      exact ⟨G, vs, hG, rfl⟩
    · cases hbody.symm.trans hnone

end Image

/-- What a call of `fn` emitted in the module `home` refers to: the function itself at home, elsewhere what
`home` declares under its name, which is made with its signature if there is none. -/
inductive Refers (s : Store) (home fn : Handle) (F : FuncInfo) (s' : Store) : Handle → Prop where
  | own (hhome : F.module = home) : Refers s home fn F s' fn
  | declared {d : Handle} {m : ModuleInfo} (hhome : F.module ≠ home) (hm : s.module? home = some m)
      (hd : m.declared.lookup F.ident.spoken = some d) : Refers s home fn F s' d
  | added {d : Handle} {m : ModuleInfo} {D : FuncInfo} (hhome : F.module ≠ home) (hm : s.module? home = some m)
      (hd : m.declared.lookup F.ident.spoken = none) (hD : s'.func? d = some D) (hmodule : D.module = home)
      (hsig : D.signature = F.signature) (hempty : D.blocks.size = 0) : Refers s home fn F s' d

/-- The body of a function runs for a reference to it, and for a bodiless reference whose name is linked to it. -/
def Answers (s : Store) (entry : Handle) (m : ModuleInfo) (d fn : Handle) : Prop :=
  d = fn ∨ ∃ D, s.func? d = some D ∧ D.blocks.size = 0 ∧ (linkOrder s entry m).lookup D.ident.spoken = some fn

lemma body_eq_some_iff (maxSteps)
    (hfn : Defined s fn) : Image.body ⟨s, link s entry m, maxSteps⟩ d = some fn ↔ Answers s entry m d fn := by
  obtain ⟨F, hF, hsome⟩ := hfn
  constructor
  · intro hbody
    cases hD : s.func? d with
    | none => simp [Image.body, hD] at hbody
    | some D =>
      by_cases hb : D.blocks.size = 0
      · rw [Image.body_of_bodiless hD hb] at hbody
        exact .inr ⟨D, hD, hb, hbody⟩
      · rw [Image.body_of_defined hD hb] at hbody
        exact .inl (some.inj hbody)
  · rintro (rfl | ⟨D, hD, hb, hl⟩)
    · exact Image.body_of_defined hF hsome
    · rw [Image.body_of_bodiless hD hb, hl]

lemma refers_of_callsTo {target : Operand} (hF : s.func? fn = some F)
    (h : Emit.CallsTo s home s1 (.func fn) target r ps va) (hfuncs : s'.code.funcs = s1.code.funcs) :
    ∃ d, target = .func d ∧ Refers s home fn F s' d := by
  cases h with
  | own hf hhome hsame =>
    cases mem_unique hF hf
    exact ⟨fn, rfl, .own hhome⟩
  | declared hf hhome hm hd hsame =>
    cases mem_unique hF hf
    exact ⟨_, rfl, .declared hhome hm hd⟩
  | @added _ d _ _ hf hhome hm hd hnew hcode =>
    cases mem_unique hF hf
    have hcode' : s'.code.funcs d = some ⟨home, F.ret, F.code.params, F.variadic, []⟩ := by
      rw [hfuncs, hcode.added]
      exact Function.update_self ..
    obtain ⟨D, hD, hDcode⟩ := map_eq_some_iff.1 hcode'
    refine ⟨d, rfl, .added hhome hm hd hD (congrArg FuncCode.module hDcode)
      (congrArg FuncCode.signature hDcode) ?_⟩
    have hblocks : D.blocks.toList = [] := congrArg FuncCode.blocks hDcode
    simpa using hblocks
  | pointer hv hty hsame => exact absurd rfl (hv fn)

/-- A call refers to its callee at home and to a declaration elsewhere. Whenever it is executed later, it
enters the callee's body exactly if the reference is the callee, or has no body and its name is linked to
the callee. -/
theorem call_enters_iff (s : {s : Store // s.WF}) (fn : Handle) (args : List Handle) :
    match Emit.call fn args s.1 with
    | .error _ _ => True
    | .ok call s' => ∀ F, s.1.func? fn = some F → ∃ block d us,
        s.1.active = some block ∧ Refers s.1 (Emit.moduleOfBlock s.1 block) fn F s' d ∧
        ∀ t, Store.Later s' t → ∃ i, t.inst? call = some i ∧ i.inst = .call (.func d) us ∧
          ∀ entry m maxSteps f callers rest machine next machine', Defined t fn →
            Image.execute ⟨t, link t entry m, maxSteps⟩ f callers call rest machine = .ok next machine' →
            ((∃ G vs, t.func? fn = some G ∧ next =
                .go (Image.frameFor fn G vs f.calls f.depth) ({ f with rest := some (call :: rest) } :: callers)) ↔
              Answers t entry m d fn) := by
  obtain ⟨s, hs⟩ := s
  cases hrun : Emit.call fn args s with
  | error e s' => trivial
  | ok call s' =>
    intro F hF
    have hop : s.operand? fn = some (.func fn) := by simp only [Store.operand?, Store.func?_eq_some.1 hF]
    obtain ⟨-, block, b, s₁, target, r, ps, va, us, hactive, -, -, hcalls, -, -, -, -, hput⟩ :=
      (Emit.call_puts hs args hop).of_ok hrun
    obtain ⟨b', B, -, hcode⟩ := hput.emits.cursor
    have hfuncs : s'.code.funcs = s₁.code.funcs := by rw [hcode]
    obtain ⟨d, rfl, hrefers⟩ := refers_of_callsTo hF hcalls hfuncs
    have hinst : s'.code.insts call = some (.call (.func d) us, Emit.callTy s₁.code (.func d)) := by
      rw [hcode]
      exact Function.update_self ..
    obtain ⟨i, hi, hpair⟩ := Option.map_eq_some_iff.1 hinst
    refine ⟨block, d, us, hactive, hrefers, fun t later => ?_⟩
    obtain ⟨j, hj, hsame⟩ := later.inst hi
    have hcall : j.inst = .call (.func d) us := hsame.trans (congrArg Prod.fst hpair)
    refine ⟨j, hj, hcall, fun entry m maxSteps f callers rest machine next machine' hdef hexec => ?_⟩
    rw [← body_eq_some_iff maxSteps hdef]
    exact Image.entered_iff ((Image.execute_call ⟨t, link t entry m, maxSteps⟩ hj hcall).of_ok hexec).2

end Arbor.Run
