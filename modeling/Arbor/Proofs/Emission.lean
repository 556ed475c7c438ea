import Arbor.Proofs.Interning

/-! Operations that change the code of a store: functions and blocks are added, and the active block
is filled and ended. Each is one of the changes of `Code`, and what fails changes nothing that
matters. -/

namespace Arbor.IR

open Proofs List

variable {b : BlockInfo} {f : FuncInfo} {h : Handle} {m : ModuleInfo}
variable {block func module : Handle}

namespace Store

variable {s s' : Store}

lemma grows_of_entries (hentries : s'.entries = s.entries) (htypes : s'.types = s.types)
    (hvalues : s'.values = s.values)
    (hviolations : s.WF → ∀ v ∈ s'.violations, v ∈ s.violations ∨ v.module < s.entries.size) : Grows s s' := by
  have hentry : ∀ h, s'.entry h = s.entry h := fun h => by simp only [entry, hentries]
  have hm : Mono s s' := ⟨Nat.le_of_eq (by rw [hentries]), fun h => hentry h ▸ .refl _,
    fun t h => by rw [htypes]; exact id⟩
  refine ⟨hm, fun hs => hs.of_changes hm (fun h hh => absurd (hentry h) hh) (fun t h ht => ?_)
    (fun v h hv => ?_) (fun v hv => ?_) ?_⟩
  · exact .inl (htypes ▸ ht)
  · exact .inl (hvalues ▸ hv)
  · rw [hentries]
    exact hviolations hs v hv
  · rw [hentry, hs.reserved]

lemma block?_code (hb : s.block? h = some b) : s.code.blocks h = some b.code := by
  simp only [code, hb, Option.map_some]

lemma func?_code (hf : s.func? h = some f) : s.code.funcs h = some f.code := by
  simp only [code, hf, Option.map_some]

lemma inst?_code (hi : s.inst? h = some i) : s.code.insts h = some (i.inst, i.ty) := by
  simp only [code, hi, Option.map_some]

lemma code_fresh (hh : s.entries.size ≤ h) :
    s.code.blocks h = none ∧ s.code.insts h = none ∧ s.code.funcs h = none := by
  rw [code_blocks, code_insts, code_funcs, entry_of_size_le hh]
  exact ⟨rfl, rfl, rfl⟩

end Store

namespace Emit

open Store

variable {s : Store}

lemma quietly {a : Emit α} {Q : α → Store → Prop} (h : Along Quiet s a Q) :
    Along Grows s a fun x s' => Quiet s s' ∧ Q x s' :=
  (h.mono fun _ _ r hq => And.intro r hq).weaken fun _ r => r.toGrows

lemma moduleOfBlock_lt (hs : s.WF) (block) : moduleOfBlock s block < s.entries.size := by
  unfold moduleOfBlock
  cases hb : s.block? block with
  | none => exact hs.size_pos
  | some b =>
    have hok := hs.entries block
    rw [block?_eq_some.1 hb] at hok
    obtain ⟨⟨F, hF, -⟩, -⟩ := hok
    have hFok := hs.entries b.func
    rw [hF] at hFok
    obtain ⟨⟨m, hm, -⟩, -⟩ := hFok
    have hF' : s.func? b.func = some F := func?_eq_some.2 hF
    simp only [Option.bind_eq_bind, Option.bind_some, hF', Option.pure_def, Option.getD_some]
    exact lt_size_of_entry_ne (by rw [hm]; simp)

lemma cursor_along (hs : s.WF) :
    Along Grows s cursor fun h s' => s' = s ∧ ∃ b, s.active = some h ∧ s.block? h = some b ∧ b.ending = none := by
  unfold cursor
  rw [along_get_bind]
  cases ha : s.active with
  | none => exact .throw
  | some h =>
    refine .bind (quietly (blockOf_along h)) ?_
    rintro b s' - ⟨-, rfl, hb⟩
    cases he : b.ending with
    | none => exact .pure ⟨rfl, b, rfl, hb, he⟩
    | some e =>
      refine grows_of_entries rfl rfl rfl fun hs v hv => ?_
      rcases Array.mem_push.1 hv with hv | rfl
      · exact .inl hv
      · exact .inr (moduleOfBlock_lt hs h)

lemma setActiveBlock_along (block) : Along Grows s (setActiveBlock block) fun _ s' =>
      (block = noHandle ∧ s'.code = s.code.move none) ∨
        (∃ b, s.block? block = some b) ∧ s'.code = s.code.move (some block) := by
  refine .ite (fun h0 => ?_) fun _ => ?_
  · exact ⟨grows_of_entries rfl rfl rfl fun _ v hv => .inl hv, .inl ⟨h0, rfl⟩⟩
  · refine .bind (quietly (blockOf_along block)) ?_
    rintro b s' - ⟨-, rfl, hb⟩
    exact ⟨grows_of_entries rfl rfl rfl fun _ v hv => .inl hv, .inr ⟨⟨b, hb⟩, rfl⟩⟩

lemma entry_kept (e) (hx : s.entry x = e') (hne : e' ≠ .reserved) : (s.push e).2.entry x = e' :=
  ((changes_push s e).entry_of_ne (Nat.ne_of_lt (lt_size_of_entry_ne (hx ▸ hne)))).trans hx

lemma block?_push (e) (hb : s.block? h = some b) : (s.push e).2.block? h = some b :=
  block?_eq_some.2 (entry_kept e (block?_eq_some.1 hb) (by simp))

section

variable (hactive : s.active = some block) (hb : s.block? block = some b) (hopen : b.ending = none)

include hactive hb hopen

lemma append_along (hty : s.Holds ty) (hslot : ∀ e, inst = .alloca e → ty = .ptr e)
    (hload : ∀ e v, inst = .load e v → ∃ g j, v = .inst g ∧ s.inst? g = some j ∧ j.inst = .alloca e)
    (hcall : ∀ d vs, inst = .call (.func d) vs →
      ∃ F G, s.func? b.func = some F ∧ s.func? d = some G ∧ G.module = F.module) :
    Along Grows s (append block inst ty) fun h s' =>
      h = s.entries.size ∧ s'.inst? h = some { inst, ty, block } ∧ s.code.Emits h inst ty s'.code := by
  unfold append
  generalize hi : ({ inst, ty, block } : InstInfo) = i
  have cpush := changes_push s (.inst i)
  have gpush : Grows s (s.push (.inst i)).2 := by
    refine cpush.grows rfl (fun _ _ => id) (fun _ _ => .inl) (fun _ _ => .inl)
      WF.size_ne fun hs g => ?_
    have hit : i.ty = ty := hi ▸ rfl
    have hii : i.inst = inst := hi ▸ rfl
    have hib : i.block = block := hi ▸ rfl
    simp only [EntryOk, hit, hii, hib]
    refine ⟨g.holds hty, hslot, fun e v hv => ?_, fun d vs hd => ?_⟩
    · obtain ⟨x, j, hx, hj, ha⟩ := hload e v hv
      obtain ⟨j', hj', hle⟩ := g.inst (inst?_eq_some.1 hj)
      exact ⟨x, j', hx, hj', hle.inst.trans ha⟩
    · obtain ⟨F, G, hF, hG, hmodule⟩ := hcall d vs hd
      obtain ⟨B', hB', hBle⟩ := g.block (block?_eq_some.1 hb)
      obtain ⟨F', hF', hFle⟩ := g.func (func?_eq_some.1 hF)
      obtain ⟨G', hG', hGle⟩ := g.func (func?_eq_some.1 hG)
      refine ⟨B', F', G', hB', hBle.func ▸ hF', hG', ?_⟩
      rw [hGle.module, hFle.module, hmodule]
  refine .bind (P := fun h s1 => h = s.entries.size ∧ s1 = (s.push (.inst i)).2) ⟨gpush, rfl, rfl⟩ ?_
  rintro h s1 - ⟨rfl, rfl⟩
  have hb' := block?_push (.inst i) hb
  rw [along_get_bind, hb']
  have hbe := block?_eq_some.1 hb'
  have hne : block ≠ s.entries.size := Nat.ne_of_lt (lt_size_of_entry_ne (by rw [block?_eq_some.1 hb]; simp))
  have cset : Changes (s.push (.inst i)).2 block (.block { b with insts := b.insts.push s.entries.size })
      ((s.push (.inst i)).2.setBlock block { b with insts := b.insts.push s.entries.size }) :=
    changes_set (by rw [hbe]; simp) (by
      rw [hbe]
      exact .block ⟨rfl, by simp, fun e he => by rw [hopen] at he; cases he⟩)
  have gset : Grows (s.push (.inst i)).2
      ((s.push (.inst i)).2.setBlock block { b with insts := b.insts.push s.entries.size }) := by
    refine cset.grows rfl (fun _ _ => id) (fun _ _ => .inl) (fun _ _ => .inl)
      (fun hs => hs.ne_noHandle (by rw [hbe]; simp)) fun hs g => ?_
    have hok := g.entryOk (hs.entries block)
    rw [hbe] at hok
    refine ⟨hok.1, fun x hx => ?_, hok.2.2⟩
    rw [Array.toList_push, mem_append, mem_singleton] at hx
    rcases hx with hx | rfl
    · exact hok.2.1 x hx
    · obtain ⟨j, hj, hle⟩ := g.inst cpush.entry_self
      exact ⟨j, hj, hle.block.trans (hi ▸ rfl)⟩
  refine ⟨gset, rfl, ?_, ?_⟩
  · exact inst?_eq_some.2 (by rw [cset.entry_of_ne (Ne.symm hne), cpush.entry_self])
  · refine ⟨⟨block, b.code, ⟨hactive, block?_code hb, by simp [BlockInfo.code, hopen]⟩, ?_⟩,
      (code_fresh (Nat.le_refl _)).2.1, (code_fresh (Nat.le_refl _)).1⟩
    have hsize : s.entry s.entries.size = .reserved := entry_of_size_le (Nat.le_refl _)
    ext1
    · rw [cset.code_blocks, cpush.blocks_eq (by rw [hsize]; rfl)]
      simp only [Entry.blockCode, BlockInfo.code, Array.toList_push]
    · rw [cset.insts_eq (by rw [hbe]; rfl), cpush.code_insts]
      simp only [Entry.instCode, ← hi]
    · rw [cset.funcs_eq (by rw [hbe]; rfl), cpush.funcs_eq (by rw [hsize]; rfl)]
    · rfl
    · rfl

lemma ends_setBlock (htargets : ∀ x ∈ t.successors, ∃ B, s.block? x = some B) :
    Grows s ((s.push (.ending block)).2.setBlock block { b with ending := some ⟨s.entries.size, t⟩ }) ∧ s.code.Ends t
        ((s.push (.ending block)).2.setBlock block { b with ending := some ⟨s.entries.size, t⟩ }).code := by
  have cpush := changes_push s (.ending block)
  have hsize : s.entry s.entries.size = .reserved := entry_of_size_le (Nat.le_refl _)
  have gpush : Grows s (s.push (.ending block)).2 :=
    (quiet_push (e := .ending block) ⟨rfl, rfl, rfl⟩ fun _ _ => trivial).toGrows
  have hbe := block?_eq_some.1 (block?_push (.ending block) hb)
  have cset : Changes (s.push (.ending block)).2 block
      (.block { b with ending := some ⟨s.entries.size, t⟩ })
      ((s.push (.ending block)).2.setBlock block { b with ending := some ⟨s.entries.size, t⟩ }) :=
    changes_set (by rw [hbe]; simp) (by
      rw [hbe]
      exact .block ⟨rfl, prefix_rfl, fun e he => by rw [hopen] at he; cases he⟩)
  refine ⟨trans_of Grows gpush (cset.grows rfl (fun _ _ => id) (fun _ _ => .inl)
    (fun _ _ => .inl) (fun hs => hs.ne_noHandle (by rw [hbe]; simp)) fun hs g => ?_),
    block, b.code, ⟨hactive, block?_code hb, by simp [BlockInfo.code, hopen]⟩, ?_⟩
  · have hok := g.entryOk (hs.entries block)
    rw [hbe] at hok
    refine ⟨hok.1, hok.2.1, fun e he => ?_⟩
    cases he
    refine ⟨g.ending cpush.entry_self, fun x hx => ?_⟩
    obtain ⟨B, hB⟩ := htargets x hx
    obtain ⟨B', hB', -⟩ := g.block (block?_eq_some.1 (block?_push (.ending block) hB))
    exact ⟨B', hB'⟩
  · ext1
    · rw [cset.code_blocks, cpush.blocks_eq (by rw [hsize]; rfl)]
      rfl
    · rw [cset.insts_eq (by rw [hbe]; rfl), cpush.insts_eq (by rw [hsize]; rfl)]
    · rw [cset.funcs_eq (by rw [hbe]; rfl), cpush.funcs_eq (by rw [hsize]; rfl)]
    · rfl
    · rfl

lemma terminate_along (htargets : ∀ x ∈ t.successors, ∃ B, s.block? x = some B) :
    Along Grows s (terminate block t) fun _ s' => s.code.Ends t s'.code := by
  obtain ⟨hg, he⟩ := ends_setBlock hactive hb hopen htargets
  unfold terminate Along
  simp only [bind, EStateM.bind, Emit.push, modifyGet_apply, get_apply]
  rw [block?_push (.ending block) hb]
  exact ⟨hg, he⟩

end

lemma func?_push (e) (hf : s.func? h = some f) : (s.push e).2.func? h = some f :=
  func?_eq_some.2 (entry_kept e (func?_eq_some.1 hf) (by simp))

lemma changes_addBlock (b) (hf : s.func? func = some f) :
    Changes (s.push (.block b)).2 func (.func { f with blocks := f.blocks.push s.entries.size })
      ((s.push (.block b)).2.setFunc func { f with blocks := f.blocks.push s.entries.size }) := by
  have hfe := func?_eq_some.1 (func?_push (.block b) hf)
  exact changes_set (by rw [hfe]; simp) (by
    rw [hfe]
    exact .func ⟨⟨rfl, rfl, rfl, rfl, by simp⟩, rfl⟩)

lemma grows_linked (hk : s.entry k ≠ .reserved) (c : Changes (s.push e).2 k e' s') (htypes : s'.types = s.types)
    (hvalues : s'.values = s.values) (hviolations : s'.violations = s.violations)
    (hself : s.WF → Mono s s' → s'.entry s.entries.size = e → s'.EntryOk k e')
    (hnew : Mono s s' → s'.entry k = e' → s'.EntryOk s.entries.size e) : Grows s s' := by
  have cpush := changes_push s e
  have hne : s.entries.size ≠ k := Nat.ne_of_gt (lt_size_of_entry_ne hk)
  have hfresh := (c.entry_of_ne hne).trans cpush.entry_self
  have g : Mono s s' := (cpush.mono fun _ _ => id).trans (c.mono fun _ _ hx => htypes ▸ hx)
  refine ⟨g, fun hs => hs.of_changes g (fun x hx => ?_) (fun t x hx => .inl (htypes ▸ hx))
    (fun v x hx => .inl (hvalues ▸ hx)) (fun v hv => .inl (hviolations ▸ hv)) ?_⟩
  · by_cases hxk : x = k
    · rw [hxk, c.entry_self]
      exact hself hs g hfresh
    · by_cases hxn : x = s.entries.size
      · rw [hxn, hfresh]
        exact hnew g c.entry_self
      · exact absurd ((c.entry_of_ne hxk).trans (cpush.entry_of_ne hxn)) hx
  · rw [c.entry_of_ne (Ne.symm (hs.ne_noHandle hk)), cpush.entry_of_ne (Ne.symm hs.size_ne), hs.reserved]

lemma grows_addBlock (b) (hf : s.func? func = some f) (hfunc : b.func = func)
    (hinsts : b.insts = #[]) (hopen : b.ending = none) :
    Grows s ((s.push (.block b)).2.setFunc func { f with blocks := f.blocks.push s.entries.size }) := by
  have hfe := func?_eq_some.1 hf
  refine grows_linked (by rw [hfe]; simp) (changes_addBlock b hf) rfl rfl rfl (fun hs g hb => ?_) fun g hself => ?_
  · have hok := g.entryOk (hs.entries func)
    rw [hfe] at hok
    refine ⟨hok.1, hok.2.1, fun y hy => ?_, hok.2.2.2⟩
    rw [Array.toList_push, mem_append, mem_singleton] at hy
    rcases hy with hy | rfl
    · exact hok.2.2.1 y hy
    · exact ⟨b, hb, hfunc⟩
  · refine ⟨⟨_, (congrArg _ hfunc).trans hself, by simp⟩, fun g hg => ?_, fun e he => ?_⟩
    · rw [hinsts] at hg
      cases hg
    · rw [hopen] at he
      cases he

lemma opens_addBlock (b) (hf : s.func? func = some f) (hfunc : b.func = func)
    (hinsts : b.insts = #[]) (hopen : b.ending = none) : s.code.Opens s.entries.size func
      ((s.push (.block b)).2.setFunc func { f with blocks := f.blocks.push s.entries.size }).code := by
  have hfe := func?_eq_some.1 (func?_push (.block b) hf)
  have hsize : s.entry s.entries.size = .reserved := entry_of_size_le (Nat.le_refl _)
  have cpush := changes_push s (.block b)
  have cset := changes_addBlock b hf
  refine ⟨⟨f.code, func?_code hf, ?_⟩, (code_fresh (Nat.le_refl _)).2.1, (code_fresh (Nat.le_refl _)).1⟩
  ext1
  · rw [cset.blocks_eq (by rw [hfe]; rfl), cpush.code_blocks]
    simp only [Entry.blockCode, BlockInfo.code, hfunc, hinsts, hopen, Option.map_none]
  · rw [cset.insts_eq (by rw [hfe]; rfl), cpush.insts_eq (by rw [hsize]; rfl)]
  · rw [cset.code_funcs, cpush.funcs_eq (by rw [hsize]; rfl)]
    simp only [Entry.funcCode, FuncInfo.code, Array.toList_push]
  · rfl
  · rfl

lemma newBlock_along (hs : s.WF) (hf : s.func? func = some f) (name) : Along Grows s (do
      let unique ← localName func name
      let h ← push (.block { ident := { name := unique }, func })
      match (← get).func? func with
      | none => pure h
      | some f =>
        modify (·.setFunc func { f with blocks := f.blocks.push h })
        pure h) fun h s' => h ≠ noHandle ∧ s.code.Opens h func s'.code := by
  refine .bind (quietly (localName_along func name)) fun unique s1 r1 ⟨q, _⟩ => ?_
  obtain ⟨g, hg, -⟩ := q.func (func?_eq_some.1 hf)
  have hg' := func?_eq_some.2 hg
  have hblock := grows_addBlock { ident := { name := unique }, func } hg' rfl rfl rfl
  have hopens := opens_addBlock { ident := { name := unique }, func } hg' rfl rfl rfl
  rw [q.code] at hopens
  unfold Along
  simp only [bind, EStateM.bind, Emit.push, modifyGet_apply, get_apply]
  rw [func?_push _ hg']
  exact ⟨hblock, ((r1.wf hs).size_ne), hopens⟩

lemma createBlock_along (hs : s.WF) (func name) :
    Along Grows s (createBlock func name) fun h s' => h ≠ noHandle ∧ s.code.Opens h func s'.code := by
  refine .bind (quietly (funcOf_along func)) ?_
  rintro f s' - ⟨-, rfl, hf⟩
  rw [along_get_bind]
  cases s'.module? f.module with
  | none => exact newBlock_along hs hf name
  | some m => exact .ite (fun _ => .throw) fun _ => newBlock_along hs hf name

lemma module?_push (e) (hm : s.module? h = some m) : (s.push e).2.module? h = some m :=
  module?_eq_some.2 (entry_kept e (module?_eq_some.1 hm) (by simp))

def bodiless (module : Handle) (name : Text) (ret : Ty) (params : List Ty) (variadic : Bool) :
    FuncInfo where
  ident := { name }
  module := module
  ret := ret
  variadic := variadic
  params := (params.map fun ty => ({ ty } : ParamInfo)).toArray

lemma code_bodiless (module name ret params variadic) :
    (bodiless module name ret params variadic).code = { module, ret, params, variadic } := by
  simp [bodiless, FuncInfo.code, Function.comp_def]

/-- The store once it has the function and a module declares it. -/
abbrev added (s : Store) (f : FuncInfo) (module : Handle) (m : ModuleInfo) (name : Text) : Store :=
  (s.push (.func f)).2.setModule module
    { m with funcs := m.funcs.push s.entries.size, declared := m.declared ++ [(name, s.entries.size)] }

lemma changes_addFunc (f name) (hm : s.module? module = some m) : Changes (s.push (.func f)).2 module
      (.module { m with funcs := m.funcs.push s.entries.size, declared := m.declared ++ [(name, s.entries.size)] })
      (added s f module m name) := by
  have hme := module?_eq_some.1 (module?_push (.func f) hm)
  exact changes_set (by rw [hme]; simp) (by
    rw [hme]
    exact .module ⟨rfl, rfl, by simp, by simp, prefix_rfl⟩)

lemma grows_addFunc (name) (hm : s.module? module = some m) (hname : f.ident.name = name)
    (hmod : f.module = module) (hsig : s.Holds f.signature) (hblocks : f.blocks = #[]) (hret : f.ret.Plain)
    (hparams : ∀ t ∈ f.code.params, t.Plain) : Grows s (added s f module m name) := by
  have hme := module?_eq_some.1 hm
  refine grows_linked (by rw [hme]; simp) (changes_addFunc f name hm) rfl rfl rfl (fun hs g hf => ?_) fun g hself => ?_
  · have hok := g.entryOk (hs.entries module)
    rw [hme] at hok
    refine ⟨fun y hy => ?_, fun p hp => ?_⟩
    · rw [Array.toList_push, mem_append, mem_singleton] at hy
      rcases hy with hy | rfl
      · exact hok.1 y hy
      · exact ⟨f, hf, hmod⟩
    · rw [Array.toList_push, mem_append]
      rcases mem_append.1 hp with hp | hp
      · exact ⟨.inl (hok.2 p hp).1, (hok.2 p hp).2⟩
      · rw [mem_singleton.1 hp]
        exact ⟨.inr (by simp), f, hf, hname⟩
  · refine ⟨⟨_, (congrArg _ hmod).trans hself, by simp⟩, g.holds hsig, fun b hb => ?_, hret, hparams⟩
    rw [hblocks] at hb
    cases hb

lemma newFunc_run (hm : s.module? module = some m) (name ret params)
    (variadic) : newFunc module name ret params variadic s = .ok s.entries.size
      (added s (bodiless module name ret params variadic) module m name) := by
  have hpush := module?_push (.func (bodiless module name ret params variadic)) hm
  rw [bodiless] at hpush ⊢
  simp only [newFunc, bind, EStateM.bind, Emit.push, modifyGet_apply, get_apply, hpush]
  rfl

lemma newFunc_along (hs : s.WF) (hm : s.module? module = some m) (name)
    {ret : Ty} (hv : s.Holds (.func ret params variadic)) (hret : ret.Plain) (hparams : ∀ t ∈ params, t.Plain) :
    Along Adding s (newFunc module name ret params variadic) fun h s' => h ≠ noHandle ∧
      s'.func? h = some (bodiless module name ret params variadic) ∧ s'.module? module = some
        { m with funcs := m.funcs.push h, declared := m.declared ++ [(name, h)] } ∧
      s.code.Declares h { module, ret, params, variadic } s'.code := by
  have hcode := code_bodiless module name ret params variadic
  generalize hf : bodiless module name ret params variadic = f at hcode
  have hmod : f.module = module := hf ▸ rfl
  have hsig : f.signature = .func ret params variadic := congrArg FuncCode.signature hcode
  have hblocks : f.blocks = #[] := hf ▸ rfl
  have cpush := changes_push s (.func f)
  have hme := module?_eq_some.1 (module?_push (.func f) hm)
  have hne : module ≠ s.entries.size := Nat.ne_of_lt (lt_size_of_entry_ne (by rw [module?_eq_some.1 hm]; simp))
  have cset := changes_addFunc f name hm
  have hgrows := grows_addFunc name hm (hf ▸ rfl) hmod (hsig ▸ hv) hblocks (by rwa [show f.ret = ret from congrArg FuncCode.ret hcode])
    (by rwa [hcode])
  have hsize : s.entry s.entries.size = .reserved := entry_of_size_le (Nat.le_refl _)
  have hrun := newFunc_run hm name ret params variadic
  rw [hf] at hrun
  have hdeclares : s.code.Declares s.entries.size { module, ret, params, variadic } (added s f module m name).code := by
    refine ⟨?_, (code_fresh (Nat.le_refl _)).2.2, rfl⟩
    ext1
    · rw [cset.blocks_eq (by rw [hme]; rfl), cpush.blocks_eq (by rw [hsize]; rfl)]
    · rw [cset.insts_eq (by rw [hme]; rfl), cpush.insts_eq (by rw [hsize]; rfl)]
    · rw [cset.funcs_eq (by rw [hme]; rfl), cpush.code_funcs]
      simp only [Entry.funcCode, hcode]
    · rfl
    · rfl
  unfold Along
  rw [hrun]
  refine ⟨⟨hgrows, hdeclares.adds⟩, hs.size_ne, ?_, ?_, hdeclares⟩
  · exact func?_eq_some.2 (by rw [cset.entry_of_ne (Ne.symm hne), cpush.entry_self])
  · exact module?_eq_some.2 cset.entry_self

lemma func?_of_declared (hs : s.WF) (hm : s.module? module = some m)
    (hl : m.declared.lookup name = some h) : ∃ f, s.func? h = some f ∧ f.module = module ∧ f.ident.name = name := by
  have hok := hs.entries module
  rw [module?_eq_some.1 hm] at hok
  obtain ⟨l, l', hdecl, -⟩ := lookup_eq_some_iff.1 hl
  obtain ⟨hmem, f, hf, hname⟩ := hok.2 (name, h) (by rw [hdecl]; simp)
  obtain ⟨f', hf', hfm⟩ := hok.1 h hmem
  cases hf.symm.trans hf'
  exact ⟨f, func?_eq_some.2 hf, hfm, hname⟩

lemma declareFunc_along (hs : s.WF) (module name type)
    (hplain : ∀ r ps v, s.funcParts? type = some (r, ps, v) → r.Plain ∧ ∀ t ∈ ps, t.Plain) :
    Along Adding s (declareFunc module name type) fun h s' => ∃ r ps v f,
      s.funcParts? type = some (r, ps, v) ∧ h ≠ noHandle ∧ s'.func? h = some f ∧ f.module = module ∧ f.ident.name = name ∧
      ((Quiet s s' ∧ s.type? type = some f.signature) ∨ f = bodiless module name r ps v ∧
          s.code.Declares h { module, ret := r, params := ps, variadic := v } s'.code) := by
  refine .bind (moduleOf_along module) ?_
  rintro m s' - ⟨rfl, hm, -⟩
  refine .bind (funcParts_along type) ?_
  rintro ⟨r, ps, v⟩ s1 - ⟨rfl, hp⟩
  cases hl : m.declared.lookup name with
  | none =>
    obtain ⟨hr, hps⟩ := hplain r ps v hp
    refine (newFunc_along hs hm name (funcParts?_holds hs hp) hr hps).mono fun h s2 _ hq => ?_
    exact ⟨r, ps, v, _, hp, hq.1, hq.2.1, rfl, rfl, .inr ⟨rfl, hq.2.2.2⟩⟩
  | some h =>
    rw [along_get_bind]
    cases hf : s1.func? h with
    | none => exact .throw
    | some f =>
      refine .bind ((internType_along f.signature hs (hs.holds_signature hf)).keep fun _ q => q.adding) ?_
      rintro existing s2 - ⟨q, he⟩
      refine .ite (fun heq => ?_) fun _ => .throw
      obtain ⟨f', hf', hfm, hname⟩ := func?_of_declared hs hm hl
      rw [hf] at hf'
      cases hf'
      obtain ⟨g, hg, hle⟩ := q.func (func?_eq_some.1 hf)
      obtain ⟨t, ht⟩ := Option.ne_none_iff_exists'.1 fun ht : s1.type? type = none => by simp [funcParts?, ht] at hp
      have hsig : g.signature = f.signature := by
        have hparams : g.params.toList.map ParamInfo.ty = f.params.toList.map ParamInfo.ty := hle.params
        simp only [FuncInfo.signature, hle.ret, hle.variadic, hparams]
      have htype : t = f.signature := by
        have ht' := q.type? ht
        rw [← heq, he] at ht'
        exact (Option.some.inj ht').symm
      refine .pure ⟨r, ps, v, g, hp, hs.ne_noHandle (by rw [func?_eq_some.1 hf]; simp),
        func?_eq_some.2 hg, hle.module.trans hfm, hle.ident ▸ hname, .inl ⟨q, ?_⟩⟩
      rw [ht, htype, hsig]

lemma makeModule_along (hs : s.WF) (name) :
    Along Quiet s (makeModule name) fun h s' => s.entries.size ≤ h ∧ h ≠ noHandle ∧ s'.module? h = some { name } := by
  refine .ite (fun _ => .throw) fun _ => ?_
  refine ⟨quiet_push ⟨rfl, rfl, rfl⟩ fun _ _ => ⟨fun g hg => ?_, fun p hp => ?_⟩, Nat.le_refl _,
    hs.size_ne, module?_eq_some.2 (changes_push s (.module { name })).entry_self⟩
  · cases hg
  · cases hp

/-- The same store but for which modules are in use and where the cursor is. -/
structure Dropped (s s' : Store) : Prop where
  size : s'.entries.size = s.entries.size
  entry : ∀ h, s'.entry h = s.entry h ∨ ∃ m b, s.entry h = .module m ∧ s'.entry h = .module { m with dropped := b }
  types : s'.types = s.types
  values : s'.values = s.values
  violations : s'.violations = s.violations

lemma dropModule_along (module) : Along Dropped s (dropModule module) := by
  have hsame : Dropped s s := ⟨rfl, fun _ => .inl rfl, rfl, rfl, rfl⟩
  unfold dropModule
  rw [along_get_bind]
  cases hm : s.module? module with
  | none => exact ⟨hsame, trivial⟩
  | some m =>
    refine .ite (fun _ => ⟨hsame, trivial⟩) fun _ => ⟨⟨by simp [setModule], fun h => ?_, rfl, rfl, rfl⟩, trivial⟩
    have hentry := entry_setIfInBounds s module (.module { m with dropped := true }) h
    by_cases hh : h = module ∧ module < s.entries.size
    · rw [if_pos hh] at hentry
      exact .inr ⟨m, true, hh.1 ▸ module?_eq_some.1 hm, hentry⟩
    · rw [if_neg hh] at hentry
      exact .inl hentry

namespace Dropped

variable {s' : Store}

section

variable (d : Dropped s s')

include d

lemma entry_iff (he : ∀ m, e ≠ .module m) : s'.entry h = e ↔ s.entry h = e := by
  rcases d.entry h with heq | ⟨m, b, hm, hm'⟩
  · rw [heq]
  · rw [hm, hm']
    exact ⟨fun h => absurd h.symm (he _), fun h => absurd h.symm (he _)⟩

lemma module_of (hm : s.entry h = .module m) : ∃ b, s'.entry h = .module { m with dropped := b } := by
  rcases d.entry h with heq | ⟨m', b, hm', hb⟩
  · exact ⟨m.dropped, heq.trans hm⟩
  · cases hm.symm.trans hm'
    exact ⟨b, hb⟩

lemma type?_eq (h) : s'.type? h = s.type? h := by
  rcases d.entry h with heq | ⟨m, b, hm, hm'⟩
  · simp only [type?, heq]
  · simp only [type?, hm, hm']

lemma operand?_eq (h) : s'.operand? h = s.operand? h := by
  rcases d.entry h with heq | ⟨m, b, hm, hm'⟩
  · simp only [operand?, heq]
  · simp only [operand?, hm, hm']

lemma code_eq : s'.code = s.code.move s'.active := by
  have hcases := d.entry
  ext1
  · funext h
    rcases hcases h with heq | ⟨m, b, hm, hm'⟩
    · simp only [code, Code.move, block?, heq]
    · simp only [code, Code.move, block?, hm, hm']
  · funext h
    rcases hcases h with heq | ⟨m, b, hm, hm'⟩
    · simp only [code, Code.move, inst?, heq]
    · simp only [code, Code.move, inst?, hm, hm']
  · funext h
    rcases hcases h with heq | ⟨m, b, hm, hm'⟩
    · simp only [code, Code.move, func?, heq]
    · simp only [code, Code.move, func?, hm, hm']
  · rfl
  · exact d.violations

lemma holds (ht : s.Holds t) : s'.Holds t := by
  intro k hk
  obtain ⟨i, hi⟩ := ht k hk
  exact ⟨i, (d.entry_iff (by simp)).2 hi⟩

lemma entryOk (he : s.EntryOk h e) : s'.EntryOk h e := by
  have hfunc : ∀ {x F}, s.entry x = .func F → s'.entry x = .func F := (d.entry_iff (by simp)).2
  have hblock : ∀ {x B}, s.entry x = .block B → s'.entry x = .block B := (d.entry_iff (by simp)).2
  have hinst : ∀ {x i}, s.entry x = .inst i → s'.entry x = .inst i := (d.entry_iff (by simp)).2
  cases e with
  | type t => exact ⟨he.1.mono (fun x u => (d.type?_eq x).trans) fun key x => by rw [d.types]; exact id, d.holds he.2⟩
  | const c => exact d.holds he
  | param f i => exact he.imp fun F hF => ⟨hfunc hF.1, hF.2⟩
  | func f =>
    obtain ⟨⟨m, hm, hmem⟩, hs, hb, hplain⟩ := he
    obtain ⟨b, hm'⟩ := d.module_of hm
    exact ⟨⟨_, hm', hmem⟩, d.holds hs, fun b hbf => (hb b hbf).imp fun B hB => ⟨hblock hB.1, hB.2⟩, hplain⟩
  | block b =>
    obtain ⟨hF, hi, he⟩ := he
    refine ⟨hF.imp fun F hF => ⟨hfunc hF.1, hF.2⟩, fun x hx => (hi x hx).imp fun _ hx => ⟨hinst hx.1, hx.2⟩,
      fun e hbe => ?_⟩
    exact ⟨(d.entry_iff (by simp)).2 (he e hbe).1, fun x hx => ((he e hbe).2 x hx).imp fun _ => hblock⟩
  | inst i =>
    refine ⟨d.holds he.1, he.2.1, fun e v hv => ?_, fun g vs hg => ?_⟩
    · obtain ⟨x, j, hx, hj, ha⟩ := he.2.2.1 e v hv
      exact ⟨x, j, hx, hinst hj, ha⟩
    · obtain ⟨B, F, G, hB, hF, hG, hmodule⟩ := he.2.2.2 g vs hg
      exact ⟨B, F, G, hblock hB, hfunc hF, hfunc hG, hmodule⟩
  | module m =>
    refine ⟨fun x hx => (he.1 x hx).imp fun f hf => ⟨hfunc hf.1, hf.2⟩, fun p hp => ⟨(he.2 p hp).1, ?_⟩⟩
    exact (he.2 p hp).2.imp fun f hf => ⟨hfunc hf.1, hf.2⟩
  | reserved => trivial
  | struct i => trivial
  | ending b => trivial

lemma wf (hs : s.WF) : s'.WF where
  reserved := (d.entry_iff (by simp)).2 hs.reserved
  size_pos := d.size ▸ hs.size_pos
  entries h := by
    rcases d.entry h with heq | ⟨m, b, hm, hm'⟩
    · rw [heq]
      exact d.entryOk (hs.entries h)
    · have hok := d.entryOk (hs.entries h)
      rw [hm] at hok
      rw [hm']
      exact hok
  types key h hh := by
    obtain ⟨t, ht, hk⟩ := hs.types key h (d.types ▸ hh)
    exact ⟨t, (d.entry_iff (by simp)).2 ht, hk.mono fun x u => (d.type?_eq x).trans⟩
  values v h hv := (d.operand?_eq h).trans (hs.values v h (d.values ▸ hv))
  violations v hv := d.size ▸ hs.violations v (d.violations ▸ hv)

end

end Dropped

end Emit

end Arbor.IR
