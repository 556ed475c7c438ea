import Arbor.Proofs.Expressions

/-! Statements do what the evaluator says: lowered code, run from where it was begun, comes to where the
flow of control goes, and the objects of the variables hold what the evaluator's store does. -/

namespace Arbor.Meaning

open IR Run Run.Image Lower Arbor.Tree Option

section

variable {img : Image} {n : Nat} {K : List Frame} {c c1 c2 c' : Code} {f f' : Frame} {m m' : Machine}
variable {id : Nat} {st : State} {s : Stmt} {objs objs' : List Nat} {vars vars' : List Val} {C : Context} {S : Site}
  {Γ0 Γ Γ' : Env} {names names' : List Text} {ρ : Locals} {call : Caller} {x y : Val}
variable {name : Text} {leave : Handle} {r : Res (Flow × List Val)}

/-! ### Variables -/

lemma Kept.grow (h : m.Kept objs m1) (hfresh : ∀ id ∈ objs1, id ∈ objs ∨ m.memory.object? id = none)
    (k : m1.Kept objs1 m') : m.Kept objs m' where
  objects id o hid ho := by
    refine k.objects id o (fun hmem => ?_) (h.objects id o hid ho)
    rcases hfresh id hmem with hold | hnone
    · exact hid hold
    · cases hnone.symm.trans ho

lemma Stored.exists_of_mem (h : Stored m objs vars) (hid : id ∈ objs) : ∃ x ∈ vars, m.Holds id x.value := by
  obtain ⟨i, hi, rfl⟩ := List.getElem_of_mem hid
  obtain ⟨hlen, hholds⟩ := List.forall₂_iff_get.1 h.holds
  exact ⟨vars[i], List.getElem_mem .., hholds i hi (hlen ▸ hi)⟩

structure Advances (c : Code) (f : Frame) (objs : List Nat) (vars : List Val) (m : Machine) (f' : Frame) (objs' : List Nat)
    (vars' : List Val) (m' : Machine) : Prop where
  calm : Calm c f f' objs m m'
  more : objs <+: objs'
  fresh : ∀ id ∈ objs', id ∈ objs ∨ m.memory.object? id = none
  types : ∀ (i : Nat) (x : Val), vars[i]? = some x → ∃ y : Val, vars'[i]? = some y ∧ y.ty = x.ty
  stored : Stored m' objs' vars'

namespace Advances

lemma of_calm (h : Calm c f f' [] m m') (hs : Stored m objs vars) : Advances c f objs vars m f' objs vars m' :=
  ⟨h.mono (List.nil_subset _), List.prefix_refl _, fun _ => .inl, fun _ x hx => ⟨x, hx, rfl⟩, hs.kept h.memory (by simp)⟩

lemma trans (hi : c.Sub c1) (h : Advances c f objs vars m f1 objs1 vars1 m1)
    (k : Advances c1 f1 objs1 vars1 m1 f' objs' vars' m') : Advances c f objs vars m f' objs' vars' m' where
  calm := ⟨fun g x hg => (k.calm.regs g x (hi g x hg)).trans (h.calm.regs g x hg),
    fun g i => (k.calm.params g i).trans (h.calm.params g i), Kept.grow h.calm.memory h.fresh k.calm.memory⟩
  more := h.more.trans k.more
  fresh id hid := by
    rcases k.fresh id hid with hold | hnone
    · exact h.fresh id hold
    · cases ho : m.memory.object? id with
      | none => exact .inr rfl
      | some o =>
        by_cases hid : id ∈ objs
        · obtain ⟨x, -, o', ho', -⟩ := h.stored.exists_of_mem (h.more.subset hid)
          cases hnone.symm.trans ho'
        · cases hnone.symm.trans (h.calm.memory.objects id o hid ho)
  types i x hx := by
    obtain ⟨y, hy, hty⟩ := h.types i x hx
    obtain ⟨z, hz, hty'⟩ := k.types i y hy
    exact ⟨z, hz, hty'.trans hty⟩
  stored := k.stored

end Advances

lemma Bound.advance (h : Bound c f objs vars b p) (hi : c.Sub c') (k : Advances c f objs vars m f' objs' vars' m') :
    Bound c' f' objs' vars' b p := by
  obtain ⟨hname, g, id, x, hb, hslot, hreg, hid, hx⟩ := h
  obtain ⟨y, hy, hty⟩ := k.types p.2 x hx
  refine ⟨hname, g, id, y, hty ▸ hb, hi g _ (hty ▸ hslot), (k.calm.regs g _ hslot).trans hreg, ?_, hy⟩
  obtain ⟨more, rfl⟩ := k.more
  obtain ⟨hlt, -⟩ := List.getElem?_eq_some_iff.1 hid
  rw [List.getElem?_append_left hlt, hid]

lemma Matches.advance (h : Matches c f objs vars Γ0 Γ ρ) (hi : c.Sub c')
    (k : Advances c f objs vars m f' objs' vars' m') : Matches c' f' objs' vars' Γ0 Γ ρ := by
  obtain ⟨inner, rfl, hinner⟩ := h
  exact ⟨inner, rfl, hinner.imp fun _ _ hframe => hframe.imp fun _ _ hb => hb.advance hi k⟩

lemma Ready.advance (r : Ready img C S Γ0 Γ names ρ vars objs c f m) (hr : Code.Region S.func L X c c')
    (k : Advances c f objs vars m f' objs' vars' m') (hst : img.Stands c' f') :
    Ready img C S Γ0 Γ names ρ vars' objs' c' f' m' :=
  ⟨r.known.mono hr.funcs, hr.at_end, r.scope, r.env.advance hr.insts k, r.deep, k.stored, hst⟩

lemma Matches.bind (h : Matches c f objs vars Γ0 Γ ρ) (hρ : ρ ≠ [])
    (hb : Bound c f objs vars (name.composed, b) (name.composed, place)) :
    Matches c f objs vars Γ0 (Γ.bind name b.1 b.2) (ρ.bind name place) := by
  obtain ⟨inner, rfl, hinner⟩ := h
  cases hinner with
  | nil => exact absurd rfl hρ
  | @cons frame places inner ρ hframe hinner =>
    exact ⟨(frame ++ [(name.composed, b)]) :: inner, rfl, .cons (List.rel_append hframe (.cons hb .nil)) hinner⟩

lemma Val.held_ty (x : Val) : x.ty.held = x.ty := by cases x <;> rfl

lemma Stored.push (h : Stored m objs vars) (k : m.Kept [id] m') (hid : id ∉ objs) (hx : m'.Holds id x.value) :
    Stored m' (objs ++ [id]) (vars ++ [x]) := by
  have hold := h.kept k fun i hi hmem => hid (List.mem_singleton.1 hmem ▸ hi)
  refine ⟨?_, List.rel_append hold.holds (.cons hx .nil)⟩
  rw [List.nodup_append]
  exact ⟨h.nodup, List.nodup_singleton _, fun i hi j hj heq => hid (by rw [← List.mem_singleton.1 hj, ← heq]; exact hi)⟩

lemma compute_store {s : Store} (hi : info.inst = .store v w) (hv : value? f v = some a)
    (hw : value? f w = some (.ptr id 0)) (ho : m.memory.object? id = some o) (hfreed : o.freed = false) :
    Exec.compute s f info m = .ok .absent (m.put id a) := by
  simp only [Exec.compute, hi, bind, EStateM.bind, eval_of_value? hv, eval_of_value? hw, Exec.store, Proofs.get_apply, ho, hfreed]
  rfl

lemma exists_alloca (s t) : ∃ o : Object, o.freed = false ∧ ∀ (info) (f) (m),
    info.inst = .alloca t → Exec.compute s f info m =
      .ok (.ptr (m.memory.objects.size + 1) 0) { m with memory := { objects := m.memory.objects.push o } } := by
  refine ⟨⟨Int64.ofNat ?size, {}, false⟩, rfl, fun info f m hi => ?value⟩
  case value =>
    simp only [Exec.compute, hi]
    rfl

lemma alloca_leads (hst : img.Stands c f) (e : c.Emits g (.alloca t) (.ptr t) c') (hfit : c'.Fits img.store.code) :
    img.Leads n ⟨f, K, m⟩ (.ok ()) fun _ st => ∃ f' m' o, st = ⟨f', K, m'⟩ ∧ img.Stands c' f' ∧
      f'.regs = f.regs.insert (.inst g) (.ptr (m.memory.objects.size + 1) 0) ∧ m.Kept [] m' ∧ o.freed = false ∧
      m'.memory.object? (m.memory.objects.size + 1) = some o := by
  obtain ⟨o, hfreed, hcompute⟩ := exists_alloca img.store t
  refine (hst.value e hfit rfl rfl nofun
    fun info hi _ => hcompute info f (counted m) hi).mono fun _ st hQ => ?_
  obtain ⟨f', rfl, hst', hregs⟩ := hQ
  exact ⟨f', _, o, rfl, hst', hregs, (counted_kept [] m).trans (Machine.alloc_kept o), hfreed, by simp [Memory.object?, counted]⟩

lemma bind_leads (r : Ready img C S Γ0 Γ names ρ vars objs c f m) (hb : Binds Γ name v x.ty c Γ' c')
    (hfit : c'.Fits img.store.code) (hv : ∀ f' m', Calm c f f' [] m m' → value? f' v = some x.value) :
    img.Leads n ⟨f, K, m⟩ (.ok ()) fun _ st => ∃ f' m' id, st = ⟨f', K, m'⟩ ∧ img.Stands c' f' ∧
      Advances c f objs vars m f' (objs ++ [id]) (vars ++ [x]) m' ∧
      Matches c' f' (objs ++ [id]) (vars ++ [x]) Γ0 Γ' (ρ.bind name vars.length) := by
  cases hb with
  | @mk g k c1 c' halloc hty hstore =>
    rw [x.held_ty] at halloc ⊢
    refine (alloca_leads r.stands halloc (hfit.emits hstore rfl)).seq fun st hQ => ?_
    obtain ⟨f1, m1, o, rfl, hst1, hregs1, hkept1, hfreed, ho⟩ := hQ
    have hcalm1 : Calm c f f1 [] m m1 := .insert halloc hregs1 hkept1
    have hslot : value? f1 (.inst g) = some (.ptr (m.memory.objects.size + 1) 0) := by
      simp only [value?, hregs1, Std.HashMap.getElem?_insert_self]
    refine (hst1.store hstore hfit fun info hi =>
      compute_store hi (hv f1 m1 hcalm1) hslot ho hfreed).seq fun st hQ => .ok ?_
    obtain ⟨f2, rfl, hst2, hregs2⟩ := hQ
    have hnone : m.memory.object? (m.memory.objects.size + 1) = none := by
      cases hn : m.memory.object? (m.memory.objects.size + 1) with
      | none => rfl
      | some o => exact absurd (Machine.object?_le hn) (by omega)
    have hid : m.memory.objects.size + 1 ∉ objs := fun hmem => by
      obtain ⟨-, -, o, ho, -⟩ := r.stored.exists_of_mem hmem
      cases hnone.symm.trans ho
    have hput : m1.Kept [m.memory.objects.size + 1] ((counted m1).put (m.memory.objects.size + 1) x.value) :=
      (counted_kept _ m1).trans (Machine.put_kept (m := counted m1) ho _)
    have hstored := (r.stored.kept hkept1 (by simp)).push hput hid (Machine.put_holds ho hfreed x.value)
    have hadv : Advances c f objs vars m f2 (objs ++ [m.memory.objects.size + 1]) (vars ++ [x])
        ((counted m1).put (m.memory.objects.size + 1) x.value) := by
      refine ⟨⟨fun h y hy => hregs2 ▸ hcalm1.regs h y hy, fun h i => hregs2 ▸ hcalm1.params h i, ?_⟩, List.prefix_append ..,
        ?_, fun i y hy => ⟨y, ?_, rfl⟩, hstored⟩
      · exact (Kept.grow hkept1 (by simpa using hnone) hput).mono (List.nil_subset _)
      · intro id hmem
        rcases List.mem_append.1 hmem with hold | hnew
        · exact .inl hold
        · exact .inr (List.mem_singleton.1 hnew ▸ hnone)
      · obtain ⟨hlt, -⟩ := List.getElem?_eq_some_iff.1 hy
        rw [List.getElem?_append_left hlt, hy]
    refine ⟨f2, _, m.memory.objects.size + 1, rfl, hst2, hadv, ?_⟩
    have hinsts : c.Sub c' := fun _ _ hy => hstore.inst_mono (halloc.inst_mono hy)
    refine (r.env.advance hinsts hadv).bind r.deep ⟨rfl, g, m.memory.objects.size + 1, x, rfl,
      hstore.inst_mono halloc.inst_self, ?_, ?_, by simp⟩
    · rw [hregs2, hregs1, Std.HashMap.getElem?_insert_self]
    · rw [← List.Forall₂.length_eq r.stored.holds]
      simp

lemma Stored.set (h : Stored m objs vars) (hid : objs[i]? = some id) (k : m.Kept [id] m')
    (hx : m'.Holds id x.value) : Stored m' objs (vars.set i x) := by
  refine ⟨h.nodup, ?_⟩
  obtain ⟨hlen, hholds⟩ := List.forall₂_iff_get.1 h.holds
  obtain ⟨hlt, rfl⟩ := List.getElem?_eq_some_iff.1 hid
  refine List.forall₂_iff_get.2 ⟨by simpa using hlen, fun j hj hj' => ?_⟩
  simp only [List.get_eq_getElem, List.getElem_set]
  by_cases hij : i = j
  · subst hij
    rwa [if_pos rfl]
  · rw [if_neg hij]
    refine (hholds j hj (hlen ▸ hj)).kept k fun hmem => hij ?_
    exact ((List.Nodup.getElem_inj_iff h.nodup).1 (List.mem_singleton.1 hmem)).symm

lemma assign_leads (hst : img.Stands c f) (hs : Stored m objs vars) (hv : Has c f v y)
    (hreg : f.regs[Operand.inst g]? = some (.ptr id 0)) (hid : objs[i]? = some id) (hx : vars[i]? = some x) (hty : y.ty = x.ty)
    (e : c.Emits k (.store v (.inst g)) .void c') (hfit : c'.Fits img.store.code) :
    img.Leads n ⟨f, K, m⟩ (.ok ()) fun _ st => ∃ f' m', st = ⟨f', K, m'⟩ ∧ img.Stands c' f' ∧
      Advances c f objs vars m f' objs (vars.set i y) m' := by
  obtain ⟨-, -, o, ho, hfreed, -⟩ := hs.exists_of_mem (List.mem_of_getElem? hid)
  refine (hst.store e hfit fun info hi => compute_store hi hv.value? hreg ho hfreed).mono fun _ st hQ => ?_
  obtain ⟨f', rfl, hst', hregs⟩ := hQ
  have hput : m.Kept [id] ((counted m).put id y.value) := (counted_kept _ m).trans (Machine.put_kept (m := counted m) ho _)
  refine ⟨f', _, rfl, hst', ⟨fun h z hz => by rw [hregs], fun h j => by rw [hregs], hput.mono ?_⟩, List.prefix_refl _,
    fun _ => .inl, fun j z hz => ?_, hs.set hid hput (Machine.put_holds ho hfreed y.value)⟩
  · simpa using List.mem_of_getElem? hid
  · rw [List.getElem?_set]
    by_cases hij : i = j
    · subst hij
      obtain ⟨hlt, -⟩ := List.getElem?_eq_some_iff.1 hz
      exact ⟨y, by simp [hlt], hty.trans (congrArg Val.ty (mem_unique hx hz))⟩
    · exact ⟨z, by rw [if_neg hij, hz], rfl⟩

lemma given_leads (hs : Serves img n C Γ0 call) (hi : InitTo S Γ s c c' v t)
    (hsimple : ∀ e, s.value = some e → Simple C names e)
    (ht : ∀ ref, s.type = some ref → ∃ w, C.type? (some ref) = some (.int w))
    (r : Ready img C S Γ0 Γ names ρ vars objs c f m) (hfit : c'.Fits img.store.code) :
    img.Leads (n + 1) ⟨f, K, m⟩ (given C call s ρ vars) (Comes img K c c' f m v t) := by
  cases hi with
  | value he hv =>
    simp only [given, he]
    exact valueTo_leads hs hv (hsimple _ he) r hfit
  | zero hn hsome htype hz =>
    obtain ⟨ref, href⟩ := isSome_iff_exists.1 hsome
    obtain ⟨w, hw⟩ := ht ref href
    rw [← href] at hw
    cases r.known.types _ _ _ hw htype
    simp only [given, hn, hw]
    have hk : Const.zeroOf? (.int w) = some (.int w 0) := by cases w <;> rfl
    cases mem_unique hk hz
    exact .ok ⟨f, m, rfl, r.stands, .refl .., .const, rfl⟩

/-! ### Loops -/

/-- Where a part of a loop goes on: at `next`, with a `continue` at `again`, or after the loop. -/
inductive Turn (img : Image) (K : List Frame) (S : Site) (next again leave : Handle) (f : Frame) (m : Machine) : Flow → Prop where
  | next {ρ : Locals} (h : Arrives next f) : Turn img K S next again leave f m (.next ρ)
  | again (h : Arrives again f) : Turn img K S next again leave f m .again
  | leave (h : Arrives leave f) : Turn img K S next again leave f m .leave
  | ret {x : Val} (h : img.Returns K x.value ⟨f, K, m⟩) (ht : S.ret = x.ty) :
      Turn img K S next again leave f m (.ret x)

inductive Done (img : Image) (K : List Frame) (S : Site) (leave : Handle) (f : Frame) (m : Machine) : Option Val → Prop where
  | leave (h : Arrives leave f) : Done img K S leave f m none
  | ret {x : Val} (h : img.Returns K x.value ⟨f, K, m⟩) (ht : S.ret = x.ty) :
      Done img K S leave f m (some x)

lemma rounds_leads (S cond step body leave) {I : Frame → List Nat → List Val → Machine → Prop}
    {run again : List Val → Res (Flow × List Val)}
    (htest : ∀ f objs vars m, I f objs vars m → Arrives cond f → ∃ st, img.after 1 ⟨f, K, m⟩ = some st ∧
      img.Leads n st (test vars) fun b st => ∃ f' m', st = ⟨f', K, m'⟩ ∧ I f' objs vars m' ∧
        Arrives (if b then body else leave) f')
    (hrun : ∀ f objs vars m, I f objs vars m → Arrives body f → img.Leads n ⟨f, K, m⟩ (run vars) fun r st =>
      ∃ f' objs' m', st = ⟨f', K, m'⟩ ∧ I f' objs' r.2 m' ∧ Turn img K S step step leave f' m' r.1)
    (hstep : ∀ f objs vars m, I f objs vars m → Arrives step f → ∃ st, img.after 1 ⟨f, K, m⟩ = some st ∧
      img.Leads n st (again vars) fun r st => ∃ f' objs' m', st = ⟨f', K, m'⟩ ∧ I f' objs' r.2 m' ∧
        Turn img K S cond step leave f' m' r.1) (k) (hk : k ≤ n) :
    ∀ {f objs vars m} (b), I f objs vars m → Arrives (if b then cond else step) f →
      img.Leads k ⟨f, K, m⟩ (rounds test run again k b vars) fun r st =>
        ∃ f' objs' m', st = ⟨f', K, m'⟩ ∧ I f' objs' r.2 m' ∧ Done img K S leave f' m' r.1 := by
  induction k with
  | zero => exact fun b _ _ => ⟨0, _, rfl, .inr (Nat.zero_le _)⟩
  | succ k ih =>
    have hle : k ≤ n := by omega
    intro f objs vars m b hI harr
    cases b with
    | true =>
      obtain ⟨st, hst, hl⟩ := htest f objs vars m hI harr
      refine .later hst ((hl.weaken hle).bind fun z st hQ => ?_)
      obtain ⟨f1, m1, rfl, hI1, harr1⟩ := hQ
      cases z with
      | false => exact .ok ⟨f1, objs, m1, rfl, hI1, .leave harr1⟩
      | true =>
        refine ((hrun f1 objs vars m1 hI1 harr1).weaken hle).bind fun r st hQ => ?_
        obtain ⟨k', vars'⟩ := r
        obtain ⟨f2, objs2, m2, rfl, hI2, hturn⟩ := hQ
        cases hturn with
        | next h | again h => exact ih hle false hI2 h
        | leave h => exact .ok ⟨f2, objs2, m2, rfl, hI2, .leave h⟩
        | ret h ht => exact .ok ⟨f2, objs2, m2, rfl, hI2, .ret h ht⟩
    | false =>
      obtain ⟨st, hst, hl⟩ := hstep f objs vars m hI harr
      refine .later hst ((hl.weaken hle).bind fun r st hQ => ?_)
      obtain ⟨k', vars'⟩ := r
      obtain ⟨f2, objs2, m2, rfl, hI2, hturn⟩ := hQ
      cases hturn with
      | next h => exact ih hle true hI2 h
      | again h => exact ih hle false hI2 h
      | leave h => exact .ok ⟨f2, objs2, m2, rfl, hI2, .leave h⟩
      | ret h ht => exact .ok ⟨f2, objs2, m2, rfl, hI2, .ret h ht⟩

/-! ### What a statement does by its kind -/

section

variable {s : Stmt} {b : Expr}

lemma SimpleItem.of_bind (h : SimpleItem C names s names') (hk : s.kind? = some .bind) :
    names' = s.name.composed :: names ∧ (∀ e, s.value = some e → Simple C names e) ∧
      ∀ ref, s.type = some ref → ∃ w, C.type? (some ref) = some (.int w) := by
  cases h with
  | stmt h => cases h <;> simp_all
  | bind _ h ht => exact ⟨rfl, h, ht⟩

lemma SimpleItem.of_stmt (h : SimpleItem C names s names') (hk : s.kind? ≠ some .bind) :
    SimpleStmt C names s ∧ names' = names := by
  cases h with
  | stmt h => exact ⟨h, rfl⟩
  | bind hk' => exact absurd hk' hk

lemma SimpleStmt.parts (h : SimpleStmt C names s) : s.kind? = some k → match k with
    | .block => ∃ names', SimpleList C names (s.list.getD []) names'
    | .assign => ∀ a b, s.target = some a → s.value = some b →
      a.kind? = some .ident ∧ (a.name.composed ∈ names ∨ (C.lets a.name).isSome) ∧ Simple C names b
    | .ret | .eval => ∀ e, s.value = some e → Simple C names e
    | .cond => (∀ e, s.cond = some e → Simple C names e) ∧ (∀ a, s.yes = some a → SimpleStmt C names a) ∧
      ∀ a, s.no = some a → SimpleStmt C names a
    | .loop => ∃ names', (∀ a, s.init = some a → SimpleItem C names a names') ∧ (s.init = none → names' = names) ∧
      (∀ e, s.cond = some e → Simple C names' e) ∧ (∀ a, s.step = some a → SimpleStmt C names' a) ∧
      ∀ a, s.body = some a → SimpleStmt C names' a
    | .leave | .next => True
    | _ => False := by
  cases h with
  | loop hk hinit hnone he hstep hbody =>
    intro hk'
    cases hk.symm.trans hk'
    exact ⟨_, hinit, hnone, he, hstep, hbody⟩
  | _ => grind

end

mutual

lemma stmtTo_env {L : Option (Handle × Handle)} {Γ Γ' : Env} {s : Stmt} {c c' : Code} :
    StmtTo S L Γ s c Γ' c' → SimpleStmt C names s → Γ' = Γ
  | .bind hk .., h | .bindAs hk .., h => (h.parts hk).elim
  | .cond hk _ ha _ _ _ _ _ hleft _ hright _, h =>
    have hparts := (h.parts hk).2
    (partTo_env hright hparts.2).trans (partTo_env hleft fun _ hb => hparts.1 _ (ha.trans hb))
  | .block .., _ | .assign .., _ | .ret .., _ | .retValue .., _ | .loop .., _ | .leave .., _ | .next .., _ | .eval .., _
  | .drop .., _ => rfl

lemma partTo_env {L : Option (Handle × Handle)} {Γ Γ' : Env} {p : Option Stmt} {c c' : Code} :
    PartTo S L Γ p c Γ' c' → (∀ a, p = some a → SimpleStmt C names a) → Γ' = Γ
  | .none, _ => rfl
  | .some h, hp => stmtTo_env h (hp _ rfl)

end

/-! ### The simulation -/

lemma SimpleList.of_cons (h : SimpleList C names (some s :: rest) names') :
    ∃ names1, SimpleItem C names s names1 ∧ SimpleList C names1 rest names' := by
  cases h with
  | cons h hrest => exact ⟨_, h, hrest⟩

lemma Ready.inside (r : Ready img C S Γ0 Γ names ρ vars objs c f m) :
    Ready img C S Γ0 ([] :: Γ) names ([] :: ρ) vars objs c f m := by
  refine ⟨r.known, r.here, fun name hmem => ?_, ?_, List.cons_ne_nil _ _, r.stored, r.stands⟩
  · simpa [Locals.find?] using r.scope name hmem
  · obtain ⟨inner, rfl, hinner⟩ := r.env
    exact ⟨[] :: inner, rfl, .cons .nil hinner⟩

lemma Ready.cursor_func (r : Ready img C S Γ0 Γ names ρ vars objs c f m) (hcur : c.Cursor b B) : S.func = B.func := by
  obtain ⟨a, A, ha, hA, hfunc⟩ := r.here
  cases mem_unique ha hcur.active
  cases mem_unique hA hcur.block
  exact hfunc.symm

inductive Lands (img : Image) (K : List Frame) (S : Site) (L : Option (Handle × Handle)) (Γ0 Γ : Env) (names : List Text)
    (c : Code) (f : Frame) (objs : List Nat) (vars : List Val) (m : Machine) : Flow → Prop where
  | next {ρ : Locals} (hst : img.Stands c f) (env : Matches c f objs vars Γ0 Γ ρ) (deep : ρ ≠ [])
      (scope : ∀ name : Text, name.composed ∈ names → (ρ.find? name).isSome) :
      Lands img K S L Γ0 Γ names c f objs vars m (.next ρ)
  | leave {leave next : Handle} (hL : L = some (leave, next)) (h : Arrives leave f) :
      Lands img K S L Γ0 Γ names c f objs vars m .leave
  | again {leave next : Handle} (hL : L = some (leave, next)) (h : Arrives next f) :
      Lands img K S L Γ0 Γ names c f objs vars m .again
  | ret {x : Val} (h : img.Returns K x.value ⟨f, K, m⟩) (ht : S.ret = x.ty) :
      Lands img K S L Γ0 Γ names c f objs vars m (.ret x)

def Goes (img : Image) (K : List Frame) (S : Site) (L : Option (Handle × Handle)) (Γ0 Γ : Env) (names : List Text)
    (c0 c : Code) (f0 : Frame) (objs0 : List Nat) (vars0 : List Val) (m0 : Machine) (r : Flow × List Val) (st : State) : Prop :=
  ∃ f objs m, st = ⟨f, K, m⟩ ∧ Advances c0 f0 objs0 vars0 m0 f objs r.2 m ∧
    Lands img K S L Γ0 Γ names c f objs r.2 m r.1

lemma Advances.of_regs (h : Advances c f objs vars m f1 objs' vars' m') (hregs : f'.regs = f1.regs) :
    Advances c f objs vars m f' objs' vars' m' :=
  ⟨⟨fun g x hg => by rw [hregs]; exact h.calm.regs g x hg, fun g i => by rw [hregs]; exact h.calm.params g i, h.calm.memory⟩,
    h.more, h.fresh, h.types, h.stored⟩

variable {L : Option (Handle × Handle)}

lemma Goes.after {r : Flow × List Val} (k : Advances c0 f0 objs0 vars0 m0 f objs vars m)
    (hi : c0.Sub c) (h : Goes img K S L Γ0 Γ names c c' f objs vars m r st) :
    Goes img K S L Γ0 Γ names c0 c' f0 objs0 vars0 m0 r st := by
  obtain ⟨f', objs', m', rfl, hadv, hlands⟩ := h
  exact ⟨f', objs', m', rfl, k.trans hi hadv, hlands⟩

lemma jump_leads {target : Handle} (hst : img.Stands c f) (hj : Leaves c target c') (hfit : c'.Fits img.store.code) :
    img.Leads n ⟨f, K, m⟩ (.ok ()) fun _ st => ∃ f', st = ⟨f', K, m⟩ ∧ Arrives target f' ∧ f'.regs = f.regs := by
  cases hj with
  | ended h =>
    obtain ⟨b, B, -, -, hcur, -⟩ := hst.place
    exact absurd ⟨b, B, hcur⟩ h
  | jump e =>
    refine (hst.br e hfit).mono fun _ st hQ => ?_
    obtain ⟨f', rfl, harr, hregs, -⟩ := hQ
    exact ⟨f', rfl, harr, hregs⟩

lemma join_leads {after : Handle}
    (hrun : img.Leads n st r (Goes img K S L Γ0 Γ names c c1 f objs vars m)) (hj : Leaves c1 after c2)
    (hfit2 : c2.Fits img.store.code) (hB : c'.blocks after = some { func := S.func })
    (hfit : (c'.move (some after)).Fits img.store.code) (hi : c1.Sub c') :
    img.Leads n st r (Goes img K S L Γ0 Γ names c (c'.move (some after)) f objs vars m) := by
  refine Leads.andThen hrun fun r st hQ => ?_
  obtain ⟨k, vars'⟩ := r
  obtain ⟨f1, objs1, m1, rfl, hadv, hlands⟩ := hQ
  cases hlands with
  | next hst env deep scope =>
    refine (jump_leads hst hj hfit2).seq fun st hQ => .ok ?_
    obtain ⟨f2, rfl, harr, hregs⟩ := hQ
    exact ⟨f2, objs1, m1, rfl, hadv.of_regs hregs,
      .next (harr.stands hB rfl rfl hfit) (env.mono (show ∀ g y, _ → (c'.move (some after)).insts g = some y from hi)
        (Calm.of_regs hregs : Calm _ _ _ [] m1 m1)) deep scope⟩
  | leave | again | ret => exact .ok ⟨f1, objs1, m1, rfl, hadv, by constructor <;> assumption⟩

lemma turn_leads (hrun : img.Leads n st r (Goes img K S (some (leave, again)) Γ0 Γ names c c1 f objs vars m))
    (hj : Leaves c1 next c2) (hfit2 : c2.Fits img.store.code) (k : Advances c0 f0 objs0 vars0 m0 f objs vars m)
    (hi : c0.Sub c) :
    img.Leads n st r fun r st => ∃ f' objs' m', st = ⟨f', K, m'⟩ ∧
      Advances c0 f0 objs0 vars0 m0 f' objs' r.2 m' ∧ Turn img K S next again leave f' m' r.1 := by
  refine Leads.andThen hrun fun r st hQ => ?_
  obtain ⟨k', vars'⟩ := r
  obtain ⟨f1, objs1, m1, rfl, hadv, hlands⟩ := hQ
  have hadv' := k.trans hi hadv
  cases hlands with
  | next hst =>
    refine (jump_leads hst hj hfit2).seq fun st hQ => .ok ?_
    obtain ⟨f2, rfl, harr, hregs⟩ := hQ
    exact ⟨f2, objs1, m1, rfl, hadv'.of_regs hregs, .next harr⟩
  | leave hL h =>
    cases hL
    exact .ok ⟨f1, objs1, m1, rfl, hadv', .leave h⟩
  | again hL h =>
    cases hL
    exact .ok ⟨f1, objs1, m1, rfl, hadv', .again h⟩
  | ret h ht => exact .ok ⟨f1, objs1, m1, rfl, hadv', .ret h ht⟩

lemma initial_typed (hs : s.type.isSome) (ht : C.type? s.type = some t) :
    initial C call s ρ vars = given C call s ρ vars >>= adapt t := by
  obtain ⟨ref, href⟩ := isSome_iff_exists.1 hs
  unfold initial
  simp only [ht, elim_some]
  rw [href]

lemma find?_bind (hρ : ρ ≠ [])
    (h : other.composed = name.composed ∨ (ρ.find? other).isSome) : ((ρ.bind name place).find? other).isSome := by
  cases ρ with
  | nil => exact absurd rfl hρ
  | cons frame outer =>
    simp only [Locals.find?, Locals.bind, List.findSome?_cons, List.lookup_append] at h ⊢
    cases hf : frame.lookup other.composed with
    | some p => simp
    | none =>
      simp only [hf] at h ⊢
      by_cases heq : other.composed = name.composed
      · simp [heq]
      · rw [List.lookup_cons, beq_false_of_ne heq]
        exact h.resolve_left heq

lemma bind_ne_nil (hρ : ρ ≠ []) : ρ.bind name place ≠ [] := by
  cases ρ with
  | nil => exact absurd rfl hρ
  | cons => exact List.cons_ne_nil _ _

lemma bound_leads (r : Ready img C S Γ0 Γ names ρ vars objs c f m)
    (hrun : img.Leads n st r' (Comes img K c c1 f m v t)) (hb : Binds Γ name v t c1 Γ' c')
    (hregion : Code.Region S.func [] [] c c1) (hfit : c'.Fits img.store.code) :
    img.Leads n st (r' >>= fun x => .ok (.next (ρ.bind name vars.length), vars ++ [x]))
      (Goes img K S L Γ0 Γ' (name.composed :: names) c c' f objs vars m) := by
  refine hrun.bind fun x st hQ => ?_
  obtain ⟨f1, m1, rfl, hst1, hcalm, hx, rfl⟩ := hQ
  have r1 := r.next hregion hcalm hst1
  refine (bind_leads r1 hb hfit fun f' m' k => (hx.mono (fun _ _ h => h) k).value?).seq fun st hQ => .ok ?_
  obtain ⟨f2, m2, id, rfl, hst2, hadv, henv⟩ := hQ
  refine ⟨f2, objs ++ [id], m2, rfl, (Advances.of_calm hcalm r.stored).trans hregion.insts hadv,
    .next hst2 henv (bind_ne_nil r.deep) fun other hmem => find?_bind r.deep ?_⟩
  exact (List.mem_cons.1 hmem).imp_right (r.scope other)

lemma exprTo_ident (hk : e.kind? = some .ident) (h : ExprTo S Γ e c c' v t) :
    c' = c ∧ Γ.find? e.name = some (v, t) := by
  cases h with
  | ident _ hv => exact ⟨rfl, hv⟩
  | literal hl => cases hl <;> simp_all
  | _ => simp_all

lemma assignment_leads (hs : Serves img n C Γ0 call) (r : Ready img C S Γ0 Γ names ρ vars objs c f m) (hk : s.kind? = some .assign) (ha : s.target = some a)
    (hb : s.value = some b) (hsimple : SimpleStmt C names s) (hl : ExprTo S Γ a c c1 l tl)
    (hr : ExprTo S Γ b c1 c2 r0 tr) (hslot : Emit.SlotOf c2 l g e) (hd : Deref c2 r0 tr c3 v t)
    (hconv : (c4 = c3 ∧ v' = v ∧ t' = t) ∨ Converts c3 v t e c4 v' t') (hty : c4.tyOf v' = e)
    (hstore : c4.Emits k (.store v' (.inst g)) .void c') (hfit : c'.Fits img.store.code) :
    img.Leads (n + 1) ⟨f, K, m⟩ (exec C call S.ret (n + 1) s ρ vars)
      (Goes img K S L Γ0 Γ names c c' f objs vars m) := by
  obtain ⟨hak, hname, hsb⟩ := hsimple.parts hk _ _ ha hb
  obtain ⟨rfl, hfind⟩ := exprTo_ident hak hl
  obtain ⟨hnone, hfind'⟩ | ⟨p, q, ⟨-, g', id, x, hp, halloca, hreg, hid, hx⟩, hfind', hplace⟩ := r.env.find a.name
  · obtain ⟨x, hx⟩ := isSome_iff_exists.1 (hname.resolve_left fun h => by simpa [hnone] using r.scope a.name h)
    obtain ⟨w, p, rfl, hlet⟩ := r.known.lets a.name x hx
    cases some.inj (hfind.symm.trans (hfind'.trans hlet))
    cases hslot
  · cases some.inj (hfind.symm.trans (hfind'.trans (congrArg some hp)))
    rw [exec_eq]
    simp only [execFrom, hk, place?, ha, bind_some, hak, if_pos, hplace, hb, hx]
    have hvalue : ValueTo S Γ b c1 c3 v t := .mk hr hd
    have hregion := hvalue.region r.here []
    have hslot' : g = g' ∧ e = x.ty := by
      have hold := (hr.region r.here []).insts _ _ halloca
      cases hslot with
      | slot h =>
        cases hold.symm.trans h
        exact ⟨rfl, rfl⟩
      | loaded h _ => cases hold.symm.trans h
    obtain ⟨rfl, rfl⟩ := hslot'
    -- What is stored has the type of the variable, with or without a conversion.
    have hconvert : ∀ {y : Val} {f1 : Frame} {m1 : Machine}, Has c3 f1 v y → t = y.ty → img.Stands c3 f1 →
        img.Leads (n + 1) ⟨f1, K, m1⟩ (adapt x.ty y) fun z st =>
          z.ty = x.ty ∧ Comes img K c3 c4 f1 m1 v' z.ty z st := by
      intro y f1 m1 hy ht hst1
      cases ht
      rcases hconv with ⟨rfl, rfl, -⟩ | hconv
      · have hsame : y.ty = x.ty := hy.tyOf.symm.trans hty
        rw [adapt_same hsame]
        exact .ok ⟨hsame, f1, m1, rfl, hst1, .refl .., hy, rfl⟩
      · exact adapts_leads (hfit.emits hstore rfl) hst1 hy hconv
    have hline : Code.Line c3 c4 := by
      rcases hconv with ⟨rfl, -, -⟩ | hconv
      · exact .refl
      · exact hconv.coerces.line
    have hregion' := (Code.Region.refl hregion.at_end (L := [])).line hline
    have hfit4 := hfit.emits hstore rfl
    refine (valueTo_leads hs hvalue hsb r (hfit4.line hregion.at_end hline)).bind fun y st hQ => ?_
    obtain ⟨f1, m1, rfl, hst1, hcalm1, hy, ht⟩ := hQ
    refine (hconvert hy ht hst1).bind fun z st hQ => ?_
    obtain ⟨hzty, f2, m2, rfl, hst2, hcalm2, hz, -⟩ := hQ
    have hcalm := hcalm1.trans hregion.insts hcalm2
    have hinsts : c1.Sub c4 := fun h y hy => hregion'.insts h y (hregion.insts h y hy)
    refine (assign_leads hst2 (r.stored.kept hcalm.memory (by simp)) hz ((hcalm.regs _ _ halloca).trans hreg) hid hx hzty hstore
      hfit).seq fun st hQ => .ok ?_
    obtain ⟨f3, m3, rfl, hst3, hadv⟩ := hQ
    have hadv' := (Advances.of_calm hcalm r.stored).trans hinsts hadv
    exact ⟨f3, objs, m3, rfl, hadv',
      .next hst3 (r.env.advance (fun h y hy => hstore.inst_mono (hinsts h y hy)) hadv') r.deep r.scope⟩

lemma test_leads {body : Handle} (hs : Serves img n C Γ0 call) (r : Ready img C S Γ0 Γ names ρ vars objs c f m)
    (h : LoopCondTo S Γ body leave e c c') (hsimple : ∀ a, e = some a → Simple C names a)
    (hfit : c'.Fits img.store.code) :
    img.Leads (n + 1) ⟨f, K, m⟩ (e.elim (.ok true) fun a => (eval C call ρ vars a).map Val.isTrue) fun b st =>
      ∃ f' m', st = ⟨f', K, m'⟩ ∧ Calm c f f' [] m m' ∧ Arrives (if b then body else leave) f' := by
  cases h with
  | none h =>
    refine (r.stands.br h hfit).bind fun _ st hQ => .ok ?_
    obtain ⟨f', rfl, harr, hregs, -⟩ := hQ
    exact ⟨f', m, rfl, .of_regs hregs, harr⟩
  | @some a _ _ _ _ _ hv h =>
    have hmap : (eval C call ρ vars a).map Val.isTrue = eval C call ρ vars a >>= fun x => .ok x.isTrue := by
      cases eval C call ρ vars a <;> rfl
    refine (valueTo_leads hs hv (hsimple a rfl) r (hfit.ends h)).bind fun z st hQ => ?_
    obtain ⟨f1, m1, rfl, hst1, hcalm, hz, -⟩ := hQ
    refine (hst1.condBr h hfit hz.value?).bind fun _ st hQ => .ok ?_
    obtain ⟨f2, rfl, harr, hregs, -⟩ := hQ
    refine ⟨f2, m1, rfl, hcalm.same hregs, ?_⟩
    rw [toInt_value] at harr
    simpa [Val.isTrue] using harr

lemma loop_leads (hs : Serves img n C Γ0 call) {cond step body : Handle}
    (r : Ready img C S Γ0 Γ names ρ vars objs c f m)
    (hL : ∀ b ∈ targets L, c.Clean S.func b) (hk : s.kind? = some .loop) (hb : s.body = some b)
    (hinit : PartTo S L ([] :: Γ) s.init c Γ1 c1) (hcond : c1.Opens cond S.func c2) (hstep : c2.Opens step S.func c3)
    (hbody : c3.Opens body S.func c4) (hleave : c4.Opens leave S.func c5) (henter : Leaves c5 cond c6)
    (htest : LoopCondTo S Γ1 body leave s.cond (c6.move (some cond)) c7)
    (hrun : PartTo S (some (leave, step)) Γ1 (some b) (c7.move (some body)) Γ2 c8) (hnext : Leaves c8 step c9)
    (hagain : PartTo S (some (leave, step)) Γ2 s.step (c9.move (some step)) Γ3 c10) (hback : Leaves c10 cond c')
    (hfit : (c'.move (some leave)).Fits img.store.code) (hse : ∀ e, s.cond = some e → Simple C names1 e) (henv : Γ2 = Γ1)
    (hinitLeads : c1.Fits img.store.code → img.Leads (n + 1) ⟨f, K, m⟩
      (optional s.init (execIn C call S.ret (n + 1) s.init) ([] :: ρ) vars)
      (Goes img K S L Γ0 Γ1 names1 c c1 f objs vars m))
    (hrunLeads : ∀ {ρ vars objs f m}, Ready img C S Γ0 Γ1 names1 ρ vars objs (c7.move (some body)) f m →
      (∀ b ∈ targets (some (leave, step)), (c7.move (some body)).Clean S.func b) → c8.Fits img.store.code →
      img.Leads (n + 1) ⟨f, K, m⟩ (exec C call S.ret (n + 1) b ρ vars)
        (Goes img K S (some (leave, step)) Γ0 Γ2 names1 (c7.move (some body)) c8 f objs vars m))
    (hagainLeads : ∀ {ρ vars objs f m}, Ready img C S Γ0 Γ2 names1 ρ vars objs (c9.move (some step)) f m →
      (∀ b ∈ targets (some (leave, step)), (c9.move (some step)).Clean S.func b) → c10.Fits img.store.code →
      img.Leads (n + 1) ⟨f, K, m⟩ (optional s.step (execIn C call S.ret (n + 1) s.step) ρ vars)
        (Goes img K S (some (leave, step)) Γ0 Γ3 names1 (c9.move (some step)) c10 f objs vars m)) :
    img.Leads (n + 1) ⟨f, K, m⟩ (exec C call S.ret (n + 1) s ρ vars)
      (Goes img K S L Γ0 Γ names c (c'.move (some leave)) f objs vars m) := by
  rw [exec_eq]
  simp only [execFrom, hk, hb]
  have hregion := hinit.region r.here hL
  have hopened := ((((Code.Region.refl hregion.at_end (L := targets L)).opens hcond).opens hstep).opens hbody).opens hleave
  have hentered := hopened.leave henter (by simp)
  have htested := (htest.region hentered.next (by simp) (by simp)).perm (.swap ..)
  have hcleanRun : ∀ b ∈ targets (some (leave, step)), (c7.move (some body)).Clean S.func b :=
    forall_targets (htested.next.own_clean (by simp)) (htested.next.own_clean (by simp))
  have hregionRun := hrun.region htested.next.at_end hcleanRun
  have hnew := forall_targets (Q := fun b => c1.blocks b = none ∨ b ∈ targets L)
    (.inl (htested.next.own _ (.tail _ (.head _))).1) (.inl (htested.next.own _ (.head _)).1)
  have hran := (htested.next.sub hregionRun hnew).leave hnext (by simp)
  have hcleanAgain : ∀ b ∈ targets (some (leave, step)), (c9.move (some step)).Clean S.func b :=
    forall_targets (hran.next.own_clean (by simp)) (hran.own_clean (.head _))
  have hregionAgain := hagain.region hran.next.at_end hcleanAgain
  have hcleanCond := (hregionRun.clean (htest.clean hentered.next.at_end (hentered.own_clean (.head _)))).leaves hnext
  have hturned := (hran.next.sub hregionAgain hnew).leaves hback (hregionAgain.clean hcleanCond)
    (.inl (hentered.own _ (.head _)).1)
  -- What the finished code keeps of each stage, from the last one back.
  have hfit' := hfit.unmove hback.sealed
  have hfitStep := (hback.fits hfit').back hregionAgain hagain.pending
  have hfit9 := hfitStep.unmove hnext.sealed
  have hfitBody := (hnext.fits hfit9).back hregionRun hrun.pending
  have hfit7 := hfitBody.unmove htest.sealed
  have hfitCond := htest.fits hentered.next.at_end hfit7
  have hfit6 := hfitCond.unmove henter.sealed
  refine (hinitLeads (((((henter.fits hfit6).opens hleave).opens hbody).opens hstep).opens hcond)).bind fun z st hQ => ?_
  obtain ⟨k, vars1⟩ := z
  obtain ⟨f1, objs1, m1, rfl, hadv, hlands⟩ := hQ
  cases hlands with
  | leave | again | ret => exact .ok ⟨f1, objs1, m1, rfl, hadv, by constructor <;> assumption⟩
  | @next ρ1 hst env deep scope =>
    have r1 : Ready img C S Γ0 Γ1 names1 ρ1 vars1 objs1 c1 f1 m1 :=
      ⟨r.known.mono hregion.funcs, hregion.at_end, scope, env, deep, hadv.stored, hst⟩
    refine (jump_leads ((((hst.opens hcond).opens hstep).opens hbody).opens hleave) henter hfit6).seq fun st hQ => ?_
    obtain ⟨f2, rfl, harr, hregs⟩ := hQ
    refine (rounds_leads S cond step body leave (I := Advances c1 f1 objs1 vars1 m1) ?test ?run ?step (n + 1) le_rfl true
      ((Advances.of_calm (.refl ..) hadv.stored).of_regs hregs) harr).bind fun z st hQ => ?_
    case test =>
      intro f objs vars m hI harr
      obtain ⟨f', hone, hst', hregs'⟩ := harr.entered (hentered.own _ (.head _)).2.1 rfl rfl
        hfitCond
      have hI' := hI.of_regs hregs'
      refine ⟨_, hone, (test_leads hs (r1.advance hentered.next hI' hst') htest hse hfit7).mono fun b st hQ => ?_⟩
      obtain ⟨f'', m'', rfl, hcalm, harr'⟩ := hQ
      exact ⟨f'', m'', rfl, hI'.trans hentered.next.insts (.of_calm hcalm hI.stored), harr'⟩
    case run =>
      intro f objs vars m hI harr
      have hst' := harr.stands (htested.own _ (.head _)).2.1 rfl rfl hfitBody
      exact turn_leads (hrunLeads (r1.advance htested.next hI hst') hcleanRun (hnext.fits hfit9)) hnext hfit9 hI
        htested.next.insts
    case step =>
      intro f objs vars m hI harr
      obtain ⟨f', hone, hst', hregs'⟩ := harr.entered (hran.own _ (.head _)).2.1 rfl rfl
        hfitStep
      have hI' := hI.of_regs hregs'
      have r2 := r1.advance hran.next hI' hst'
      rw [← henv] at r2
      exact ⟨_, hone, turn_leads (hagainLeads r2 hcleanAgain (hback.fits hfit')) hback hfit' hI' hran.next.insts⟩
    obtain ⟨x, vars'⟩ := z
    obtain ⟨f3, objs3, m3, rfl, hadv3, hdone⟩ := hQ
    have hadv' := hadv.trans hregion.insts hadv3
    cases hdone with
    | ret h ht => exact .ok ⟨f3, objs3, m3, rfl, hadv', .ret h ht⟩
    | leave harr =>
      have hst3 := harr.stands (hturned.own _ (.head _)).2.1 rfl rfl hfit
      have hinsts : c.Sub c' := fun h y hy => hturned.insts h y (hregion.insts h y hy)
      exact .ok ⟨f3, objs3, m3, rfl, hadv', .next hst3 (r.env.advance (show ∀ g y, c.insts g = some y →
        (c'.move (some leave)).insts g = some y from hinsts) hadv') r.deep r.scope⟩

end

variable {K : List Frame}

mutual

lemma stmtTo_leads (hs : Serves img n C Γ0 call) :
    StmtTo S L Γ s c Γ' c' → SimpleItem C names s names' → Ready img C S Γ0 Γ names ρ vars objs c f m →
    (∀ b ∈ targets L, c.Clean S.func b) → c'.Fits img.store.code →
    img.Leads (n + 1) ⟨f, K, m⟩ (exec C call S.ret (n + 1) s ρ vars) (Goes img K S L Γ0 Γ' names' c c' f objs vars m)
  | .block hk h, hsimple, r, hL, hfit => by
    obtain ⟨hstmt, rfl⟩ := hsimple.of_stmt (by simp [hk])
    obtain ⟨names', hlist⟩ := hstmt.parts hk
    rw [exec_eq]
    simp only [execFrom, hk]
    have hregion := h.region r.here hL
    refine (stmtsTo_leads hs h hlist r.inside hL hfit).bind fun z st hQ => .ok ?_
    obtain ⟨k, vars'⟩ := z
    obtain ⟨f', objs', m', rfl, hadv, hlands⟩ := hQ
    refine ⟨f', objs', m', rfl, hadv, ?_⟩
    cases hlands with
    | next hst _ _ _ => exact .next hst (r.env.advance hregion.insts hadv) r.deep r.scope
    | leave | again | ret => constructor <;> assumption
  | .bind hk ht hv hb, hsimple, r, _, hfit => by
    obtain ⟨rfl, hvalue, htype⟩ := hsimple.of_bind hk
    rw [exec_eq]
    simp only [execFrom, hk, initial, ht]
    have hregion := hv.region r.here []
    have hgiven := given_leads (K := K) hs hv hvalue htype r (hfit.line hregion.at_end hb.line)
    exact bound_leads r (hgiven.bind fun _ _ h => .ok h) hb hregion hfit
  | .bindAs hk hsome ht hv hconv hb, hsimple, r, _, hfit => by
    obtain ⟨rfl, hvalue, htype⟩ := hsimple.of_bind hk
    obtain ⟨ref, href⟩ := isSome_iff_exists.1 hsome
    obtain ⟨w, hw⟩ := htype ref href
    rw [← href] at hw
    have hu := r.known.types _ _ _ hw ht
    rw [exec_eq]
    simp only [execFrom, hk, initial_typed hsome hw]
    have hregion := hv.region r.here []
    have hfit2 := hfit.line (hregion.line hconv.coerces.line).at_end hb.line
    refine bound_leads r ((given_leads hs hv hvalue htype r (hfit2.line hregion.at_end hconv.coerces.line)).bind
      fun x st hQ => ?_) hb (hregion.line hconv.coerces.line) hfit
    obtain ⟨f1, m1, rfl, hst1, hcalm, hx, htx⟩ := hQ
    rw [htx, hu] at hconv
    refine (adapts_leads (z := .int w 0) hfit2 hst1 hx hconv).mono fun y st hQ => ?_
    obtain ⟨hyty, hcomes⟩ := hQ
    rw [hyty] at hcomes
    exact hu ▸ hcomes.after hcalm hregion.insts
  | .assign hk ha hb hl hr hslot hv hconv hty hstore, hsimple, r, _, hfit => by
    obtain ⟨hstmt, rfl⟩ := hsimple.of_stmt (by simp [hk])
    exact assignment_leads hs r hk ha hb hstmt hl hr hslot hv hconv hty hstore hfit
  | .ret hk hn hvoid h, hsimple, r, _, hfit => by
    rw [exec_eq]
    simp only [execFrom, hk, hn]
    refine (r.stands.ret h hfit rfl).seq fun st hQ => .ok ?_
    obtain ⟨f', rfl, hregs, hret⟩ := hQ
    refine ⟨f', objs, m, rfl, (Advances.of_calm (.refl ..) r.stored).of_regs hregs, .ret hret ?_⟩
    obtain ⟨b, B, -, -, hcur, -⟩ := r.stands.place
    obtain ⟨F, z, hF, hFret, -⟩ := r.known.ret
    rw [← hFret]
    exact hvoid b B F hcur (r.cursor_func hcur ▸ hF)
  | .retValue hk he hv hconv h, hsimple, r, _, hfit => by
    obtain ⟨hstmt, rfl⟩ := hsimple.of_stmt (by simp [hk])
    rw [exec_eq]
    simp only [execFrom, hk, he]
    obtain ⟨F, z, -, -, hz⟩ := r.known.ret
    have hregion := hv.region r.here []
    have hfit2 := hfit.ends h
    refine (valueTo_leads hs hv (hstmt.parts hk _ he) r (hfit2.line hregion.at_end hconv.coerces.line)).bind fun x st hQ => ?_
    obtain ⟨f1, m1, rfl, hst1, hcalm1, hx, htx⟩ := hQ
    rw [htx, hz] at hconv
    rw [hz]
    refine (adapts_leads hfit2 hst1 hx hconv).bind fun y st hQ => ?_
    obtain ⟨hyty, f2, m2, rfl, hst2, hcalm2, hy, -⟩ := hQ
    refine (hst2.ret (x := y.value) h hfit hy.value?).seq fun st hQ => .ok ?_
    obtain ⟨f3, rfl, hregs, hret⟩ := hQ
    exact ⟨f3, objs, m2, rfl, (Advances.of_calm (hcalm1.trans hregion.insts hcalm2) r.stored).of_regs hregs,
      .ret hret (hz.trans hyty.symm)⟩
  | .cond hk he ha hv hyes hno hafter hfork hleft hjoin hright hmeet, hsimple, r, hL, hfit => by
    obtain ⟨hstmt, rfl⟩ := hsimple.of_stmt (by simp [hk])
    obtain ⟨hse, hsyes, hsno⟩ := hstmt.parts hk
    rw [exec_eq]
    simp only [execFrom, hk, he, ha, evalIn, execIn]
    have hsleft : ∀ a, _ = some a → SimpleStmt C names' a := fun _ hb => hsyes _ (ha.trans hb)
    have henv := partTo_env hleft hsleft
    have henv' := partTo_env hright hsno
    have hregion := hv.region r.here (targets L)
    have hopened := ((hregion.opens hyes).opens hno).opens hafter
    have hforked := hopened.fork hfork (by simp) (by simp)
    have hclean := fun b hb => hforked.next.clean (hL b hb)
    have hregion1 := hleft.region hforked.next.at_end hclean
    have hjoined := (hforked.next.sub hregion1 fun _ => .inr).leave hjoin (by simp)
    have hclean' := fun b hb => hjoined.next.clean (hL b hb)
    have hregion2 := hright.region hjoined.next.at_end hclean'
    have hmet := (hjoined.next.sub hregion2 fun _ => .inr).leave hmeet (by simp)
    have hfit' := hfit.unmove hmeet.sealed
    have hfitRight := (hmeet.fits hfit').back hregion2 hright.pending
    have hfit7 := hfitRight.unmove hjoin.sealed
    have hfitLeft := (hjoin.fits hfit7).back hregion1 hleft.pending
    have hfit5 := hfitLeft.unmove hfork.sealed
    refine (valueTo_leads hs hv (hse _ he) r ((((hfit5.ends hfork).opens hafter).opens hno).opens hyes)).bind fun z st hQ => ?_
    obtain ⟨f1, m1, rfl, hst1, hcalm1, hz, -⟩ := hQ
    have hst4 := ((hst1.opens hyes).opens hno).opens hafter
    refine (hst4.condBr hfork hfit5 hz.value?).seq fun st hQ => ?_
    obtain ⟨f2, rfl, harr, hregs, -⟩ := hQ
    have hcalm : Calm c f f2 [] m m1 := hcalm1.same hregs
    have hadv := Advances.of_calm hcalm r.stored
    rw [toInt_value] at harr
    by_cases hzt : z.isTrue
    · rw [if_pos hzt]
      rw [if_pos (of_decide_eq_true hzt)] at harr
      have hst2 := harr.stands (hforked.own _ (by simp)).2.1 rfl rfl hfitLeft
      have hrun := partTo_leads hs hleft (fun a ha => .stmt (hsleft a ha)) nofun
        (r.next hforked.next hcalm hst2) hclean (hjoin.fits hfit7)
      refine (join_leads hrun hjoin hfit7 (hmet.own _ (by simp)).2.1 hfit ?_).mono fun _ _ hgo => ?_
      · intro h y hy
        rw [hmeet.insts_eq]
        exact hregion2.insts h y ((congrFun hjoin.insts_eq h).trans hy)
      · rw [henv']
        exact hgo.after hadv hforked.next.insts
    · rw [if_neg hzt]
      rw [if_neg fun h => hzt (decide_eq_true h)] at harr
      have hst2 := harr.stands (hjoined.own _ (by simp)).2.1 rfl rfl hfitRight
      have r2 := r.next hjoined.next hcalm hst2
      rw [← henv] at r2
      have hrun := partTo_leads hs hright (fun a ha => .stmt (hsno a ha)) (fun _ => rfl) r2 hclean' (hmeet.fits hfit')
      refine (join_leads hrun hmeet hfit' (hmet.own _ (by simp)).2.1 hfit fun h y hy => ?_).mono fun _ _ hgo =>
        hgo.after hadv hjoined.next.insts
      rw [hmeet.insts_eq]
      exact hy
  | .loop hk hb hinit hcond hstep hbody hleave henter htest hrun hnext hagain hback, hsimple, r, hL, hfit => by
    obtain ⟨hstmt, rfl⟩ := hsimple.of_stmt (by simp [hk])
    obtain ⟨names1, hsinit, hnone, hse, hsstep, hsbody⟩ := hstmt.parts hk
    have hsrun : ∀ a, _ = some a → SimpleStmt C names1 a := fun _ h => hsbody _ (hb.trans h)
    exact loop_leads hs r hL hk hb hinit hcond hstep hbody hleave henter htest hrun hnext hagain hback hfit hse
      (partTo_env hrun hsrun) (fun hfit1 => partTo_leads hs hinit hsinit hnone r.inside hL hfit1)
      (fun r hL hfit => partTo_leads hs hrun (fun a h => .stmt (hsrun a h)) nofun r hL hfit)
      fun r hL hfit => partTo_leads hs hagain (fun a h => .stmt (hsstep a h)) (fun _ => rfl) r hL hfit
  | .leave hk h, hsimple, r, _, hfit => by
    rw [exec_eq]
    simp only [execFrom, hk]
    refine (r.stands.br h hfit).seq fun st hQ => .ok ?_
    obtain ⟨f', rfl, harr, hregs, -⟩ := hQ
    exact ⟨f', objs, m, rfl, (Advances.of_calm (.refl ..) r.stored).of_regs hregs, .leave rfl harr⟩
  | .next hk h, hsimple, r, _, hfit => by
    rw [exec_eq]
    simp only [execFrom, hk]
    refine (r.stands.br h hfit).seq fun st hQ => .ok ?_
    obtain ⟨f', rfl, harr, hregs, -⟩ := hQ
    exact ⟨f', objs, m, rfl, (Advances.of_calm (.refl ..) r.stored).of_regs hregs, .again rfl harr⟩
  | .eval hk he hv, hsimple, r, _, hfit => by
    obtain ⟨hstmt, rfl⟩ := hsimple.of_stmt (by simp [hk])
    rw [exec_eq]
    simp only [execFrom, hk, he, evalIn]
    have hregion := hv.region r.here []
    refine (exprTo_leads hs hv (hstmt.parts hk _ he) r hfit).bind fun x st hQ => .ok ?_
    obtain ⟨f', m', rfl, hst', hcalm, -⟩ := hQ
    exact ⟨f', objs, m', rfl, .of_calm hcalm r.stored, .next hst' (r.env.mono hregion.insts hcalm) r.deep r.scope⟩
  | .drop hk _ _ _ _, hsimple, _, _, _ => ((hsimple.of_stmt (by simp [hk])).1.parts hk).elim

lemma partTo_leads (hs : Serves img n C Γ0 call) :
    PartTo S L Γ p c Γ' c' → (∀ a, p = some a → SimpleItem C names a names') → (p = none → names' = names) →
    Ready img C S Γ0 Γ names ρ vars objs c f m → (∀ b ∈ targets L, c.Clean S.func b) → c'.Fits img.store.code →
    img.Leads (n + 1) ⟨f, K, m⟩ (optional p (execIn C call S.ret (n + 1) p) ρ vars)
      (Goes img K S L Γ0 Γ' names' c c' f objs vars m)
  | .none, _, hnone, r, _, _ => by
    cases hnone rfl
    exact .ok ⟨f, objs, m, rfl, .of_calm (.refl ..) r.stored, .next r.stands r.env r.deep r.scope⟩
  | .some h, hp, _, r, hL, hfit => by
    simp only [optional, isSome_some, if_true, execIn]
    exact stmtTo_leads hs h (hp _ rfl) r hL hfit

lemma stmtsTo_leads (hs : Serves img n C Γ0 call) :
    StmtsTo S L Γ l c Γ' c' → SimpleList C names l names' → Ready img C S Γ0 Γ names ρ vars objs c f m →
    (∀ b ∈ targets L, c.Clean S.func b) → c'.Fits img.store.code →
    img.Leads (n + 1) ⟨f, K, m⟩ (execAll C call S.ret (n + 1) l ρ vars)
      (Goes img K S L Γ0 Γ' names' c c' f objs vars m)
  | .nil, hl, r, _, _ => by
    cases hl
    rw [execAll]
    exact .ok ⟨f, objs, m, rfl, .of_calm (.refl ..) r.stored, .next r.stands r.env r.deep r.scope⟩
  | .stop h, _, r, _, _ => by
    obtain ⟨b, B, -, -, hcur, -⟩ := r.stands.place
    exact absurd ⟨b, B, hcur⟩ h
  | .cons h hrest, hl, r, hL, hfit => by
    obtain ⟨names1, hitem, hlist⟩ := hl.of_cons
    have hregion := h.region r.here hL
    have hL' := fun b hb => hregion.clean (hL b hb)
    have hregion' := hrest.region hregion.at_end hL'
    rw [execAll, execIn]
    refine (stmtTo_leads hs h hitem r hL (hfit.back hregion' hrest.pending)).bind fun z st hQ => ?_
    obtain ⟨k, vars'⟩ := z
    obtain ⟨f1, objs1, m1, rfl, hadv, hlands⟩ := hQ
    cases hlands with
    | next hst env deep scope =>
      have r1 : Ready img C S Γ0 _ names1 _ vars' objs1 _ f1 m1 :=
        ⟨r.known.mono hregion.funcs, hregion.at_end, scope, env, deep, hadv.stored, hst⟩
      exact (stmtsTo_leads hs hrest hlist r1 hL' hfit).mono fun _ _ hgo => hgo.after hadv hregion.insts
    | leave | again | ret => exact .ok ⟨f1, objs1, m1, rfl, hadv, by constructor <;> assumption⟩

end

end Arbor.Meaning
