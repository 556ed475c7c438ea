import Arbor.Proofs.Slots

/-! Expressions compute their values: lowered code, run from where it was begun, comes to where lowering
went on, and the operand that lowering yielded stands for the value of the expression. -/

namespace Arbor.Meaning

open IR Run Run.Image Lower Arbor.Tree Option Emit

section

variable {img : Image} {n : Nat} {K : List Frame} {c c' : Code} {f : Frame} {m : Machine}
variable {C : Context} {xs : List Val} {st : State} {w : Width} {v : Operand} {x y : Val} {t u : Ty}
variable {z : Operand} {p : Int64} {args : List (Operand × Ty)} {name : Text}

lemma Calm.insert {z : Value} (e : c.Emits h i t c') (hregs : f'.regs = f.regs.insert (.inst h) z) (hk : m.Kept own m') :
    Calm c f f' own m m' where
  regs g x hg := by
    rw [hregs, Std.HashMap.getElem?_insert, if_neg]
    intro heq
    cases (beq_iff_eq.1 heq)
    rw [e.freshInst] at hg
    cases hg
  params g i := by
    rw [hregs, Std.HashMap.getElem?_insert, if_neg]
    intro heq
    cases (beq_iff_eq.1 heq)
  memory := hk

def Comes (img : Image) (K : List Frame) (c c' : Code) (f : Frame) (m : Machine) (v : Operand) (t : Ty) (x : Val)
    (st : State) : Prop :=
  ∃ f' m', st = ⟨f', K, m'⟩ ∧ img.Stands c' f' ∧ Calm c f f' [] m m' ∧ Has c' f' v x ∧ t = x.ty

lemma leads_value (hst : img.Stands c f) (e : c.Emits h i x.ty c') (hfit : c'.Fits img.store.code) (hphi : i.isPhi = false)
    (hvalue : i.isValue) (hcall : ∀ callee args, i ≠ .call callee args) (hslot : ∀ e, i ≠ .alloca e)
    (hv : ∀ info : InstInfo, info.inst = i → Exec.compute img.store f info (counted m) = .ok x.value (counted m)) :
    img.Leads n ⟨f, K, m⟩ (.ok x) (Comes img K c c' f m (.inst h) x.ty) := by
  have hstep := hst.value (n := n) (K := K) e hfit hphi hvalue hcall fun info hi _ => hv info hi
  refine (hstep.bind fun _ st hQ => .ok ?_)
  obtain ⟨f', rfl, hst', hregs⟩ := hQ
  refine ⟨f', _, rfl, hst', .insert e hregs (counted_kept _ m), .inst e.inst_self hslot ?_, rfl⟩
  rw [hregs, Std.HashMap.getElem?_insert_self]

lemma Leads.andThen {r : Res α} {Q P : α → State → Prop} (hl : img.Leads n st r Q)
    (hf : ∀ x st', Q x st' → img.Leads n st' (.ok x) P) : img.Leads n st r P := by
  have := hl.bind hf
  cases r <;> exact this

lemma compute_int {a : Operand}
    (hi : info.inst = .int op a b) (ha : Image.value? f a = some (.int p)) (hb : Image.value? f b = some (.int q))
    (hty : s.tyOf a = .int w) : Exec.compute s f info m =
      (Run.intOp op p q).elim (.error .divisionByZero m) fun r => .ok (.int (Run.wrap w r)) m := by
  simp only [Exec.compute, hi, bind, EStateM.bind, eval_of_value? ha, eval_of_value? hb, Value.toInt, hty]
  cases Run.intOp op p q <;> rfl

lemma compute_icmp {a : Operand} (hi : info.inst = .icmp k a b)
    (ha : Image.value? f a = some (.int p)) (hb : Image.value? f b = some (.int q)) :
    Exec.compute s f info m = .ok (.int (Run.ofBool (Run.compareInts k p q))) m := by
  simp only [Exec.compute, hi, bind, EStateM.bind, eval_of_value? ha, eval_of_value? hb, Exec.icmp]
  rfl

lemma unaryInst?_int (hi : unaryInst? o v (.int w) = some (i, u)) :
    u = .int w ∧ ((o = .not ∧ w = .w1 ∧ i = .int .xor v (.const (.int w 1))) ∨
      (o = .neg ∧ w ≠ .w1 ∧ i = .int .sub (.const (.int w 0)) v) ∨
      (o = .flip ∧ w ≠ .w1 ∧ i = .int .xor v (.const (.int w (-1))))) := by
  cases o <;> cases w <;> cases hi <;> simp [Const.bool]

lemma binaryInst?_int (hi : binaryInst? o (Ty.int w).kind a b = some i) :
    (∃ k, comparison? o = some k ∧ i = .icmp k a b) ∨ ∃ p, i = .int p a b ∧
    ((w ≠ .w1 ∧ intOp? o = some p) ∨ (w = .w1 ∧ boolOp? o = some p)) := by
  unfold binaryInst? at hi
  cases hk : comparison? o with
  | some k =>
    rw [hk] at hi
    cases w <;> simp [Ty.kind, Kind.isInteger] at hi <;> exact .inl ⟨k, rfl, hi.symm⟩
  | none =>
    rw [hk] at hi
    cases w <;> simp [Ty.kind, Kind.isInteger, Kind.isFloat] at hi <;> obtain ⟨p, hp, rfl⟩ := hi <;>
      exact .inr ⟨p, rfl, by simp [hp]⟩

lemma operate_comparison (hk : comparison? o = some k) :
    operate o w a b = .ok (.truth (Run.compareInts k a b)) := by
  cases o <;> cases hk <;> simp [operate, Run.compareInts]

lemma operate_int {p : IntOp} (hp : (w ≠ .w1 ∧ intOp? o = some p) ∨ (w = .w1 ∧ boolOp? o = some p)) :
    operate o w a b = (Run.intOp p a b).elim (.error .division) fun r => .ok (.ofWidth w r) := by
  rcases hp with ⟨hw, hp⟩ | ⟨rfl, hp⟩
  · cases o <;> cases hp <;> simp [operate, Run.intOp, arithmetic, hw, Except.map] <;>
      by_cases hb : b = 0 <;> simp [hb]
  · cases o <;> cases hp <;> simp [operate, Run.intOp, logical]

lemma Val.exists_of_ty (h : x.ty = .int w) : ∃ p, x = .int w p := by
  cases x with
  | unit => cases h
  | int a p =>
    cases h
    exact ⟨p, rfl⟩

lemma adapt_same (h : x.ty = t) : adapt t x = .ok x := by
  unfold adapt
  rw [if_pos h]

lemma adapt_wider (hne : a ≠ w) (hlt : a.bits < w.bits) : adapt (.int w) (.int a p) = .ok (.int w (resize a w p)) := by
  unfold adapt
  have hty : (Val.int a p).ty ≠ .int w := fun h => hne (Ty.int.inj h)
  rw [if_neg hty]
  exact if_pos hlt

lemma castBetween_int (hne : a ≠ w) (hk : castBetween (Ty.int a).kind (Ty.int w).kind = some k)
    (p) : w ≠ .w1 ∧ Exec.cast k (.int a) (.int w) (.int p) = .int (resize a w p) := by
  cases a <;> cases w <;> cases hk <;> first | exact absurd rfl hne | exact ⟨by decide, rfl⟩

lemma widens_int : (Ty.int a).widens (.int w) = true ↔ a = w ∨ a.bits < w.bits := by
  cases a <;> cases w <;> decide

lemma not_widens_unit (z : Val) : Ty.void.widens z.ty = true → z = .unit := by
  cases z with
  | unit => exact fun _ => rfl
  | int w n => cases w <;> exact nofun

lemma exists_of_widens (hne : x.ty ≠ y.ty) (hw : x.ty.widens y.ty = true) :
    ∃ a w p q, x = .int a p ∧ y = .int w q ∧ a ≠ w ∧ a.bits < w.bits ∧ w ≠ .w1 := by
  cases x with
  | unit => exact absurd (congrArg Val.ty (not_widens_unit y hw)).symm hne
  | int a p =>
    cases y with
    | unit => cases a <;> cases hw
    | int w q =>
      have hne' : a ≠ w := fun h => hne (h ▸ rfl)
      have hlt : a.bits < w.bits := (widens_int.1 hw).resolve_left hne'
      exact ⟨a, w, p, q, rfl, rfl, hne', hlt, by rintro rfl; cases a <;> simp_all [Width.bits]⟩

lemma adapt_ok {z : Val} (hw : x.ty.widens z.ty = true) : ∃ y, adapt z.ty x = .ok y ∧ y.ty = z.ty := by
  by_cases heq : x.ty = z.ty
  · exact ⟨x, adapt_same heq, heq⟩
  · obtain ⟨a, w, p, q, rfl, rfl, hne, hlt, -⟩ := exists_of_widens heq hw
    exact ⟨_, adapt_wider hne hlt, rfl⟩

lemma unify_same (h : x.ty = y.ty) : unify x y = (x, y) := by
  cases x <;> cases y <;> first | rfl | skip
  cases h
  simp [unify]

lemma unify_neither (h : x.ty.widens y.ty = false) (h' : y.ty.widens x.ty = false) : unify x y = (x, y) := by
  cases x with
  | unit => rfl
  | int a p =>
    cases y with
    | unit => rfl
    | int w q =>
      have hl : ¬a.bits < w.bits := fun hlt => by simp [Val.ty, widens_int.2 (.inr hlt)] at h
      have hr : ¬w.bits < a.bits := fun hlt => by simp [Val.ty, widens_int.2 (.inr hlt)] at h'
      simp [unify, hl, hr]

def ComeBoth (img : Image) (K : List Frame) (c c' : Code) (f : Frame) (m : Machine) (v w : Operand) (p : Val × Val)
    (st : State) : Prop :=
  ∃ f' m', st = ⟨f', K, m'⟩ ∧ img.Stands c' f' ∧ Calm c f f' [] m m' ∧ Has c' f' v p.1 ∧ Has c' f' w p.2

section

variable (hfit : c'.Fits img.store.code) (hst : img.Stands c f)

include hfit hst

lemma deref_leads (hd : Deref c v t c' v' t') (hx : Denotes c f m v t x) : img.Leads n ⟨f, K, m⟩ (.ok x) (Comes img K c c' f m v' t') := by
  cases hx with
  | value hv =>
    obtain ⟨rfl, rfl, rfl⟩ := hd.eq_of_not_slot hv.not_slot
    exact .ok ⟨f, m, rfl, hst, .refl .., hv, rfl⟩
  | @slot g id _ hslot hreg hholds =>
    cases hd with
    | value hv => exact absurd ⟨_, _, _, rfl, hslot⟩ hv
    | slot hslot' hload =>
      cases hslot.symm.trans hslot'
      refine leads_value hst hload hfit rfl rfl nofun nofun fun info hi => ?_
      have haddr : Image.value? f (.inst g) = some (.ptr id 0) := hreg
      have hc : (counted m).Holds id x.value := hholds.kept (counted_kept [] m) (by simp)
      simp only [Exec.compute, hi, bind, EStateM.bind, eval_of_value? haddr]
      exact Machine.load_eq hc _

/-! ### Operators -/

lemma unary_leads (hx : Has c f v x) (hi : unaryInst? o v (c.tyOf v) = some (i, u)) (e : c.Emits h i u c') :
    img.Leads n ⟨f, K, m⟩ (unary o x) (Comes img K c c' f m (.inst h) u) := by
  rw [hx.tyOf] at hi
  have hv := hx.value?
  cases x with
  | unit => cases o <;> cases hi
  | int w a =>
    have hfin : img.store.tyOf v = .int w := by
      rw [Store.tyOf_eq_code]
      exact hx.final (hfit.emits e (Lower.isPhi_of_unaryInst? hi))
    have hresult : ∀ {op : IntOp} {p q : Operand} {r s z : Int64}, i = .int op p q → Image.value? f p = some (.int r) →
        Image.value? f q = some (.int s) → img.store.tyOf p = .int w → Run.intOp op r s = some z → u = .int w →
        img.Leads n ⟨f, K, m⟩ (.ok (.ofWidth w z)) (Comes img K c c' f m (.inst h) u) := by
      rintro op p q r s z rfl hp hq hty hz rfl
      refine leads_value hst e hfit rfl rfl nofun nofun
        fun info hinfo => ?_
      rw [compute_int hinfo hp hq hty, hz]
      rfl
    obtain ⟨hu, ⟨rfl, rfl, hinst⟩ | ⟨rfl, hw, hinst⟩ | ⟨rfl, hw, hinst⟩⟩ := unaryInst?_int hi
    · exact hresult hinst hv rfl hfin rfl hu
    · simp only [unary, arithmetic, if_neg hw]
      exact hresult hinst rfl hv rfl rfl hu
    · simp only [unary, arithmetic, if_neg hw]
      exact hresult hinst hv rfl hfin rfl hu

lemma operate_leads (ha : Has c f a (.int w p)) (hb : Has c f b (.int w q)) (hz : Combines o c a b c' z u) :
    img.Leads n ⟨f, K, m⟩ (operate o w p q) (Comes img K c c' f m z u) := by
  cases hz with
  | @mk i h _ hty hi e =>
    rw [ha.valueTy] at hi
    obtain ⟨k, hk, rfl⟩ | ⟨op, rfl, hop⟩ := binaryInst?_int hi
    · rw [operate_comparison hk]
      refine leads_value hst e hfit rfl rfl nofun
        nofun fun info hinfo => ?_
      rw [compute_icmp hinfo ha.value? hb.value?]
      rfl
    · rw [operate_int hop]
      have hfin : img.store.tyOf a = .int w := by
        rw [Store.tyOf_eq_code]
        exact ha.final (hfit.emits e rfl)
      have hcompute : ∀ info : InstInfo, info.inst = .int op a b → Exec.compute img.store f info (counted m) =
          (Run.intOp op p q).elim (.error .divisionByZero (counted m)) fun r => .ok (.int (Run.wrap w r)) (counted m) :=
        fun info hinfo => compute_int hinfo ha.value? hb.value? hfin
      have hres : resultTy (c.tyOf a) (.int op a b) = .int w := ha.tyOf
      rw [hres] at e ⊢
      cases hr : Run.intOp op p q with
      | none =>
        rw [hr] at hcompute
        exact hst.trap e hfit rfl nofun fun info hinfo _ => hcompute info hinfo
      | some r =>
        rw [hr] at hcompute
        exact leads_value hst e hfit rfl rfl nofun nofun hcompute

/-! ### Conversions -/

lemma coerces_leads (hx : Has c f v x) (hc : Coerces c v x.ty (.int w) c' v' t') : img.Leads n ⟨f, K, m⟩ (convert w x) (Comes img K c c' f m v' t') := by
  cases hc with
  | same ht =>
    obtain ⟨p, rfl⟩ := Val.exists_of_ty ht
    rw [convert, if_pos rfl]
    exact .ok ⟨f, m, rfl, hst, .refl .., hx, rfl⟩
  | known ht hv => exact absurd (hx.valueTy.symm.trans hv) ht
  | @cast k h _ ht hu hk e =>
    rw [hx.valueTy] at hk
    have hv := hx.value?
    have hfin : img.store.tyOf v = x.ty := by
      rw [Store.tyOf_eq_code]
      exact hx.final (hfit.emits e rfl)
    cases x with
    | unit => cases w <;> cases hk
    | int a p =>
      have hne : a ≠ w := fun h => ht (h ▸ rfl)
      obtain ⟨hw, hcast⟩ := castBetween_int hne hk p
      rw [convert, if_neg hne, if_neg hw]
      refine leads_value hst e hfit rfl rfl nofun nofun
        fun info hinfo => ?_
      simp only [Exec.compute, hinfo, bind, EStateM.bind, eval_of_value? hv, hfin]
      exact congrArg (EStateM.Result.ok · (counted m)) hcast

lemma converts_leads {z : Val} (hx : Has c f v x) (hc : Converts c v x.ty z.ty c' v' t') : img.Leads n ⟨f, K, m⟩ (adapt z.ty x) (Comes img K c c' f m v' t') := by
  by_cases heq : x.ty = z.ty
  · rw [adapt_same heq]
    cases hc.coerces with
    | same _ => exact .ok ⟨f, m, rfl, hst, .refl .., hx, rfl⟩
    | known ht _ => exact absurd heq ht
    | cast ht _ _ _ => exact absurd heq ht
  · have hw := hc.widens
    cases x with
    | unit => exact absurd (congrArg Val.ty (not_widens_unit z hw)).symm heq
    | int a p =>
      cases z with
      | unit => cases a <;> cases hw
      | int w q =>
        have hne : a ≠ w := fun h => heq (h ▸ rfl)
        have hlt : a.bits < w.bits := (widens_int.1 hw).resolve_left hne
        have hbool : w ≠ .w1 := by rintro rfl; cases a <;> simp_all [Width.bits]
        have := coerces_leads (n := n) (K := K) (m := m) hfit hst hx hc.coerces
        rw [convert, if_neg hne, if_neg hbool] at this
        rw [Val.ty, adapt_wider hne hlt]
        exact this

lemma adapts_leads {z : Val} (hx : Has c f v x) (hc : Converts c v x.ty z.ty c' v' t') : img.Leads n ⟨f, K, m⟩ (adapt z.ty x) fun y st =>
      y.ty = z.ty ∧ Comes img K c c' f m v' y.ty y st := by
  obtain ⟨y, hy, hty⟩ := adapt_ok hc.widens
  have hl := converts_leads (n := n) (K := K) (m := m) hfit hst hx hc
  rw [hy] at hl ⊢
  refine hl.self.mono fun w st hQ => ?_
  obtain ⟨rfl, f', m', hst', hstands, hcalm, hw, -⟩ := hQ
  exact ⟨hty, f', m', hst', hstands, hcalm, hw, rfl⟩

lemma unify_leads {w : Operand} (hx : Has c f v x) (hy : Has c f w y) (hu : Unifies c v x.ty w y.ty c' v' t' w' u') :
    img.Leads n ⟨f, K, m⟩ (.ok (unify x y)) (ComeBoth img K c c' f m v' w') := by
  cases hu with
  | same ht =>
    rw [unify_same ht]
    exact .ok ⟨f, m, rfl, hst, .refl .., hx, hy⟩
  | neither _ hn hm =>
    rw [unify_neither hn hm]
    exact .ok ⟨f, m, rfl, hst, .refl .., hx, hy⟩
  | left ht hw hc =>
    obtain ⟨a, b, p, q, rfl, rfl, hne, hlt, hbool⟩ := exists_of_widens ht hw
    have hl := coerces_leads (n := n) (K := K) (m := m) hfit hst hx hc
    rw [convert, if_neg hne, if_neg hbool] at hl
    simp only [unify, if_pos hlt]
    obtain ⟨g, hat⟩ := hst.at
    have hinsts := ((Code.Region.refl hat (L := [])).line hc.line).insts
    refine hl.bind (f := fun z => .ok (z, Val.int b q)) fun z st' hQ => ?_
    obtain ⟨f', m', rfl, hst', hcalm, hz, -⟩ := hQ
    exact .ok ⟨f', m', rfl, hst', hcalm, hz, hy.mono hinsts hcalm⟩
  | right ht hn hw hc =>
    obtain ⟨a, b, p, q, rfl, rfl, hne, hlt, hbool⟩ := exists_of_widens (Ne.symm ht) hw
    have hl := coerces_leads (n := n) (K := K) (m := m) hfit hst hy hc
    rw [convert, if_neg hne, if_neg hbool] at hl
    simp only [unify, if_neg (Nat.lt_asymm hlt), if_pos hlt]
    obtain ⟨g, hat⟩ := hst.at
    have hinsts := ((Code.Region.refl hat (L := [])).line hc.line).insts
    refine hl.bind (f := fun z => .ok (Val.int b q, z)) fun z st' hQ => ?_
    obtain ⟨f', m', rfl, hst', hcalm, hz, -⟩ := hQ
    exact .ok ⟨f', m', rfl, hst', hcalm, hx.mono hinsts hcalm, hz⟩

lemma combines_leads {w : Operand} (hx : Has c f v x) (hy : Has c f w y) (hz : Combines o c v w c' z u) : ∃ a p q, x = .int a p ∧ y = .int a q ∧
      img.Leads n ⟨f, K, m⟩ (operate o a p q) (Comes img K c c' f m z u) := by
  have hty : x.ty = y.ty ∧ x ≠ .unit := by
    cases hz with
    | mk hty hi _ =>
      rw [hx.valueTy] at hi hty
      refine ⟨hty.trans hy.valueTy, ?_⟩
      rintro rfl
      simp [binaryInst?, Kind.isFloat] at hi
      split at hi <;> cases hi
  cases x with
  | unit => exact absurd rfl hty.2
  | int a p =>
    obtain ⟨q, rfl⟩ := Val.exists_of_ty hty.1.symm
    exact ⟨a, p, q, rfl, rfl, operate_leads hfit hst hx hy hz⟩

lemma binary_leads {w : Operand} (hx : Has c f v x) (hy : Has c f w y) (hu : Unifies c v x.ty w y.ty c1 v' t' w' u')
    (hz : Combines o c1 v' w' c' z r) :
    img.Leads n ⟨f, K, m⟩ (binary o x y) (Comes img K c c' f m z r) := by
  have hfit1 : c1.Fits img.store.code := by
    cases hz with
    | mk _ hi e => exact hfit.emits e (Lower.isPhi_of_binaryInst? hi)
  obtain ⟨g, hat⟩ := hst.at
  have hinsts := ((Code.Region.refl hat (L := [])).line hu.line).insts
  refine (unify_leads hfit1 hst hx hy hu).bind (f := combine o) fun p st' hQ => ?_
  obtain ⟨f1, m1, rfl, hst1, hcalm, hp, hq⟩ := hQ
  obtain ⟨a, p', q', hp', hq', hl⟩ := combines_leads (K := K) hfit hst1 hp hq hz
  have hcombine : combine o p = operate o a p' q' := by
    rw [← Prod.mk.eta (p := p), hp', hq', combine, if_pos rfl]
  rw [hcombine]
  refine hl.mono fun r st hr => ?_
  obtain ⟨f', m', rfl, hst', hcalm', hr', ht⟩ := hr
  exact ⟨f', m', rfl, hst', hcalm.trans hinsts hcalm', hr', ht⟩

/-! ### Calls -/

end

def Takes (C : Context) (ps : List (Option Param)) (ts : List Ty) : Prop :=
  List.Forall₂ (fun p t => ∃ q w, p = some q ∧ C.type? q.type = some t ∧ t = Ty.int w) ps ts

def HasAll (c : Code) (f : Frame) (args : List (Operand × Ty)) (xs : List Val) : Prop :=
  List.Forall₂ (fun a x => Has c f a.1 x ∧ a.2 = x.ty) args xs

lemma HasAll.mono (h : HasAll c f args xs)
    (hi : c.Sub c') (k : Calm c f f' own m m') : HasAll c' f' args xs :=
  h.imp fun _ _ hx => ⟨hx.1.mono hi k, hx.2⟩

lemma adaptAll_cons (hq : C.type? q.type = some t)
    (hy : adapt t x = .ok y) (hys : adaptAll C ps xs = .ok ys) :
    adaptAll C (some q :: ps) (x :: xs) = .ok (y :: ys) := by
  simp only [adaptAll, hq, elim_some, hy, hys]
  rfl

lemma adaptAll_ok (hc : ConvertsAll c args ts c' vs) : ∀ {xs : List Val} {ps : List (Option Param)},
    List.Forall₂ (fun a x => a.2 = Val.ty x) args xs → Takes C ps ts → args.length = ts.length → ∃ ys,
      adaptAll C ps xs = .ok ys := by
  induction hc with
  | nil =>
    intro xs ps hxs hps hlen
    cases hxs
    cases List.eq_nil_of_length_eq_zero hlen.symm
    cases hps
    exact ⟨[], rfl⟩
  | more => exact nofun
  | cons hv _ ih =>
    intro xs ps hxs hps hlen
    obtain ⟨x, xs, ht, hrest, rfl⟩ := List.forall₂_cons_left_iff.1 hxs
    obtain ⟨p, ps, ⟨q, w, rfl, hq, rfl⟩, hps', rfl⟩ := List.forall₂_cons_right_iff.1 hps
    cases ht
    obtain ⟨y, hy, -⟩ := adapt_ok (z := .int w 0) hv.widens
    obtain ⟨ys, hys⟩ := ih hrest hps' (Nat.succ.inj hlen)
    exact ⟨y :: ys, adaptAll_cons hq hy hys⟩

lemma convertsAll_leads (hc : ConvertsAll c args ts c' vs) :
    ∀ {xs ys : List Val} {ps : List (Option Param)} {f : Frame} {m : Machine}, HasAll c f args xs → Takes C ps ts →
      args.length = ts.length → adaptAll C ps xs = .ok ys → c'.Fits img.store.code → img.Stands c f →
      img.Leads n ⟨f, K, m⟩ (.ok ys) fun ys st => ∃ f' m', st = ⟨f', K, m'⟩ ∧ img.Stands c' f' ∧ Calm c f f' [] m m' ∧
      List.Forall₂ (Has c' f') vs ys := by
  induction hc with
  | nil =>
    intro xs ys ps f m hxs hps hlen hys hfit hst
    cases hxs
    cases List.eq_nil_of_length_eq_zero hlen.symm
    cases hps
    cases hys
    exact .ok ⟨f, m, rfl, hst, .refl .., .nil⟩
  | more => exact nofun
  | cons hv hrest ih =>
    intro xs ys' ps f m hxs hps hlen hys' hfit hst
    obtain ⟨x, xs, ⟨hx, ht⟩, hxs', rfl⟩ := List.forall₂_cons_left_iff.1 hxs
    obtain ⟨p, ps, ⟨q, w, rfl, hq, rfl⟩, hps', rfl⟩ := List.forall₂_cons_right_iff.1 hps
    have htail : HasAll _ f _ xs := hxs'
    cases ht
    obtain ⟨g, hat⟩ := hst.at
    have hregion := (Code.Region.refl hat (L := [])).line hv.coerces.line
    obtain ⟨y, hy, -⟩ := adapt_ok (z := .int w 0) hv.widens
    obtain ⟨ys, hys⟩ := adaptAll_ok hrest (hxs'.imp fun _ _ h => h.2) hps' (Nat.succ.inj hlen)
    cases Except.ok.inj ((adaptAll_cons hq hy hys).symm.trans hys')
    have hl := converts_leads (n := n) (K := K) (m := m) (z := .int w 0)
      (hfit.line hregion.at_end hrest.line) hst hx hv
    rw [hy] at hl
    refine hl.bind (f := fun y => .ok (y :: ys)) fun y st1 hQ => ?_
    obtain ⟨f1, m1, rfl, hst1, hcalm, hy, -⟩ := hQ
    refine (ih (htail.mono hregion.insts hcalm) hps' (Nat.succ.inj hlen) hys hfit hst1).bind (f := fun ys => .ok (y :: ys))
      fun zs st2 hQ => ?_
    obtain ⟨f2, m2, rfl, hst2, hcalm2, hzs⟩ := hQ
    refine .ok ⟨f2, m2, rfl, hst2, hcalm.trans hregion.insts hcalm2, .cons (hy.mono ?_ hcalm2) hzs⟩
    exact ((Code.Region.refl hregion.at_end (L := [])).line hrest.line).insts

/-! ### What an expression is evaluated in -/

/-- What lowering knows of the module at hand. -/
structure Known (C : Context) (S : Site) (Γ0 : Env) (c : Code) : Prop where
  types : ∀ ref t u, C.type? ref = some t → S.type? ref = some u → u = t
  ret : ∃ F z, c.funcs S.func = some F ∧ F.ret = S.ret ∧ S.ret = Val.ty z
  lets : ∀ name x, C.lets name = some x → ∃ w p, x = .int w p ∧ Γ0.find? name = some (.const (.int w p), .int w)
  funcs : ∀ name d, C.funcs name = some d → ∃ g F, Γ0.find? name = some (.func g, F.signature) ∧ c.funcs g = some F ∧
    F.variadic = false ∧ C.type? d.ret = some F.ret ∧ Takes C d.params.items F.params ∧
    ∃ F0, c.funcs S.func = some F0 ∧ F0.module = F.module

lemma Known.mono {Γ0 : Env} (h : Known C S Γ0 c)
    (hf : ∀ h F, c.funcs h = some F → ∃ F', c'.funcs h = some F' ∧ F.Le F') : Known C S Γ0 c' where
  types := h.types
  ret := by
    obtain ⟨F, z, hF, hret, hz⟩ := h.ret
    obtain ⟨G, hG, hle⟩ := hf S.func F hF
    exact ⟨G, z, hG, hle.ret.trans hret, hz⟩
  lets := h.lets
  funcs name d hd := by
    obtain ⟨g, F, hname, hF, hva, hret, htakes, F0, hF0, hmodule⟩ := h.funcs name d hd
    obtain ⟨G, hG, hle⟩ := hf g F hF
    obtain ⟨G0, hG0, hle0⟩ := hf S.func F0 hF0
    refine ⟨g, G, ?_, hG, hle.variadic.trans hva, hle.ret ▸ hret, hle.params ▸ htakes, G0, hG0,
      hle0.module.trans (hmodule.trans hle.module.symm)⟩
    rw [hname, FuncCode.signature, FuncCode.signature, hle.ret, hle.params, hle.variadic]

def Serves (img : Image) (n : Nat) (C : Context) (Γ0 : Env) (call : Caller) : Prop :=
  ∀ name d g t xs ys, C.funcs name = some d → Γ0.find? name = some (.func g, t) → adaptAll C d.params.items xs = .ok ys →
    (∃ F, img.store.code.funcs g = some F ∧ F.blocks ≠ []) ∧ ∀ info K calls depth m, img.store.func? g = some info →
        img.Leads n ⟨frameFor g info (ys.map Val.value) calls depth, K, m⟩ (call name xs) fun x st =>
          img.Returns K x.value st ∧ C.type? d.ret = some x.ty ∧ m.Kept [] st.machine

/-- A frame in the middle of the code of a function, with the variables in scope. -/
structure Ready (img : Image) (C : Context) (S : Site) (Γ0 Γ : Env) (names : List Text) (ρ : Locals) (vars : List Val)
    (objs : List Nat) (c : Code) (f : Frame) (m : Machine) : Prop where
  known : Known C S Γ0 c
  here : c.At S.func
  scope : ∀ name : Text, name.composed ∈ names → (ρ.find? name).isSome
  env : Matches c f objs vars Γ0 Γ ρ
  deep : ρ ≠ []
  stored : Stored m objs vars
  stands : img.Stands c f

variable {S : Site} {Γ0 Γ : Env} {names : List Text} {ρ : Locals} {vars : List Val} {objs : List Nat}
  {call : Caller}

lemma Ready.next (r : Ready img C S Γ0 Γ names ρ vars objs c f m) (hr : Code.Region S.func L X c c')
    (k : Calm c f f' [] m m') (hst : img.Stands c' f') : Ready img C S Γ0 Γ names ρ vars objs c' f' m' :=
  ⟨r.known.mono hr.funcs, hr.at_end, r.scope, r.env.mono hr.insts k, r.deep, r.stored.kept k.memory (by simp), hst⟩

lemma literal_has (hk : e.kind? = some .int ∨ e.kind? = some .bool) (h : Lower.Literal k e v t) :
    ∃ x, literal e = .ok x ∧ Has c f v x ∧ t = x.ty := by
  cases h with
  | int hk hw =>
    rename_i w
    cases w <;> exact ⟨_, by simp only [literal, hk, hw, Val.truth], .const, rfl⟩
  | bool hk => exact ⟨.truth e.bool, by simp only [literal, hk], .const, rfl⟩
  | float hk' => rw [hk'] at hk; simp at hk
  | string hk' => rw [hk'] at hk; simp at hk

lemma handed_value (x : Val) : callResult x.ty x.value = x.handed.value := by cases x <;> rfl

lemma handed_ty (x : Val) : x.handed.ty = x.ty := by cases x <;> rfl

lemma callTy_func (hF : c.funcs g = some F) : callTy c (.func g) = F.ret := by
  simp [callTy, Code.tyOf, hF, FuncCode.signature]

lemma call_local (r : Ready img C S Γ0 Γ names ρ vars objs c f m)
    (hcall : CallsNamed Γ c1 name args c' v t) (hinsts : c.Sub c1) :
    ρ.find? name = none := by
  obtain ⟨hname, hderef, hcalls⟩ := hcall
  obtain ⟨hnone, -⟩ | ⟨b, p, ⟨-, k, id, x, hb, hslot, -⟩, hfind, -⟩ := r.env.find name
  · exact hnone
  · cases Option.some.inj (hname.symm.trans (hfind.trans (congrArg some hb)))
    replace hslot := hinsts _ _ hslot
    cases hderef with
    | value hv => exact absurd ⟨_, _, _, rfl, hslot⟩ hv
    | slot hslot' hload =>
      cases hslot.symm.trans hslot'
      cases hcalls with
      | mk hsig => cases x <;> cases hsig

lemma call_leads (hs : Serves img n C Γ0 call) (r : Ready img C S Γ0 Γ names ρ vars objs c f m)
    (hd : C.funcs name = some d) (hxs : HasAll c f args xs)
    (hcall : CallsNamed Γ c name args c' v t) (hfit : c'.Fits img.store.code) :
    img.Leads (n + 1) ⟨f, K, m⟩ (call name xs >>= fun x => .ok x.handed) (Comes img K c c' f m v t) := by
  have hnone := call_local r hcall fun _ _ h => h
  obtain ⟨hname, hderef, hcalls⟩ := hcall
  obtain ⟨g, F, hg, hF, hva, hret, htakes, F0, hF0, hmodule⟩ := r.known.funcs name d hd
  obtain ⟨-, hfind⟩ | ⟨b, p, -, -, hsome⟩ := r.env.find name
  · cases Option.some.inj (hname.symm.trans (hfind.trans hg))
    obtain ⟨rfl, rfl, rfl⟩ := hderef.eq_of_not_slot (by rintro ⟨_, _, _, h, -⟩; cases h)
    cases hcalls with
    | mk hsig hcount hargs htarget hlen htypes e =>
      cases hsig
      have hlength := hcount.2 hva
      have hregion := (Code.Region.refl r.here (L := [])).line hargs.line
      obtain ⟨F1, hF1, hle⟩ := hregion.funcs g F hF
      obtain ⟨G1, hG1, hle0⟩ := hregion.funcs S.func F0 hF0
      obtain ⟨ys, hys⟩ := adaptAll_ok hargs (hxs.imp fun _ _ h => h.2) htakes hlength
      cases htarget with
      | pointer hv => exact absurd rfl (hv g)
      | other hf hhome =>
        refine absurd ?_ hhome
        obtain ⟨b, B, ha, hB, hfunc⟩ := hregion.at_end
        cases mem_unique hf hF1
        simp [Code.home, ha, hB, hfunc, hG1, hle0.module, hle.module, hmodule]
      | own hf hhome =>
        cases mem_unique hf hF1
        rw [callTy_func hF1, hle.ret] at e
        refine (convertsAll_leads (m := m) hargs hxs htakes hlength hys (hfit.emits e rfl)
          r.stands).self.bind (f := fun _ => call name xs >>= fun x => .ok x.handed) fun zs st hQ => ?_
        obtain ⟨rfl, f1, m1, rfl, hst1, hcalm, hzs⟩ := hQ
        obtain ⟨⟨F2, hF2, hbody⟩, hrun⟩ := hs name d g _ xs _ hd hg hys
        have hvalues : List.Forall₂ (fun v x => value? f1 v = some x) _ (zs.map Val.value) :=
          List.forall₂_map_right_iff.2 (hzs.imp fun _ _ hz => hz.value?)
        have hl := hst1.call (K := K) e hfit hvalues hF2 hbody
          (P := fun x m' => C.type? d.ret = some x.ty ∧ (counted m1).Kept [] m') fun info K' hinfo =>
            hrun info K' f1.calls f1.depth (counted m1) hinfo
        refine hl.bind fun x st hQ => .ok ?_
        obtain ⟨f2, m2, rfl, hst2, hregs, hxty, hkept⟩ := hQ
        have hxret : F.ret = x.ty := mem_unique hret hxty
        rw [hxret, handed_value] at hregs
        have hself := e.inst_self
        rw [hxret, ← handed_ty x] at hself
        refine ⟨f2, m2, rfl, hst2, hcalm.trans hregion.insts (.insert e hregs ((counted_kept [] m1).trans hkept)),
          .inst hself nofun ?_, hxret.trans (handed_ty x).symm⟩
        rw [hregs, Std.HashMap.getElem?_insert_self]
  · cases hnone.symm.trans hsome

def Gives (img : Image) (K : List Frame) (c c' : Code) (f : Frame) (m : Machine) (v : Operand) (t : Ty) (x : Val)
    (st : State) : Prop :=
  ∃ f' m', st = ⟨f', K, m'⟩ ∧ img.Stands c' f' ∧ Calm c f f' [] m m' ∧ Denotes c' f' m' v t x

lemma Comes.gives (h : Comes img K c c' f m v t x st) : Gives img K c c' f m v t x st := by
  obtain ⟨f', m', rfl, hst, hcalm, hx, rfl⟩ := h
  exact ⟨f', m', rfl, hst, hcalm, .value hx⟩

lemma ident_denotes (r : Ready img C S Γ0 Γ names ρ vars objs c f m)
    (hname : name.composed ∈ names ∨ (C.lets name).isSome) (hv : Γ.find? name = some (v, t)) :
    ∃ x, named? C ρ vars name = some x ∧ Denotes c f m v t x := by
  obtain ⟨hnone, hfind⟩ | ⟨b, p, ⟨-, g, id, x, hb, hslot, hreg, hid, hx⟩, hfind, hsome⟩ := r.env.find name
  · obtain ⟨x, hx⟩ := isSome_iff_exists.1 (hname.resolve_left fun h => by simpa [hnone] using r.scope name h)
    obtain ⟨w, p, rfl, hlet⟩ := r.known.lets name x hx
    cases Option.some.inj (hv.symm.trans (hfind.trans hlet))
    exact ⟨_, by simp [named?, hnone, hx], .value .const⟩
  · cases Option.some.inj (hv.symm.trans (hfind.trans (congrArg some hb)))
    refine ⟨x, by simp [named?, hsome, hx], .slot hslot hreg ?_⟩
    obtain ⟨hlt, rfl⟩ := List.getElem?_eq_some_iff.1 hid
    obtain ⟨hlt', rfl⟩ := List.getElem?_eq_some_iff.1 hx
    exact (List.forall₂_iff_get.1 r.stored.holds).2 p.2 hlt hlt'

lemma tyOf_of_valueTy (h : c.valueTy v = x.ty) : c.tyOf v = x.ty := by
  cases v with
  | func g =>
    simp only [Code.valueTy, Code.tyOf] at h ⊢
    cases hF : c.funcs g with
    | none => simpa [hF] using h
    | some F =>
      simp only [hF, elim_some] at h
      cases x <;> cases h
  | _ => exact h

lemma toInt_value (x : Val) : x.value.toInt = x.number := by cases x <;> rfl

lemma Calm.of_regs (h : f'.regs = f.regs) : Calm c f f' own m m :=
  ⟨fun _ _ _ => by rw [h], fun _ _ => by rw [h], .refl own m⟩

lemma Calm.same (k : Calm c f f1 own m m1) (h : f'.regs = f1.regs) : Calm c f f' own m m1 :=
  k.trans (show c.Sub c from fun _ _ => id) (.of_regs h)

lemma arm_leads {after p : Handle} (hcalm : Calm c0 f0 f [] m0 m) (hmono : c0.Sub c1)
    (hrun : img.Leads n ⟨f, K, m⟩ r (Comes img K c1 c2 f m v t)) (hp : c2.active = some p)
    (hjoin : c2.Ends (.br after) c3) (hfit3 : c3.Fits img.store.code) (hB : c.blocks after = some { func := S.func })
    (hinsts : c0.Sub c) (e : (c.move (some after)).Emits h (.phi edges) t' c') (hfit : c'.Fits img.store.code)
    (hedge : edges.find? (fun e => e.2 == p) = some (v, p)) (hty : ∀ x : Val, t = x.ty → t' = x.ty) :
    img.Leads n ⟨f, K, m⟩ r (Comes img K c0 c' f0 m0 (.inst h) t) := by
  refine Leads.andThen hrun fun x st hQ => ?_
  obtain ⟨f1, m1, rfl, hst1, hcalm1, hx, ht⟩ := hQ
  refine (hst1.br hjoin hfit3).bind (f := fun _ => .ok x) fun _ st hQ => ?_
  obtain ⟨f2, rfl, harr, hregs, hprev⟩ := hQ
  have hpf : f2.previous = p := hprev.trans (mem_unique hst1.active hp)
  have hvalue : value? f2 v = some x.value := by
    rw [← hx.value?]
    cases v <;> simp only [value?, hregs]
  refine (harr.phi (K := K) hB rfl rfl e hfit (hpf ▸ hedge) hvalue).bind
    fun _ st hQ => .ok ?_
  obtain ⟨f3, rfl, hst3, hregs3⟩ := hQ
  cases hty x ht
  have hpre : Calm c0 f0 f2 [] m0 m1 := (hcalm.trans hmono hcalm1).trans (fun _ _ h => h) (.of_regs hregs)
  have hmoved : ∀ h y, c0.insts h = some y → (c.move (some after)).insts h = some y := hinsts
  refine ⟨f3, m1, rfl, hst3, hpre.trans hmoved (.insert e hregs3 (.refl ..)), .inst e.inst_self nofun ?_, ht⟩
  rw [hregs3, Std.HashMap.getElem?_insert_self]

/-! ### The value of an expression by its kind -/

section

variable {e d : Expr}

lemma Simple.parts (h : Simple C names e) : e.kind? = some k → match k with
    | .int | .bool => True
    | .ident => e.name.composed ∈ names ∨ (C.lets e.name).isSome
    | .unary => ∀ a, e.x = some a → Simple C names a
    | .binary => ∀ a b, e.x = some a → e.y = some b → Simple C names a ∧ Simple C names b
    | .call => (C.funcs e.name).isSome ∧ ∀ a, some a ∈ e.args.getD [] → Simple C names a
    | .ternary => ∀ d a b, e.cond = some d → e.x = some a → e.y = some b →
      Simple C names d ∧ Simple C names a ∧ Simple C names b
    | .cast => ∀ a, e.x = some a → (∃ w, C.type? e.type = some (.int w)) ∧ Simple C names a
    | _ => False := by
  cases h <;> grind

end

/-! ### The simulation -/

def ComeAll (img : Image) (K : List Frame) (c c' : Code) (f : Frame) (m : Machine) (args : List (Operand × Ty))
    (xs : List Val) (st : State) : Prop :=
  ∃ f' m', st = ⟨f', K, m'⟩ ∧ img.Stands c' f' ∧ Calm c f f' [] m m' ∧ HasAll c' f' args xs

lemma Comes.after {f0 : Frame} (hcalm : Calm c f0 f [] m0 m)
    (hinsts : c.Sub c1) (h : Comes img K c1 c' f m v t x st) :
    Comes img K c c' f0 m0 v t x st := by
  obtain ⟨f', m', rfl, hst, hcalm', hx, ht⟩ := h
  exact ⟨f', m', rfl, hst, hcalm.trans hinsts hcalm', hx, ht⟩

end

variable {call : Caller} {K : List Frame}

mutual

lemma exprTo_leads (hs : Serves img n C Γ0 call) :
    ExprTo S Γ e c c' v t → Simple C names e → Ready img C S Γ0 Γ names ρ vars objs c f m → c'.Fits img.store.code →
    img.Leads (n + 1) ⟨f, K, m⟩ (eval C call ρ vars e) (Gives img K c c' f m v t)
  | .literal hl, hsimple, r, _ => by
    have hk : e.kind? = some .int ∨ e.kind? = some .bool := by cases hl <;> cases hsimple <;> simp_all
    obtain ⟨x, hx, hhas, rfl⟩ := literal_has (c := c) (f := f) hk hl
    rw [show eval C call ρ vars e = literal e by rcases hk with hk | hk <;> simp [eval_eq, evalFrom, hk], hx]
    exact .ok ⟨f, m, rfl, r.stands, .refl .., .value hhas⟩
  | .ident hk hv, hsimple, r, _ => by
    obtain ⟨x, hx, hden⟩ := ident_denotes r (hsimple.parts hk) hv
    rw [eval_eq]
    simp only [evalFrom, hk, hx]
    exact .ok ⟨f, m, rfl, r.stands, .refl .., hden⟩
  | .unary hk ho ha hv hi hput, hsimple, r, hfit => by
    rw [eval_eq]
    simp only [evalFrom, hk, ho, ha, evalIn]
    have hregion := hv.region r.here []
    refine (valueTo_leads hs hv (hsimple.parts hk _ ha) r (hfit.emits hput (isPhi_of_unaryInst? hi))).bind
      fun x st hQ => ?_
    obtain ⟨f1, m1, rfl, hst1, hcalm, hx, -⟩ := hQ
    exact (unary_leads hfit hst1 hx hi hput).mono fun _ _ h => (h.after hcalm hregion.insts).gives
  | .binary hk ho ha hb hv hw hunify hz, hsimple, r, hfit => by
    rw [eval_eq]
    simp only [evalFrom, hk, ho, ha, hb, evalIn]
    obtain ⟨hsa, hsb⟩ := hsimple.parts hk _ _ ha hb
    have hregion := hv.region r.here []
    have hregion' := hw.region hregion.at_end []
    have hfit2 := hfit.line hregion'.at_end (hunify.line.trans hz.line)
    refine (valueTo_leads hs hv hsa r (hfit2.back hregion' hw.pending)).bind fun x st hQ => ?_
    obtain ⟨f1, m1, rfl, hst1, hcalm, hx, rfl⟩ := hQ
    refine (valueTo_leads hs hw hsb (r.next hregion hcalm hst1) hfit2).bind fun y st hQ => ?_
    obtain ⟨f2, m2, rfl, hst2, hcalm', hy, rfl⟩ := hQ
    refine (binary_leads hfit hst2 (hx.mono hregion'.insts hcalm') hy hunify hz).mono fun _ _ h => ?_
    exact ((h.after hcalm' hregion'.insts).after hcalm hregion.insts).gives
  | .call hk hargs hcall, hsimple, r, hfit => by
    obtain ⟨hsome, hsargs⟩ := hsimple.parts hk
    obtain ⟨d, hd⟩ := isSome_iff_exists.1 hsome
    have hregion := hargs.region r.here []
    rw [eval_eq]
    simp only [evalFrom, hk, call_local r hcall hregion.insts]
    refine (argsTo_leads hs hargs hsargs r (hfit.line hregion.at_end hcall.line)).bind fun xs st hQ => ?_
    obtain ⟨f1, m1, rfl, hst1, hcalm, hxs⟩ := hQ
    refine (call_leads hs (r.next hregion hcalm hst1) hd hxs hcall hfit).mono fun _ _ h => ?_
    exact (h.after hcalm hregion.insts).gives
  | .ternary hk hb ha ha' hstart hyes hno hafter henter hcond hfork hleft hp hjoin hright hq hmeet htypes hvx hvy hput,
      hsimple, r, hfit => by
    rw [eval_eq]
    simp only [evalFrom, hk, hb, ha, ha', evalIn]
    obtain ⟨hsb, hsa, hsa'⟩ := hsimple.parts hk _ _ _ hb ha ha'
    have hopened := ((((Code.Region.refl r.here (L := [])).opens hstart).opens hyes).opens hno).opens hafter
    have hentered := hopened.jump henter (by simp)
    have hregion1 := hcond.region hentered.next.at_end []
    have hforked := (hentered.next.sub hregion1 (by simp)).fork hfork (by simp) (by simp)
    have hregion2 := hleft.region hforked.next.at_end []
    have hjoined := (hforked.next.sub hregion2 (by simp)).jump hjoin (by simp)
    have hregion3 := hright.region hjoined.next.at_end []
    have hmet := (hjoined.next.sub hregion3 (by simp)).jump hmeet (by simp)
    -- What the finished code keeps of each stage, from the last one back.
    have hfit11 := hfit.unphi hmeet.sealed hput
    have hfit9 := ((hfit11.ends hmeet).back hregion3 hright.pending).unmove hjoin.sealed
    have hfit7 := ((hfit9.ends hjoin).back hregion2 hleft.pending).unmove hfork.sealed
    have hfit5 := ((hfit7.ends hfork).back hregion1 hcond.pending).unmove henter.sealed
    have hst4 := (((r.stands.opens hstart).opens hyes).opens hno).opens hafter
    refine (hst4.br henter hfit5).seq fun st hQ => ?_
    obtain ⟨f1, rfl, harr, hregs1, -⟩ := hQ
    have hcalm1 : Calm c f f1 [] m m := .of_regs hregs1
    have hst1 := harr.stands (hentered.own _ (by simp)).2.1 rfl rfl ((hfit7.ends hfork).back hregion1 hcond.pending)
    refine (valueTo_leads hs hcond hsb (r.next hentered.next hcalm1 hst1) (hfit7.ends hfork)).bind fun z st hQ => ?_
    obtain ⟨f2, m2, rfl, hst2, hcalm2, hz, -⟩ := hQ
    refine (hst2.condBr hfork hfit7 hz.value?).seq fun st hQ => ?_
    obtain ⟨f3, rfl, harr3, hregs3, -⟩ := hQ
    have hcalm3 : Calm c f f3 [] m m2 := (hcalm1.trans hentered.next.insts hcalm2).same hregs3
    have hty : ∀ x : Val, _ = x.ty → _ = x.ty := fun x ht => tyOf_of_valueTy (hvx.trans ht)
    rw [toInt_value] at harr3
    by_cases hzt : z.isTrue
    · rw [if_pos hzt]
      rw [if_pos (of_decide_eq_true hzt)] at harr3
      have hst3 := harr3.stands (hforked.own _ (by simp)).2.1 rfl rfl ((hfit9.ends hjoin).back hregion2 hleft.pending)
      refine (arm_leads hcalm3 hforked.next.insts
        (valueTo_leads hs hleft hsa (r.next hforked.next hcalm3 hst3) (hfit9.ends hjoin)) hp hjoin hfit9
        (hmet.own _ (by simp)).2.1 hmet.insts hput hfit (by simp) hty).mono fun _ _ h => h.gives
    · rw [if_neg hzt]
      rw [if_neg fun h => hzt (decide_eq_true h)] at harr3
      have hst3 := harr3.stands (hjoined.own _ (by simp)).2.1 rfl rfl ((hfit11.ends hmeet).back hregion3 hright.pending)
      have hrun := valueTo_leads hs hright hsa' (r.next hjoined.next hcalm3 hst3) (hfit11.ends hmeet)
      rw [← htypes] at hrun
      refine (arm_leads hcalm3 hjoined.next.insts hrun hq hmeet hfit11 (hmet.own _ (by simp)).2.1 hmet.insts hput hfit
        ((List.find?_cons_of_neg ?_).trans (by simp)) hty).mono fun _ _ h => h.gives
      -- The block where the first arm ended is not the one where the second did.
      rw [beq_iff_eq]
      rintro rfl
      obtain ⟨b, B, hb, -, -, hnew⟩ := hregion3.cursor
      cases mem_unique hb hq
      rcases hnew with hno' | hnone
      · exact ((hforked.next.sub hregion2 (by simp)).own _ (by simp)).2.2 (hp.trans hno'.symm)
      · obtain ⟨a, A, hact, hA, -⟩ := hjoined.at_end
        rw [hjoin.active_eq, hp] at hact
        cases Option.some.inj hact
        cases hA.symm.trans hnone
  | .make hk _ _ _, hsimple, _, _ | .makeMany hk _ _ _ _ _ _, hsimple, _, _ => (hsimple.parts hk).elim
  | .bitcast hk ht ha hv _ htarget _, hsimple, r, _ => by
    obtain ⟨⟨w, hw⟩, -⟩ := hsimple.parts hk _ ha
    cases r.known.types _ _ _ hw ht
    cases w <;> cases htarget
  | .cast hk ht ha hv hcast, hsimple, r, hfit => by
    obtain ⟨⟨w, hw⟩, hsa⟩ := hsimple.parts hk _ ha
    cases r.known.types _ _ _ hw ht
    rw [eval_eq]
    simp only [evalFrom, hk, hw, ha, evalIn]
    have hregion := hv.region r.here []
    refine (valueTo_leads hs hv hsa r (hfit.line hregion.at_end hcast.line)).bind fun x st hQ => ?_
    obtain ⟨f1, m1, rfl, hst1, hcalm, hx, rfl⟩ := hQ
    exact (coerces_leads hfit hst1 hx hcast).mono fun _ _ h => (h.after hcalm hregion.insts).gives

lemma valueTo_leads (hs : Serves img n C Γ0 call) :
    ValueTo S Γ e c c' v t → Simple C names e → Ready img C S Γ0 Γ names ρ vars objs c f m → c'.Fits img.store.code →
    img.Leads (n + 1) ⟨f, K, m⟩ (eval C call ρ vars e) (Comes img K c c' f m v t)
  | .mk hv hd, hsimple, r, hfit => by
    have hregion := hv.region r.here []
    refine Leads.andThen (exprTo_leads hs hv hsimple r (hfit.line hregion.at_end hd.line)) fun x st hQ => ?_
    obtain ⟨f1, m1, rfl, hst1, hcalm, hx⟩ := hQ
    exact (deref_leads hfit hst1 hd hx).mono fun _ _ h => h.after hcalm hregion.insts

lemma argsTo_leads (hs : Serves img n C Γ0 call) :
    ArgsTo S Γ l c c' args → (∀ a, some a ∈ l → Simple C names a) → Ready img C S Γ0 Γ names ρ vars objs c f m →
    c'.Fits img.store.code → img.Leads (n + 1) ⟨f, K, m⟩ (evalAll C call ρ vars l) (ComeAll img K c c' f m args)
  | .nil, _, r, _ => by
    rw [evalAll]
    exact .ok ⟨f, m, rfl, r.stands, .refl .., .nil⟩
  | .cons hv hrest, hsimple, r, hfit => by
    rw [evalAll, evalIn]
    have hregion := hv.region r.here []
    have hregion' := hrest.region hregion.at_end []
    refine (valueTo_leads hs hv (hsimple _ (.head _)) r (hfit.back hregion' hrest.pending)).bind fun x st hQ => ?_
    obtain ⟨f1, m1, rfl, hst1, hcalm, hx, ht⟩ := hQ
    refine (argsTo_leads hs hrest (fun a ha => hsimple a (.tail _ ha)) (r.next hregion hcalm hst1) hfit).bind
      fun xs st hQ => .ok ?_
    obtain ⟨f2, m2, rfl, hst2, hcalm', hxs⟩ := hQ
    exact ⟨f2, m2, rfl, hst2, hcalm.trans hregion.insts hcalm', .cons ⟨hx.mono hregion'.insts hcalm', ht⟩ hxs⟩

end

end Arbor.Meaning
