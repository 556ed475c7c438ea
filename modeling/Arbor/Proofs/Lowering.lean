import Arbor.Proofs.Control
import Arbor.Proofs.Trees

/-! Lowering follows its relation: an expression, a statement or a function that is lowered leaves the
code that `ExprTo`, `StmtTo` and `FuncTo` say, wherever lowering starts from. -/

namespace Arbor.Lower

open IR Build Proofs Arbor.Tree IR.Code Act

variable {σ : Type} {w : World σ} {S : Site} {Γ : Env} {L : Option (Handle × Handle)}
variable {o : Option Expr}

lemma pointers_along (n) : ∀ {w : World σ} {T : TypeId} {t : Ty}, Good w →
    w.store.type? T.handle = some t → Along Silent w (pointers ref n T) fun P w' =>
      w'.store.type? P.handle = some (t.behind n) := by
  induction n with
  | zero => exact fun _ hT => .pure hT
  | succ n ih =>
    intro w T t hg hT
    refine .look (typeKind_along hg hT) fun k _ => ?_
    refine .ite (fun _ => .bind (P := fun _ _ => False) .throw fun _ _ _ h => h.elim) fun _ => ?_
    refine .bind (pointerTo_along hg hT) fun P w2 r2 hP => ?_
    exact ih (r2.good hg) hP

lemma plain_behind (n) : ∀ {t : Ty}, t.Plain → (t.behind n).Plain := by
  induction n with
  | zero => exact id
  | succ n ih => exact fun h => ih h

lemma typeOf_along (hg : Good w) (hn : Named w S) (ref) :
    Along Silent w (typeOf S.module ref) fun T w' => ∃ t, S.type? ref = some t ∧ t.Plain ∧
      w'.store.type? T.handle = some t := by
  cases ref with
  | none =>
    refine (prim_along hg S.module .void).mono fun T w' _ hT => ?_
    exact ⟨.void, rfl, trivial, hT⟩
  | some ref =>
    have hrest : ∀ {w1 : World σ} {T : TypeId} {t : Ty}, Silent w w1 → w1.store.type? T.handle = some t → t.Plain →
        (if ref.name = Text.ofString "void" then some .void else S.types ref.name) = some t →
        Along Silent w1 (pointers ref ref.depth.toNat T) fun P w' => ∃ u, S.type? (some ref) = some u ∧ u.Plain ∧
          w'.store.type? P.handle = some u := by
      intro w1 T t r1 hT hp ht
      refine (pointers_along ref.depth.toNat (r1.good hg) hT).mono fun P w2 _ hP => ?_
      exact ⟨_, by simp only [Site.type?, ht, Option.map_some], plain_behind _ hp, hP⟩
    refine .ite (fun h => ?_) fun h => ?_
    · refine .bind (prim_along hg S.module .void) fun T w1 r1 hT => ?_
      exact hrest r1 hT trivial (if_pos h)
    · refine .bind (resolveType_along hn ref.name) ?_
      rintro T w1 r1 ⟨rfl, t, hT, hp, ht⟩
      exact hrest r1 hT hp ((if_neg h).trans ht)

lemma literal_along (hg : Good w) (hm : Live w m) (e) :
    Along Silent w (literal m e) fun v w' => ∃ op t, Literal m e op t ∧ Is w' v op t := by
  unfold literal
  cases hk : e.kind? with
  | none => exact .throw
  | some k =>
    cases k with
    | int =>
      refine (intConst_along hg hm _ _).mono fun v w' _ ⟨n, hn, hv⟩ => ?_
      exact ⟨_, _, .int hk hn, hv⟩
    | float => exact (floatConst_along hg hm _).mono fun v w' _ hv => ⟨_, _, .float hk, hv⟩
    | bool => exact (boolConst_along hg hm _).mono fun v w' _ hv => ⟨_, _, .bool hk, hv⟩
    | string =>
      refine (textConst_along hg hm _).mono fun v w' _ ⟨i, hv⟩ => ?_
      exact ⟨_, _, .string hk, hv⟩
    | _ => exact .throw

lemma unify_along (hg : Good w) (hm : Live w m) (hx : Is w x opx t)
    (hy : Is w y opy u) : Along Steady w (unify m x y) fun r w' => ∃ x' t' y' u',
      Unifies w.store.code opx t opy u w'.store.code x' t' y' u' ∧ Is w' r.1 x' t' ∧ Is w' r.2 y' u' := by
  refine .bind (Act.typeOf_along hx) ?_
  rintro T w1 - ⟨rfl, hT⟩
  refine .bind (Act.typeOf_along hy) ?_
  rintro U w1 - ⟨rfl, hU⟩
  have hsame := Act.sameType_iff hg hT hU
  refine .ite (fun h => .pure ⟨_, _, _, _, .same (hsame.1 h), hx, hy⟩) fun h => ?_
  have hne : t ≠ u := fun ht => h (hsame.2 ht)
  refine .bind (Act.canCast_along hg hT hU) ?_
  rintro b w1 - ⟨rfl, rfl⟩
  refine .ite (fun hw => ?_) fun hw => ?_
  · refine .bind (Act.coerce_along hg hm hx hU fun _ => Act.plain_of_widens hw hne) ?_
    rintro x' w2 r2 ⟨opx', t', hc, hx'⟩
    exact .pure ⟨_, _, _, _, .left hne hw hc, hx', hy.mono r2.toStep⟩
  · refine .bind (Act.canCast_along hg hU hT) ?_
    rintro b w1 - ⟨rfl, rfl⟩
    refine .ite (fun hw' => ?_) fun hw' => ?_
    · refine .bind (Act.coerce_along hg hm hy hT fun _ => Act.plain_of_widens hw' hne.symm) ?_
      rintro y' w2 r2 ⟨opy', u', hc, hy'⟩
      exact .pure ⟨_, _, _, _, .right hne (by simpa using hw) hw' hc, hx.mono r2.toStep, hy'⟩
    · exact .pure ⟨_, _, _, _, .neither hne (by simpa using hw) (by simpa using hw'), hx, hy⟩

lemma castTo_along (hg : Good w) (hm : Live w m) (hv : Is w v op u) (hT : w.store.type? T.handle = some t) (ht : t.Plain) :
    Along Steady w (castTo m v T) fun x w' => ∃ op' u', ((u.kind.isPointer = true ∧ t.kind.isPointer = true ∧ u' = t ∧
        ∃ h, op' = .inst h ∧ w.store.code.Emits h (.cast .bitcast op t) t w'.store.code) ∨
      Coerces w.store.code op u t w'.store.code op' u') ∧ Is w' x op' u' := by
  refine .bind (Act.typeOf_along hv) ?_
  rintro U w1 - ⟨rfl, hU⟩
  refine .bind (Act.typeKind_along hg hU) ?_
  rintro k w1 - ⟨rfl, rfl⟩
  refine .bind (Act.typeKind_along hg hT) ?_
  rintro k w1 - ⟨rfl, rfl⟩
  refine .ite (fun h => ?_) fun _ => ?_
  · obtain ⟨hu, ht'⟩ := (Bool.and_eq_true _ _).mp h
    refine (Act.bitcast_along hg hm hv hT).mono fun x w2 _ ⟨h, hcast, hx⟩ => ?_
    exact ⟨_, _, .inl ⟨hu, ht', rfl, h, rfl, hcast⟩, hx⟩
  · refine (Act.coerce_along hg hm hv hT fun _ => ht).mono fun x w2 _ ⟨op', u', hc, hx⟩ => ?_
    exact ⟨op', u', .inr hc, hx⟩

def Follows (σ : Type) (S : Site) (e : Expr) : Prop :=
  ∀ {w : World σ} {L Γ}, Good w → Scoped w S Γ L → Along Steady w (expr S.module e) fun v w' => ∃ op t,
    ExprTo S Γ e w.store.code w'.store.code op t ∧ Is w' v op t

section

variable (ih : ∀ x, o = some x → Follows σ S x)

include ih

lemma exprIn_along (hg : Good w) (hsc : Scoped w S Γ L) : Along Steady w (exprIn S.module o) fun v w' => ∃ x op t,
      o = some x ∧ ExprTo S Γ x w.store.code w'.store.code op t ∧ Is w' v op t := by
  cases o with
  | none => exact .throw
  | some x =>
    refine (ih x rfl hg hsc).mono fun v w' _ ⟨op, t, hx, hv⟩ => ?_
    exact ⟨x, op, t, rfl, hx, hv⟩

lemma operand_along {f : ValueId → Act σ α} (hg : Good w) (hsc : Scoped w S Γ L) (h : ∀ {v w' x op t}, Steady w w' →
      Good w' → Scoped w' S Γ L → o = some x → ValueTo S Γ x w.store.code w'.store.code op t → Is w' v op t →
      Along Steady w' (f v) Q) :
    Along Steady w (exprIn S.module o >>= fun v => ptrVal S.module v >>= f) Q := by
  refine .bind (exprIn_along ih hg hsc) fun v w1 r1 ⟨x, op, t, hx, he, hv⟩ => ?_
  have hg1 := r1.good hg
  have hsc1 := hsc.mono r1
  refine .bind (ptrVal_along hg1 hsc1.live hv) fun v' w2 r2 ⟨op', t', hd, hv'⟩ => ?_
  exact h (trans_of Steady r1 r2) (r2.good hg1) (hsc1.mono r2) hx (.mk he hd) hv'

lemma exprPart_along (hg : Good w) (hsc : Scoped w S Γ L) :
    Along Steady w (exprPart S.module o) fun r w' => ∃ v x op t, r = some v ∧ o = some x ∧
      ExprTo S Γ x w.store.code w'.store.code op t ∧ Is w' v op t := by
  refine .map ((exprIn_along ih hg hsc).mono ?_)
  rintro v w' - ⟨x, op, t, ho, hx, hv⟩
  exact ⟨v, x, op, t, rfl, ho, hx, hv⟩

lemma yields_exprPart : Act.Yields S (exprPart S.module o : Act σ (Option ValueId)) o := by
  intro w L Γ hg hsc
  refine (exprPart_along ih hg hsc).mono ?_
  rintro r w' - ⟨v, x, op, t, rfl, ho, hx, hv⟩ v' hv'
  cases hv'
  exact ⟨op, t, ⟨x, ho, hx⟩, hv⟩

end

lemma exprs_along (l : List (Option Expr)) (ih : ∀ a, some a ∈ l → Follows σ S a) : ∀ {w : World σ}, Good w →
    Scoped w S Γ L → Along Steady w (exprs S.module l) fun vs w' => ∃ args,
      ArgsTo S Γ l w.store.code w'.store.code args ∧ List.Forall₂ (fun a p => Is w' a p.1 p.2) vs args := by
  induction l with
  | nil =>
    intro w hg hsc
    exact .pure ⟨[], .nil, .nil⟩
  | cons o l ihl =>
    intro w hg hsc
    refine operand_along (fun x hx => ih x (hx ▸ (.head _))) hg hsc fun _ hg1 hsc1 ho he hv => ?_
    subst ho
    refine .bind (ihl (fun a ha => ih a (.tail _ ha)) hg1 hsc1) ?_
    rintro vs w2 r2 ⟨args, hargs, hvs⟩
    exact .pure ⟨_ :: args, .cons he hargs, .cons (hv.mono r2.toStep) hvs⟩

lemma expr_along (e) : Follows σ S e := by
  induction e using Expr.induct with
  | h e ihx ihy ihcond ihargs ihcount =>
    intro w L Γ hg hsc
    rw [expr_parts]
    unfold exprFrom
    cases hk : e.kind? with
    | none => exact .throw
    | some k =>
      cases k with
      | int | float | bool | string =>
        refine (literal_along hg hsc.live e).keep (fun _ r => r.toSteady) |>.mono fun v w' _ ⟨r, op, t, hlit, hv⟩ => ?_
        exact ⟨op, t, r.code ▸ .literal hlit, hv⟩
      | ident =>
        refine (silently (resolveValue_along hsc e.name)).mono ?_
        rintro v w' - ⟨-, rfl, op, t, hv, hfind⟩
        exact ⟨op, t, .ident hk hfind, hv⟩
      | unary =>
        cases ho : operator? unaryOps e.op with
        | none => exact .throw
        | some o =>
          refine operand_along ihx hg hsc fun _ hg1 hsc1 hx he hv => ?_
          refine (unary_along hg1 hsc1.live o hv).mono fun z w2 _ ⟨h, i, u, hi, hput, hz⟩ => ?_
          exact ⟨.inst h, u, .unary hk ho hx he hi hput, hz⟩
      | binary =>
        cases ho : operator? binaryOps e.op with
        | none => exact .throw
        | some o =>
          refine operand_along ihx hg hsc fun _ hg1 hsc1 hx hex hv => ?_
          refine operand_along ihy hg1 hsc1 fun r2 hg2 hsc2 hy hey hu => ?_
          refine .bind (unify_along hg2 hsc2.live (hv.mono r2.toStep) hu) ?_
          rintro ⟨v', u'⟩ w3 r3 ⟨opx, tx, opy, ty, hunify, hv', hu'⟩
          refine (binary_along (r3.good hg2) (hsc2.mono r3).live o hv' hu').mono ?_
          rintro z w4 - ⟨-, opz, tz, hcomb, hz⟩
          exact ⟨opz, tz, .binary hk ho hx hy hex hey hunify hcomb, hz⟩
      | call =>
        refine .bind (exprs_along (e.args.getD []) ihargs hg hsc) fun vs w1 r1 ⟨args, hargs, hvs⟩ => ?_
        refine (callNamed_along (r1.good hg) (hsc.mono r1) e.name hvs).mono fun z w2 _ ⟨v, r, hcall, hz⟩ => ?_
        exact ⟨v, r, .call hk hargs hcall, hz⟩
      | ternary => exact exprBranch_along hg hsc hk (yields_exprPart ihcond) (yields_exprPart ihx) (yields_exprPart ihy)
      | make =>
        refine .bind (silently (typeOf_along hg hsc.named e.type)) fun T w1 _ ⟨r1, t, ht, _, hT⟩ => ?_
        have hg1 := r1.good hg
        have hsc1 := hsc.mono r1.toSteady
        rw [← r1.code]
        refine .ite (fun hn => ?_) fun _ => ?_
        · refine (make_along hg1 hsc1 hT).mono fun z w2 _ ⟨n, v, hmake, hz⟩ => ?_
          exact ⟨v, .ptr t, .make hk ht (Option.isNone_iff_eq_none.1 hn) hmake, hz⟩
        · refine operand_along ihcount hg1 hsc1 fun r2 hg2 hsc2 hx he hv => ?_
          obtain ⟨he, hd⟩ := he
          refine (makeMany_along hg2 hsc2 (r2.store.type? hT) hv hd.not_slot).mono ?_
          rintro z w3 - ⟨c1, c2, n, v', u', y, ry, y', hconv, hmul, hmake, hz⟩
          exact ⟨y', .ptr t, .makeMany hk ht hx (.mk he hd) hconv hmul hmake, hz⟩
      | cast =>
        refine .bind (silently (typeOf_along hg hsc.named e.type)) fun T w1 _ ⟨r1, t, ht, hp, hT⟩ => ?_
        have hg1 := r1.good hg
        have hsc1 := hsc.mono r1.toSteady
        rw [← r1.code]
        refine operand_along ihx hg1 hsc1 fun r2 hg2 hsc2 hx he hv => ?_
        refine (castTo_along hg2 hsc2.live hv (r2.store.type? hT) hp).mono ?_
        rintro z w3 - ⟨op, u, ⟨hu, ht', rfl, h, rfl, hput⟩ | hcast, hz⟩
        · exact ⟨_, _, .bitcast hk ht hx he hu ht' hput, hz⟩
        · exact ⟨_, _, .cast hk ht hx he hcast, hz⟩

lemma yields_optionalExpr (o) :
    Act.YieldsOpt S (optionalExpr S.module o : Option (Act σ (Option ValueId))) o := by
  cases o with
  | none => exact .inl ⟨rfl, rfl⟩
  | some x => exact .inr ⟨_, rfl, yields_exprPart (o := some x) fun y _ => expr_along y⟩

lemma builds_optional {o : Option Stmt}
    (ih : ∀ a, o = some a → Act.Builds S (stmt S.module a : Act σ Unit) fun L Γ c Γ' c' => StmtTo S L Γ a c Γ' c') :
    Act.Builds S (runOptional (o.map fun _ => (stmtIn S.module o : Act σ Unit))) fun L Γ c Γ' c' =>
      PartTo S L Γ o c Γ' c' := by
  intro w L Γ hg hsc
  cases o with
  | none => exact runOptional_none ⟨Γ, hsc, .none⟩
  | some a =>
    refine (ih a rfl hg hsc).mono fun _ w' _ ⟨Γ', hsc', h⟩ => ?_
    exact ⟨Γ', hsc', .some h⟩

lemma builds_present {o : Option Stmt}
    (ih : ∀ a, o = some a → Act.Builds S (stmt S.module a : Act σ Unit) fun L Γ c Γ' c' => StmtTo S L Γ a c Γ' c') :
    Act.Builds S (stmtIn S.module o : Act σ Unit) fun L Γ c Γ' c' =>
      ∃ b, o = some b ∧ PartTo S L Γ (some b) c Γ' c' := by
  intro w L Γ hg hsc
  cases o with
  | none => exact .throw
  | some a =>
    refine (ih a rfl hg hsc).mono fun _ w' _ ⟨Γ', hsc', h⟩ => ?_
    exact ⟨Γ', hsc', a, rfl, .some h⟩

lemma stmts_along (l : List (Option Stmt))
    (ih : ∀ a, some a ∈ l → Act.Builds S (stmt S.module a : Act σ Unit) fun L Γ c Γ' c' => StmtTo S L Γ a c Γ' c') :
    Act.Builds S (stmts S.module l : Act σ Unit) fun L Γ c Γ' c' => StmtsTo S L Γ l c Γ' c' := by
  induction l with
  | nil =>
    intro w L Γ _ hsc
    exact .pure ⟨Γ, hsc, .nil⟩
  | cons o l ihl =>
    intro w L Γ hg hsc
    refine .bind ((isTerminated_active hg S.module).keep fun _ r => r.toStep) fun ended w1 _ ⟨r1, _, hclosed⟩ => ?_
    have hg1 := r1.good hg
    have hsc1 := hsc.mono r1.toSteady
    rw [← r1.code] at hclosed ⊢
    refine .ite (fun h => .pure ⟨Γ, hsc1, .stop (hclosed h)⟩) fun _ => ?_
    refine .bind (builds_present (fun a ha => ih a (ha ▸ (.head _))) hg1 hsc1) ?_
    rintro _ w2 r2 ⟨Γ1, hsc2, b, rfl, hpart⟩
    cases hpart with
    | some hb =>
      refine (ihl (fun a ha => ih a (.tail _ ha)) (r2.good hg1) hsc2).mono ?_
      rintro _ w3 - ⟨Γ2, hsc3, hl⟩
      exact ⟨Γ2, hsc3, .cons hb hl⟩

lemma bind_along (hg : Good w) (hsc : Scoped w S Γ L) (hk : s.kind? = some .bind)
    (hdeclared : ∀ T, declared = some T → s.type.isSome ∧ S.type? s.type = some u ∧ w.store.type? T.handle = some u)
    (hnone : declared = none → s.type = none) :
    Along Step w (stmtDef S.module s.name declared (optionalExpr S.module s.value)) fun _ w' => ∃ Γ',
      Scoped w' S Γ' L ∧ StmtTo S L Γ s w.store.code Γ' w'.store.code := by
  have hinit : Along Steady w (firstValue S.module s.name declared (optionalExpr S.module s.value)) fun v w' =>
      ∃ op t, InitTo S Γ s w.store.code w'.store.code op t ∧ Is w' v op t := by
    rcases yields_optionalExpr (σ := σ) s.value with ⟨ha, hv⟩ | ⟨a, ha, hyields⟩
    · rw [ha]
      cases declared with
      | none => exact fail_along
      | some T =>
        obtain ⟨hsome, ht, hT⟩ := hdeclared T rfl
        refine (silently (firstValue_zero hg hsc.live hT)).mono fun v w' _ ⟨r, k, hz, hv'⟩ => ?_
        exact ⟨_, _, r.code ▸ .zero hv hsome ht hz, hv'⟩
    · rw [ha]
      refine (firstValue_value hg hsc.live (hyields hg hsc)).mono ?_
      rintro v w' - ⟨c1, op1, t1, op, t, ⟨x, hx, he⟩, hd, hv⟩
      exact ⟨op, t, .value hx (.mk he hd), hv⟩
  refine (stmtDef_along hg hsc hinit fun T hT => (hdeclared T hT).2.2).mono ?_
  rintro _ w' - ⟨Γ', c1, op, t, hsc', hI, ⟨hd, hbind⟩ | ⟨c2, op', t', hd, hconv, hbind⟩⟩
  · exact ⟨Γ', hsc', .bind hk (hnone hd) hI hbind⟩
  · obtain ⟨T, hT⟩ := Option.isSome_iff_exists.1 hd
    obtain ⟨hsome, ht, -⟩ := hdeclared T hT
    exact ⟨Γ', hsc', .bindAs hk hsome ht hI hconv hbind⟩

lemma stmt_along (s) :
    Act.Builds S (stmt S.module s : Act σ Unit) fun L Γ c Γ' c' => StmtTo S L Γ s c Γ' c' := by
  induction s using Stmt.induct with
  | h s ihlist ihyes ihno ihinit ihstep ihbody =>
    intro w L Γ hg hsc
    rw [stmt_parts]
    unfold stmtFrom
    cases hk : s.kind? with
    | none => exact .throw
    | some k =>
      cases k with
      | block =>
        refine (stmtBlock_along hg hsc (stmts_along (s.list.getD []) ihlist)).mono fun _ w' _ ⟨hsc', Γ', hl⟩ => ?_
        exact ⟨Γ, hsc', .block hk hl⟩
      | bind =>
        cases ht : s.type with
        | none => exact bind_along (u := .void) hg hsc hk nofun fun _ => ht
        | some ref =>
          refine .bind (P := fun D (w' : World σ) => ∃ (T : TypeId) (t : Ty), D = some T ∧ Silent w w' ∧
            S.type? (some ref) = some t ∧ w'.store.type? T.handle = some t) (.map ?_) ?_
          · refine ((typeOf_along hg hsc.named (some ref)).keep fun _ r => r.toStep).mono ?_
            rintro T w' - ⟨r, t, ht', -, hT⟩
            exact ⟨T, t, rfl, r, ht', hT⟩
          · rintro D w1 - ⟨T, t, rfl, r1, ht', hT⟩
            rw [← r1.code]
            refine bind_along (u := t) (r1.good hg) (hsc.mono r1.toSteady) hk (fun T' hT' => ?_) nofun
            cases hT'
            exact ⟨by rw [ht]; rfl, by rw [ht, ht'], hT⟩
      | assign =>
        refine (steadily (stmtAssign_along hg hsc.live (yields_exprPart (fun x _ => expr_along x) hg hsc)
          fun w1 r1 => yields_exprPart (fun x _ => expr_along x) (r1.good hg) (hsc.mono r1))).mono ?_
        rintro _ w' - ⟨r, c1, c2, c3, c4, l, tl, rr, tr, g, e, v, t, v', t', k, ⟨x, hx, hl⟩, ⟨y, hy, hr⟩, hslot, hd, hconv, hty,
          hstore⟩
        exact ⟨Γ, hsc.mono r, .assign hk hx hy hl hr hslot hd hconv hty hstore⟩
      | ret =>
        rcases yields_optionalExpr (σ := σ) (S := S) s.value with ⟨ha, hv⟩ | ⟨a, ha, hyields⟩
        · simp only [ha]
          refine (steadily (stmtReturn_none hg hsc)).mono fun _ w' _ ⟨r, hvoid, hend⟩ => ?_
          exact ⟨Γ, hsc.mono r, .ret hk hv hvoid hend⟩
        · simp only [ha]
          refine (steadily (stmtReturn_some hg hsc fun w1 r1 => hyields (r1.good hg) (hsc.mono r1))).mono ?_
          rintro _ w' - ⟨r, c1, c2, c3, op1, t1, op2, t2, op3, t3, ⟨x, hx, he⟩, hd, hconv, hend⟩
          exact ⟨Γ, hsc.mono r, .retValue hk hx (.mk he hd) hconv hend⟩
      | cond =>
        refine (stmtBranch_along (fun _ _ r => r.toStep) (fun _ _ => id) hg hsc
          (yields_exprPart (fun x _ => expr_along x) hg hsc)
          (Y := fun Γ c Γ' c' => ∃ b, s.yes = some b ∧ PartTo S L Γ (some b) c Γ' c')
          (N := fun Γ c Γ' c' => PartTo S L Γ s.no c Γ' c') (fun w1 Γ1 hg1 hsc1 => ?_) fun w1 Γ1 hg1 hsc1 => ?_).mono ?_
        · refine (builds_present ihyes hg1 hsc1).mono fun _ w2 _ ⟨Γ2, hsc2, b, hb, hpart⟩ => ?_
          exact ⟨hpart.pending, Γ2, hsc2, b, hb, hpart⟩
        · refine (builds_optional ihno hg1 hsc1).mono fun _ w2 _ ⟨Γ2, hsc2, hpart⟩ => ?_
          exact ⟨hpart.pending, Γ2, hsc2, hpart⟩
        · rintro _ w' - ⟨c0, x, tx, op, t, c1, c2, c3, c4, c5, c6, c7, c8, c9, Γ1, Γ2, yes, no, after, ⟨e, he, hE⟩, hd, hyes, hno,
            hafter, hfork, ⟨b, hb, hleft⟩, hjoin, hright, hmeet, hcode, hsc'⟩
          refine ⟨Γ2, hsc', ?_⟩
          rw [hcode]
          exact .cond hk he hb (.mk hE hd) hyes hno hafter hfork hleft hjoin hright hmeet
      | loop =>
        refine (stmtLoop_along hg hk (builds_optional ihinit) (yields_optionalExpr s.cond) (builds_optional ihstep)
          (builds_present ihbody) hsc).mono ?_
        rintro _ w' - ⟨hsc', h⟩
        exact ⟨Γ, hsc', h⟩
      | leave =>
        refine (steadily (loopJumps_along hg hsc).1).mono ?_
        rintro _ w' - ⟨r, leave, next, rfl, hend⟩
        exact ⟨Γ, hsc.mono r, .leave hk hend⟩
      | next =>
        refine (steadily (loopJumps_along hg hsc).2).mono ?_
        rintro _ w' - ⟨r, leave, next, rfl, hend⟩
        exact ⟨Γ, hsc.mono r, .next hk hend⟩
      | eval =>
        refine .bind (steadily (exprPart_along (fun x _ => expr_along x) hg hsc)) ?_
        rintro _ w' - ⟨r, v, x, op, t, -, hx, he, -⟩
        exact .pure ⟨Γ, hsc.mono r, .eval hk hx he⟩
      | drop =>
        refine .bind (steadily (exprPart_along (fun x _ => expr_along x) hg hsc)) ?_
        rintro _ w1 - ⟨r1, v, x, op, t, rfl, hx, he, hv⟩
        refine (steadily (drop_along (r1.good hg) (hsc.mono r1) hv)).mono ?_
        rintro _ w2 - ⟨r2, c1, c2, v', v'', t', y, ry, hd, hcast, hcall⟩
        exact ⟨Γ, (hsc.mono r1).mono r2, .drop hk hx (.mk he hd) hcast hcall⟩

lemma bindParams_along (ps) : ∀ {w : World σ} {Γ : Env} (i), Good w → Scoped w S Γ L → (∃ u, Is w fn (.func S.func) u) →
    Along Step w (bindParams S.module fn i ps) fun _ w' => ∃ Γ', Scoped w' S Γ' L ∧
      ParamsTo S i ps Γ w.store.code Γ' w'.store.code := by
  induction ps with
  | nil => exact fun i _ hsc _ => .pure ⟨_, hsc, .nil⟩
  | cons p ps ih =>
    rintro w Γ i hg hsc ⟨u, hfn⟩
    refine .bind ((funcArg_along hg hsc.live hfn i).keep fun _ r => r.toStep) ?_
    rintro arg w1 - ⟨r1, F, t, hF, ht, harg⟩
    have hg1 := r1.good hg
    have hsc1 := hsc.mono r1.toSteady
    refine .look (Act.typeOf_along harg) fun T hT => ?_
    have hinit : Along Steady w1 (firstValue S.module p.name (some T) (some (pure (some arg)))) fun v w' =>
        ∃ op t', (w'.store.code = w1.store.code ∧ op = .param S.func i ∧ t' = t) ∧ Is w' v op t' := by
      refine (firstValue_value hg1 hsc1.live
        (E := fun c op t' => c = w1.store.code ∧ op = .param S.func i ∧ t' = t) ?_).mono ?_
      · refine .pure fun v hv => ?_
        cases hv
        exact ⟨_, _, ⟨rfl, rfl, rfl⟩, harg⟩
      · rintro v w' - ⟨c1, op1, t1, op, t', ⟨rfl, rfl, rfl⟩, hd, hv⟩
        obtain ⟨hcode, rfl, rfl⟩ := hd.eq_of_not_slot (by rintro ⟨_, _, _, h, -⟩; cases h)
        exact ⟨_, _, ⟨hcode, rfl, rfl⟩, hv⟩
    refine .bind (stmtDef_along (u := t) hg1 hsc1
      (I := fun c op t' => c = w1.store.code ∧ op = .param S.func i ∧ t' = t) hinit fun T' hT' => ?_) ?_
    · cases hT'
      exact hT
    · rintro _ w3 r3 ⟨Γ1, c1, op, t', hsc3, ⟨rfl, rfl, rfl⟩, ⟨h, -⟩ | ⟨c2, op', t'', -, hconv, hbind⟩⟩
      · cases h
      · have hsame : c2 = w1.store.code ∧ op' = .param S.func i := by
          cases hconv.coerces with
          | same => exact ⟨rfl, rfl⟩
          | known h | cast h => exact absurd rfl h
        obtain ⟨rfl, rfl⟩ := hsame
        refine (ih (i + 1) (r3.good hg1) hsc3 ⟨u, (hfn.mono r1.toStep).mono r3⟩).mono fun _ w4 _ ⟨Γ2, hsc4, hps⟩ => ?_
        rw [r1.code] at hbind
        exact ⟨Γ2, hsc4, .cons hF ht hbind hps⟩

lemma ParamsTo.extends (h : ParamsTo S i ps Γ c Γ' c') : Γ.Extends Γ' := by
  induction h with
  | nil => exact .refl _
  | cons _ _ hbind _ ih => exact hbind.extends.trans ih

lemma mapM_need_along [IsPreorder (World σ) R] (l : List (Option α)) :
    Along R w (l.mapM need) fun xs w' => w' = w ∧ l = xs.map some := by
  induction l with
  | nil => exact .pure ⟨rfl, rfl⟩
  | cons o l ih =>
    rw [List.mapM_cons]
    refine .bind (need_along o) ?_
    rintro x w' - ⟨rfl, rfl⟩
    refine .bind ih ?_
    rintro xs w' - ⟨rfl, rfl⟩
    exact .pure ⟨rfl, rfl⟩

lemma function_along (hg : Good w) (htop : Top w S Γ)
    (hfn : Is w fn (.func S.func) (.func S.ret ps va)) (d) :
    Along Step w (function S.module d fn) fun _ w' => Top w' S Γ ∧ FuncTo S Γ d w.store.code w'.store.code := by
  have hΓ : Γ.length = 2 := by
    obtain ⟨M, l, imp, hout⟩ := htop
    exact hout.frames.length_eq.symm
  refine .bind (enterFunc_along hg htop hfn) fun _ w1 r1 ⟨hsc1, hs1⟩ => ?_
  have hg1 := r1.good hg
  rw [← hs1]
  refine .bind (steadily (createBlock_along hg1 hsc1 _)) fun entry w2 _ ⟨r2, hne, hentry⟩ => ?_
  refine .bind (steadily (setActiveBlock_along S.module entry)) fun _ w3 _ ⟨r3, hset⟩ => ?_
  obtain ⟨hcode3, -⟩ := hset hne
  have hg3 := r3.good (r2.good hg1)
  have hsc3 := (hsc1.mono r2).mono r3
  have hfn3 := ((hfn.mono r1).mono r2.toStep).mono r3.toStep
  refine .look (mapM_need_along d.params.items) fun params hparams => ?_
  refine .bind (bindParams_along params 0 hg3 hsc3 ⟨_, hfn3⟩) fun _ w5 r5 ⟨Γ1, hsc5, hps⟩ => ?_
  rw [hcode3] at hps
  have hg5 := r5.good hg3
  refine .look (need_along d.body) fun body hbody => ?_
  refine .bind (stmts_along (body.list.getD []) (fun a _ => stmt_along a) hg5 hsc5) fun _ w7 r7 ⟨Γ2, hsc7, hl⟩ => ?_
  have hg7 := r7.good hg5
  refine .bind (steadily (ensureTailRet_along hg7 hsc7.live ((hfn3.mono r5).mono r7))) fun _ w8 _ ⟨r8, htail⟩ => ?_
  have hg8 := r8.good hg7
  refine .bind (steadily (setActiveBlock_none hg8 S.module)) fun _ w9 _ ⟨r9, hcode9⟩ => ?_
  obtain ⟨more, rfl⟩ := (hps.extends.trans hl.extends).uncons
  refine (leaveFunc_along ((hsc7.mono r8).mono r9) hΓ).mono fun _ w10 _ ⟨htop', hs10⟩ => ?_
  refine ⟨htop', ?_⟩
  rw [hs10, hcode9]
  exact .mk hentry hparams hbody hps hl htail

end Arbor.Lower
