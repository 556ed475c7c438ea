import Arbor.Lower.Decls
import Arbor.Proofs.Along
import Arbor.Proofs.Trees
import Arbor.Tree.Outline

/-! A checked module has every node that lowering and drawing need. Lowering takes what it does at an
absent node as a parameter, `Absent`: for a checked module the build is the same action whatever that
is, so it is never done, in any world. Drawing fails at an absent node, and never does for a checked
module. -/

namespace Arbor.Tree

variable {name : Text}

lemma orElse_eq_none : (x <|> y) = none ↔ x = none ∧ y = none := by
  cases x <;> simp

lemma when_eq_none : Finding.when bad p = none ↔ bad = false := by
  cases bad <;> simp [Finding.when]

def Expr.Present (o : Option Expr) : Prop := ∃ e, o = some e ∧ e.problem? = none

lemma Expr.present_of (hsome : o.isNone = false) (h : Expr.problemIn? o = none) : Expr.Present o := by
  cases o with
  | none => cases hsome
  | some e => exact ⟨e, rfl, h⟩

def Stmt.Present (o : Option Stmt) : Prop := ∃ s, o = some s ∧ s.problem? = none

lemma Stmt.present_of (hsome : o.isNone = false) (h : Stmt.problemIn? o = none) : Stmt.Present o := by
  cases o with
  | none => cases hsome
  | some s => exact ⟨s, rfl, h⟩

def Full {α : Type} (P : α → Prop) (l : List (Option α)) : Prop := ∀ o ∈ l, ∃ x, o = some x ∧ P x

namespace Full

variable {α β : Type} {P : α → Prop}

lemma nil : Full P [] := nofun

lemma cons (hx : P x) (h : Full P l) : Full P (some x :: l) := by
  intro o ho
  rcases List.mem_cons.1 ho with rfl | ho
  · exact ⟨x, rfl, hx⟩
  · exact h o ho

lemma mono (h : Full P l) (himp : ∀ x, P x → Q x) : Full Q l := by
  intro o ho
  obtain ⟨x, rfl, hx⟩ := h o ho
  exact ⟨x, rfl, himp x hx⟩

lemma mapM_isSome {f : Option α → Option β} (h : Full P l) (hf : ∀ x, P x → (f (some x)).isSome) :
    (l.mapM f).isSome := by
  induction l with
  | nil => rfl
  | cons o l ih =>
    obtain ⟨x, rfl, hx⟩ := h o (.head _)
    obtain ⟨y, hy⟩ := Option.isSome_iff_exists.1 (hf x hx)
    obtain ⟨ys, hys⟩ := Option.isSome_iff_exists.1 (ih fun o' ho' => h o' (.tail _ ho'))
    rw [List.mapM_cons, hy, hys]
    rfl

end Full

lemma argsProblem?_none (h : argsProblem? callee l = none) : Full (·.problem? = none) l := by
  induction l with
  | nil => exact .nil
  | cons o l ih =>
    cases o with
    | none => cases h
    | some e =>
      rw [argsProblem?, orElse_eq_none] at h
      exact .cons h.1 (ih h.2)

lemma listProblem?_none (h : listProblem? l = none) : Full (·.problem? = none) l := by
  induction l with
  | nil => exact .nil
  | cons o l ih =>
    cases o with
    | none => cases h
    | some s =>
      rw [listProblem?, orElse_eq_none] at h
      exact .cons h.1 (ih h.2)

lemma paramsProblem?_none (h : paramsProblem? kind name l = none) : Full (fun _ => True) l := by
  rw [paramsProblem?, when_eq_none, List.any_eq_false] at h
  intro o ho
  cases o with
  | none => exact absurd rfl (h none ho)
  | some p => exact ⟨p, rfl, trivial⟩

lemma fieldsProblem?_none (h : fieldsProblem? name l = none) : Full (fun f => Expr.problemIn? f.init = none) l := by
  induction l with
  | nil => exact .nil
  | cons o l ih =>
    cases o with
    | none => cases h
    | some f =>
      rw [fieldsProblem?, orElse_eq_none, orElse_eq_none] at h
      exact .cons h.2.1 (ih h.2.2)

lemma declsProblem?_none (h : declsProblem? index l = none) : Full (fun d => ∃ i, d.problem? i = none) l := by
  induction l generalizing index with
  | nil => exact .nil
  | cons o l ih =>
    cases o with
    | none => cases h
    | some d =>
      rw [declsProblem?, orElse_eq_none] at h
      exact .cons ⟨index, h.1⟩ (ih h.2)

lemma importsProblem?_none (h : importsProblem? index l = none) : Full (fun _ => True) l := by
  induction l generalizing index with
  | nil => exact .nil
  | cons o l ih =>
    cases o with
    | none => cases h
    | some i =>
      rw [importsProblem?, orElse_eq_none] at h
      exact .cons trivial (ih h.2)

structure Decl.Complete (d : Decl) : Prop where
  params : d.kind? = some .func ∨ d.kind? = some .foreign → Full (fun _ => True) d.params.items
  body : d.kind? = some .func → ∃ s, d.body = some s ∧ Full (·.problem? = none) (s.list.getD [])
  fields : d.kind? = some .struct → Full (fun f => Expr.problemIn? f.init = none) d.fields.items
  init : d.kind? = some .bind → d.init.isSome

lemma bodyProblem?_none (h : bodyProblem? name o = none) :
    ∃ s, o = some s ∧ Full (·.problem? = none) (s.list.getD []) := by
  cases o with
  | none => cases h
  | some s =>
    refine ⟨s, rfl, ?_⟩
    rw [bodyProblem?] at h
    by_cases hk : s.kind? = some .block
    · rw [Stmt.problem?_eq, hk] at h
      cases hl : s.list with
      | none => exact .nil
      | some l =>
        rw [hl] at h
        exact listProblem?_none h
    · rw [if_neg hk] at h
      cases h

lemma Decl.complete {d : Decl} (h : d.problem? index = none) : d.Complete := by
  rw [Decl.problem?] at h
  cases hk : d.kind? with
  | none =>
    rw [hk] at h
    cases h
  | some k =>
    rw [hk] at h
    cases k with
    | func =>
      simp only [orElse_eq_none] at h
      exact ⟨fun _ => paramsProblem?_none h.2.1, fun _ => bodyProblem?_none h.2.2, by simp [hk], by simp [hk]⟩
    | foreign =>
      simp only [orElse_eq_none] at h
      exact ⟨fun _ => paramsProblem?_none h.2, by simp [hk], by simp [hk], by simp [hk]⟩
    | struct =>
      simp only [orElse_eq_none] at h
      exact ⟨by simp [hk], by simp [hk], fun _ => fieldsProblem?_none h.2, by simp [hk]⟩
    | bind =>
      simp only [orElse_eq_none, when_eq_none] at h
      refine ⟨by simp [hk], by simp [hk], by simp [hk], fun _ => ?_⟩
      exact Option.isSome_iff_ne_none.2 fun hnone => by simp [hnone] at h
    | publish => exact ⟨by simp [hk], by simp [hk], by simp [hk], by simp [hk]⟩

lemma Module.complete {m : Module} (h : m.check = .ok ()) :
    Full (fun _ => True) m.imports.items ∧ Full Decl.Complete m.decls.items := by
  have hproblem : m.problem? = none := by
    unfold Module.check at h
    by_cases hname : m.name.isEmpty
    · rw [if_pos hname] at h
      cases h
    · rw [if_neg hname] at h
      cases hp : m.problem? with
      | none => rfl
      | some p =>
        rw [hp] at h
        cases h
  rw [Module.problem?, orElse_eq_none] at hproblem
  exact ⟨importsProblem?_none hproblem.1, (declsProblem?_none hproblem.2).mono fun d hd => hd.elim fun _ => d.complete⟩

end Arbor.Tree

namespace Arbor.Lower

open IR Diag Build Arbor.Tree List

variable {σ : Type}
variable {src : Tree.Module}

/-! ## Expressions -/

variable (a b : Absent σ)

def ExprSame (e : Expr) : Prop := ∀ m, @expr σ a m e = @expr σ b m e

lemma exprIn_same (hp : Expr.Present o) (ih : ∀ e, o = some e → e.problem? = none → ExprSame a b e) :
    @exprIn σ a m o = @exprIn σ b m o := by
  obtain ⟨e, rfl, he⟩ := hp
  exact ih e rfl he m

lemma exprs_same (hp : Full (·.problem? = none) l)
    (ih : ∀ e, some e ∈ l → e.problem? = none → ExprSame a b e) : @exprs σ a m l = @exprs σ b m l := by
  induction l with
  | nil => rfl
  | cons o l ihl =>
    have hhead := exprIn_same a b (m := m) (hp o (.head _)) fun e he => ih e (he ▸ (.head _))
    have htail := ihl (fun o' ho' => hp o' (.tail _ ho')) fun e he => ih e (.tail _ he)
    unfold exprs
    rw [hhead, htail]

lemma expr_same (h : e.problem? = none) : ExprSame a b e := by
  induction e using Expr.induct with
  | h e ihx ihy ihcond ihargs ihcount =>
    intro m
    rw [Expr.problem?_eq] at h
    rw [@expr_parts σ a, @expr_parts σ b]
    unfold exprFrom
    cases hk : e.kind? with
    | none => rfl
    | some k =>
      rw [hk] at h
      cases k with
      | int | float | bool | string | ident => rfl
      | unary | cast =>
        simp only [orElse_eq_none, when_eq_none, Bool.or_eq_false_iff] at h
        have hx := exprIn_same a b (m := m) (Expr.present_of h.1.2 h.2) ihx
        simp only [hx]
      | binary =>
        simp only [orElse_eq_none, when_eq_none, Bool.or_eq_false_iff] at h
        have hx := exprIn_same a b (m := m) (Expr.present_of h.1.1.2 h.2.1) ihx
        have hy := exprIn_same a b (m := m) (Expr.present_of h.1.2 h.2.2) ihy
        simp only [hx, hy]
      | call =>
        simp only [orElse_eq_none] at h
        have hargs : @exprs σ a m (e.args.getD []) = @exprs σ b m (e.args.getD []) := by
          cases hl : e.args with
          | none => exact exprs_same a b nofun nofun
          | some l =>
            rw [hl] at h ihargs
            exact exprs_same a b (argsProblem?_none h.2) ihargs
        simp only [hargs]
      | ternary =>
        simp only [orElse_eq_none, when_eq_none, Bool.or_eq_false_iff] at h
        have hcond := exprIn_same a b (m := m) (Expr.present_of h.1.1.1 h.2.1) ihcond
        have hx := exprIn_same a b (m := m) (Expr.present_of h.1.1.2 h.2.2.1) ihx
        have hy := exprIn_same a b (m := m) (Expr.present_of h.1.2 h.2.2.2) ihy
        simp only [hcond, hx, hy]
      | make =>
        simp only [orElse_eq_none] at h
        cases hc : e.count with
        | none => rfl
        | some n =>
          rw [hc] at h
          have hn := exprIn_same a b (m := m) ⟨n, hc, h.2⟩ ihcount
          rw [hc] at hn
          simp only [hn]

lemma exprPart_same (hp : Expr.Present o) : @exprPart σ a m o = @exprPart σ b m o := by
  unfold exprPart
  rw [exprIn_same a b hp fun e _ he => expr_same a b he]

lemma optionalExpr_same (h : Expr.problemIn? o = none) : @optionalExpr σ a m o = @optionalExpr σ b m o := by
  cases o with
  | none => rfl
  | some e =>
    unfold optionalExpr
    rw [Option.map_some, Option.map_some, expr_same a b h m]

/-! ## Statements -/

def StmtSame (s : Stmt) : Prop := ∀ m, @stmt σ a m s = @stmt σ b m s

lemma stmtIn_same (hp : Stmt.Present o) (ih : ∀ s, o = some s → s.problem? = none → StmtSame a b s) :
    @stmtIn σ a m o = @stmtIn σ b m o := by
  obtain ⟨s, rfl, hs⟩ := hp
  exact ih s rfl hs m

lemma optionalStmt_same (h : Stmt.problemIn? o = none) (ih : ∀ s, o = some s → s.problem? = none → StmtSame a b s) :
    (o.map fun _ => @stmtIn σ a m o) = o.map fun _ => @stmtIn σ b m o := by
  cases o with
  | none => rfl
  | some s => rw [stmtIn_same a b ⟨s, rfl, h⟩ ih]

lemma stmts_same (hp : Full (·.problem? = none) l)
    (ih : ∀ s, some s ∈ l → s.problem? = none → StmtSame a b s) : @stmts σ a m l = @stmts σ b m l := by
  induction l with
  | nil => rfl
  | cons o l ihl =>
    have hhead := stmtIn_same a b (m := m) (hp o (.head _)) fun s hs => ih s (hs ▸ (.head _))
    have htail := ihl (fun o' ho' => hp o' (.tail _ ho')) fun s hs => ih s (.tail _ hs)
    unfold stmts
    rw [hhead, htail]

lemma stmt_same (h : s.problem? = none) : StmtSame a b s := by
  induction s using Stmt.induct with
  | h s ihlist ihyes ihno ihinit ihstep ihbody =>
    intro m
    rw [Stmt.problem?_eq] at h
    rw [@stmt_parts σ a, @stmt_parts σ b]
    unfold stmtFrom
    cases hk : s.kind? with
    | none => rfl
    | some k =>
      rw [hk] at h
      cases k with
      | leave => rfl
      | next => rfl
      | block =>
        have hlist : @stmts σ a m (s.list.getD []) = @stmts σ b m (s.list.getD []) := by
          cases hl : s.list with
          | none => exact stmts_same a b nofun nofun
          | some l =>
            rw [hl] at h ihlist
            exact stmts_same a b (listProblem?_none h) ihlist
        simp only [hlist]
      | bind =>
        have hvalue := optionalExpr_same a b (m := m) (orElse_eq_none.1 h).2
        simp only [hvalue]
      | ret =>
        have hvalue := optionalExpr_same a b (m := m) h
        simp only [hvalue]
      | assign =>
        simp only [orElse_eq_none, when_eq_none, Bool.or_eq_false_iff] at h
        have htarget := exprPart_same a b (m := m) (Expr.present_of h.1.1 h.2.1)
        have hvalue := exprPart_same a b (m := m) (Expr.present_of h.1.2 h.2.2)
        simp only [htarget, hvalue]
      | cond =>
        simp only [orElse_eq_none, when_eq_none, Bool.or_eq_false_iff] at h
        have hcond := exprPart_same a b (m := m) (Expr.present_of h.1.1 h.2.1)
        have hyes := stmtIn_same a b (m := m) (Stmt.present_of h.1.2 h.2.2.1) ihyes
        have hno := optionalStmt_same a b (m := m) h.2.2.2 ihno
        simp only [hcond, hyes, hno]
      | loop =>
        simp only [orElse_eq_none, when_eq_none] at h
        have hinit := optionalStmt_same a b (m := m) h.2.1 ihinit
        have hcond := optionalExpr_same a b (m := m) h.2.2.1
        have hstep := optionalStmt_same a b (m := m) h.2.2.2.1 ihstep
        have hbody := stmtIn_same a b (m := m) (Stmt.present_of h.1 h.2.2.2.2) ihbody
        simp only [hinit, hcond, hstep, hbody]
      | eval | drop =>
        simp only [orElse_eq_none, when_eq_none] at h
        have hvalue := exprPart_same a b (m := m) (Expr.present_of h.1 h.2)
        simp only [hvalue]

/-! ## Declarations

A pass works on what the passes before it returned, so that the lists they return are made of checked
nodes is carried along. -/

section

variable {α β : Type} {P : α → Prop}

def Results (x : Act σ α) (P : α → Prop) : Prop := ∀ w, Proofs.Obeys w x (fun r _ => P r) fun _ _ => True

namespace Results

lemma pure (h : P x) : Results (Pure.pure x : Act σ α) P := fun _ => h

lemma throw : Results (throw e : Act σ α) P := fun _ => trivial

lemma bind {Q : β → Prop} (hx : Results x Q) (hf : ∀ y, Q y → Results (f y) P) :
    Results (x >>= f) P := fun w => .bind (hx w) fun y w' hy => hf y hy w'

lemma any : Results x fun _ => True := fun w => by
  unfold Proofs.Obeys
  split <;> trivial

lemma attempt (hx : Results x P) : Results (Act.attempt x) fun r => ∀ y, r = .ok y → P y := by
  refine fun w => .tryCatch (.bind (hx w) fun x _ h _ hy => Except.ok.inj hy ▸ h) fun e _ _ => ?_
  cases e with
  | fault f => exact nofun
  | missing | endless => trivial

lemma mapM {l : List β} (h : ∀ x ∈ l, Results (f x) P) : Results (l.mapM f) fun ys => ∀ y ∈ ys, P y := by
  induction l with
  | nil => exact .pure nofun
  | cons x l ih =>
    rw [mapM_cons]
    refine .bind (h x (.head _)) fun y hy => ?_
    refine .bind (ih fun x' hx' => h x' (.tail _ hx')) fun ys hys => .pure fun z hz => ?_
    rcases mem_cons.1 hz with rfl | hz
    · exact hy
    · exact hys z hz

lemma filterMapM {l : List β} (h : ∀ x ∈ l, Results (f x) fun r => ∀ y, r = some y → P y) :
    Results (l.filterMapM f) fun ys => ∀ y ∈ ys, P y := by
  induction l with
  | nil => exact .pure nofun
  | cons x l ih =>
    rw [filterMapM_cons]
    have hrest := ih fun x' hx' => h x' (.tail _ hx')
    refine .bind (h x (.head _)) fun r hr => ?_
    cases r with
    | none => exact hrest
    | some y =>
      refine .bind hrest fun ys hys => .pure fun z hz => ?_
      rcases mem_cons.1 hz with rfl | hz
      · exact hr z rfl
      · exact hys z hz

lemma bind_congr {x : Act σ α} (hx : Results x P) (h : ∀ y, P y → f y = g y) :
    x >>= f = x >>= g := by
  funext w
  change EStateM.bind x f w = EStateM.bind x g w
  unfold EStateM.bind
  have hw := hx w
  unfold Proofs.Obeys at hw
  cases hy : x w with
  | ok y w1 =>
    rw [hy] at hw
    exact congrFun (h y hw) w1
  | error e w1 => rfl

end Results

lemma mapM_congr {f g : β → Act σ α} {l : List β} (h : ∀ x ∈ l, f x = g x) : l.mapM f = l.mapM g := by
  induction l with
  | nil => rfl
  | cons x l ih => rw [mapM_cons, mapM_cons, h x (.head _), ih fun y hy => h y (.tail _ hy)]

lemma filterMapM_congr {f g : β → Act σ (Option α)} {l : List β} (h : ∀ x ∈ l, f x = g x) :
    l.filterMapM f = l.filterMapM g := by
  induction l with
  | nil => rfl
  | cons x l ih =>
    rw [filterMapM_cons, filterMapM_cons, h x (.head _), ih fun y hy => h y (.tail _ hy)]

lemma forM_congr {f g : β → Act σ PUnit} {l : List β} (h : ∀ x ∈ l, f x = g x) : l.forM f = l.forM g := by
  induction l with
  | nil => rfl
  | cons x l ih =>
    change (f x >>= fun _ => l.forM f) = g x >>= fun _ => l.forM g
    rw [h x (.head _), ih fun y hy => h y (.tail _ hy)]

lemma foldlM_congr {f g : α → β → Act σ α} {l : List β} (h : ∀ x ∈ l, ∀ y, f y x = g y x) (y) :
    l.foldlM f y = l.foldlM g y := by
  induction l generalizing y with
  | nil => rfl
  | cons x l ih =>
    rw [foldlM_cons, h x (.head _)]
    exact bind_congr fun z => ih (fun x' hx' => h x' (.tail _ hx')) z

end

lemma presents_same {P : α → Prop} {l : List (Option α)} (h : Full P l) :
    l.mapM (@present σ a α) = l.mapM (@present σ b α) := by
  refine mapM_congr fun o ho => ?_
  obtain ⟨x, rfl, -⟩ := h o ho
  rfl

lemma layout_same (hs : ∀ p ∈ structs, p.2.Complete ∧ p.2.kind? = some .struct)
    (fuel) : ∀ (visiting done) (d), d.Complete → d.kind? = some .struct →
      @layout σ a m structs fuel visiting done d = @layout σ b m structs fuel visiting done d := by
  induction fuel with
  | zero => exact fun _ _ _ _ _ => rfl
  | succ fuel ih =>
    intro visiting done d hd hk
    have hfields : ∀ t, (d.fields.items.forM fun o => @present σ a Field o >>= fun f => @layoutField σ a m d.name t f) =
        d.fields.items.forM fun o => @present σ b Field o >>= fun f => @layoutField σ b m d.name t f := by
      intro t
      refine forM_congr fun o ho => ?_
      obtain ⟨f, rfl, -⟩ := hd.fields hk o ho
      cases f with
      | mk _ _ init => cases init <;> rfl
    unfold layout
    cases hbase : structs.lookup d.base with
    | none => simp only [hfields]
    | some base =>
      obtain ⟨l1, l2, hl, -⟩ := lookup_eq_some_iff.1 hbase
      have hmem := hs (d.base, base) (by rw [hl]; exact mem_append_right _ (.head _))
      simp only [hfields, ih _ _ base hmem.1 hmem.2]

lemma declared_results (h : Full Decl.Complete src.decls.items) :
    Results (src.decls.items.mapM fun o => @present σ b Decl o >>= fun d => declareStruct m d >>= fun _ => pure d)
      fun decls => ∀ d ∈ decls, d.Complete := by
  refine .mapM fun o ho => ?_
  obtain ⟨d, rfl, hd⟩ := h o ho
  exact .bind (.pure hd) fun d' hd' => .bind .any fun _ _ => .pure hd'

lemma declareStructs_same (h : Full Decl.Complete src.decls.items) :
    @declareStructs σ a m src = @declareStructs σ b m src := by
  have hread : (src.decls.items.mapM fun o => @present σ a Decl o >>= fun d => declareStruct m d >>= fun _ => pure d) =
      src.decls.items.mapM fun o => @present σ b Decl o >>= fun d => declareStruct m d >>= fun _ => pure d := by
    refine mapM_congr fun o ho => ?_
    obtain ⟨d, rfl, -⟩ := h o ho
    rfl
  unfold declareStructs
  rw [hread]
  refine Results.bind_congr (declared_results b h) fun decls hdecls => ?_
  have hstructs : ∀ d ∈ decls.filter (fun d => d.kind? = some .struct), d.Complete ∧ d.kind? = some .struct := by
    intro d hd
    rw [mem_filter] at hd
    exact ⟨hdecls d hd.1, of_decide_eq_true hd.2⟩
  have hnamed : ∀ p ∈ (decls.filter fun d => d.kind? = some .struct).map fun d => (d.name, d),
      p.2.Complete ∧ p.2.kind? = some .struct := by
    intro p hp
    obtain ⟨d, hd, rfl⟩ := mem_map.1 hp
    exact hstructs d hd
  simp only [foldlM_congr fun d hd done => layout_same a b hnamed _ [] done d (hstructs d hd).1 (hstructs d hd).2]

lemma paramTypes_same (h : Full (fun _ => True) params) :
    @paramTypes σ a m func params = @paramTypes σ b m func params := by
  refine mapM_congr fun o ho => ?_
  obtain ⟨p, rfl, -⟩ := h o ho
  rfl

lemma declareFunc_same (h : Full (fun _ => True) d.params.items) :
    @declareFunc σ a m d = @declareFunc σ b m d := by
  unfold declareFunc
  rw [paramTypes_same a b h]

lemma declareFuncs_same (h : ∀ d ∈ decls, d.Complete) :
    @declareFuncs σ a m decls = @declareFuncs σ b m decls := by
  refine filterMapM_congr fun d hd => ?_
  cases hk : d.kind? with
  | none => rfl
  | some k =>
    cases k with
    | func => simp only [declareFunc_same a b ((h d hd).params (.inl hk))]
    | foreign => simp only [declareFunc_same a b ((h d hd).params (.inr hk))]
    | struct => rfl
    | bind => rfl
    | publish => rfl

lemma declareFuncs_results (h : ∀ d ∈ decls, d.Complete) :
    Results (@declareFuncs σ b m decls) fun funcs => ∀ p ∈ funcs, p.1.Complete ∧ p.1.kind? = some .func := by
  refine .filterMapM fun d hd => ?_
  cases hk : d.kind? with
  | none => exact .pure nofun
  | some k =>
    cases k with
    | func =>
      refine .bind .any fun fn _ => .pure fun y hy => ?_
      cases hy
      exact ⟨h d hd, hk⟩
    | foreign => exact .bind .any fun _ _ => .pure nofun
    | struct | bind | publish => exact .pure nofun

lemma declareLets_same (h : ∀ d ∈ decls, d.Complete) :
    @declareLets σ a m decls = @declareLets σ b m decls := by
  refine forM_congr fun d hd => ?_
  rw [mem_filter] at hd
  obtain ⟨e, he⟩ := Option.isSome_iff_exists.1 ((h d hd.1).init (of_decide_eq_true hd.2))
  rw [he]
  rfl

lemma function_same (hd : d.Complete) (hk : d.kind? = some .func) :
    @function σ a m d fn = @function σ b m d fn := by
  obtain ⟨s, hs, hlist⟩ := hd.body hk
  have hbody := stmts_same a b (m := m) hlist fun s _ hs => stmt_same a b hs
  unfold function
  rw [hs, presents_same a b (hd.params (.inl hk))]
  simp only [present, pure_bind, hbody]

lemma bodies_same {cancelled : Act σ Bool}
    (h : ∀ p ∈ funcs, p.1.Complete ∧ p.1.kind? = some .func) :
    @bodies σ a m cancelled funcs = @bodies σ b m cancelled funcs := by
  refine forM_congr fun p hp => ?_
  obtain ⟨d, fn⟩ := p
  simp only [function_same a b (h (d, fn) hp).1 (h (d, fn) hp).2]

lemma pass_results {P : α → Prop} {body : Act σ α}
    (h : Results body P) : Results (pass m src cancelled name body) P := by
  refine .bind .any fun _ _ => .bind .any fun _ _ => .bind .any fun _ _ => ?_
  refine .bind h.attempt fun r hr => ?_
  cases r with
  | ok x => exact .bind .any fun _ _ => .pure (hr x rfl)
  | error f => exact .bind .any fun _ _ => .throw

lemma passes_same (h : src.check = .ok ()) :
    @passes σ a m src cancelled = @passes σ b m src cancelled := by
  obtain ⟨himports, hdecls⟩ := src.complete h
  unfold passes useImports
  rw [presents_same a b himports, declareStructs_same a b hdecls]
  refine bind_congr fun _ => Results.bind_congr (pass_results (.bind (declared_results b hdecls)
    fun decls hdecls => .bind .any fun _ _ => .pure hdecls)) fun decls hd => ?_
  rw [declareFuncs_same a b hd, declareLets_same a b hd]
  refine Results.bind_congr (pass_results (declareFuncs_results b hd)) fun funcs hf => ?_
  rw [bodies_same a b hf]

end Arbor.Lower

namespace Arbor.Tree

open Option

/-! ## Drawing -/

lemma Decl.outline_isSome {d : Decl} (h : d.Complete) : d.outline.isSome := by
  unfold Decl.outline
  cases hk : d.kind? with
  | none => rfl
  | some k =>
    have hsignature : Full (fun _ => True) d.params.items → d.signature.isSome := by
      intro hp
      obtain ⟨texts, ht⟩ := isSome_iff_exists.1
        (hp.mapM_isSome (f := fun p => do let p ← p; pure (p.name ++ " " ++ TypeRef.writtenOr p.type)) fun _ _ => rfl)
      unfold Decl.signature
      rw [ht]
      rfl
    cases k with
    | func =>
      obtain ⟨text, ht⟩ := isSome_iff_exists.1 (hsignature (h.params (.inl hk)))
      rw [ht]
      rfl
    | foreign =>
      obtain ⟨text, ht⟩ := isSome_iff_exists.1 (hsignature (h.params (.inr hk)))
      rw [ht]
      rfl
    | struct =>
      obtain ⟨fields, hf⟩ := isSome_iff_exists.1
        ((h.fields hk).mapM_isSome (f := fun f => f.map Field.outline) fun _ _ => rfl)
      simp only [hf]
      rfl
    | bind => rfl
    | publish => rfl

lemma declOutlines_isSome (h : Full Decl.Complete l) (index) :
    (declOutlines index l).isSome := by
  induction l generalizing index with
  | nil => rfl
  | cons o l ih =>
    obtain ⟨d, rfl, hd⟩ := h o (.head _)
    obtain ⟨first, hfirst⟩ := isSome_iff_exists.1 (Decl.outline_isSome hd)
    obtain ⟨below, hbelow⟩ := isSome_iff_exists.1
      (ih (fun o' ho' => h o' (.tail _ ho')) (index + 1))
    rw [declOutlines, hfirst, hbelow]
    rfl

lemma Module.outline_isSome {m : Module} (h : m.check = .ok ()) : m.outline.isSome := by
  obtain ⟨himports, hdecls⟩ := m.complete h
  obtain ⟨imports, hi⟩ := isSome_iff_exists.1
    (himports.mapM_isSome (f := fun i => i.map Import.outline) fun _ _ => rfl)
  obtain ⟨decls, hd⟩ := isSome_iff_exists.1 (declOutlines_isSome hdecls 0)
  unfold Module.outline
  rw [hi, hd]
  rfl

/-- Nothing that works on a checked module comes to an absent node: its build is the same action
whatever is done at one, and it has an outline. -/
theorem Module.check_present (m : Module) (h : m.check = .ok ()) :
    (∀ (σ : Type) (a b : Lower.Absent σ) (cancelled : Build.Act σ Bool),
      @Lower.build σ a cancelled m = @Lower.build σ b cancelled m) ∧ ∃ o, m.outline = some o := by
  refine ⟨fun σ a b cancelled => ?_, Option.isSome_iff_exists.1 (Module.outline_isSome h)⟩
  unfold Lower.build
  congr 1
  funext handle
  exact Lower.passes_same a b h

theorem Module.check_present_return : ∃ o, Module.outline { name := [109], decls := some [some
      { kind := 1, name := [102], params := some [some { name := [120], type := some { name := [105] } }],
        body := some { kind := 1, list := some [some { kind := 4, value := some { kind := 5, name := [120] } }] } }] } =
      some o := (Module.check_present _ rfl).2

end Arbor.Tree
