import Mathlib.Tactic.Lemma
import Arbor.Lower.Stmts
import Arbor.Tree.Check

/-! What proofs about trees share: the texts of literals, induction over the parts of a node, and how a node
is lowered from its parts. -/

namespace Arbor.Text

lemma toList_loop (bs i r) : ByteArray.toList.loop bs i r = r.reverse ++ bs.data.toList.drop i := by
  fun_induction ByteArray.toList.loop bs i r with
  | case1 i r h ih =>
    have hlt : i < bs.data.toList.length := by simpa using h
    rw [ih, List.drop_eq_getElem_cons hlt]
    have hget : bs.get! i = bs.data.toList[i] := by
      simp only [ByteArray.get!, Array.getElem_toList]
      exact getElem!_pos bs.data i (by simpa using hlt)
    simp [hget]
  | case2 i r h =>
    have hle : bs.data.toList.length ≤ i := by simpa using h
    rw [List.drop_eq_nil_of_le hle, List.append_nil]

lemma ofString_injective {s t : String} (h : ofString s = ofString t) : s = t := by
  have hlist : ∀ bs : ByteArray, bs.toList = bs.data.toList := fun bs => by
    rw [ByteArray.toList, toList_loop]
    rfl
  unfold ofString at h
  rw [hlist, hlist] at h
  exact String.toByteArray_inj.1 (ByteArray.ext (Array.toList_inj.1 h))

@[simp] theorem ofString_inj {s t : String} : ofString s = ofString t ↔ s = t := ⟨ofString_injective, congrArg ofString⟩

end Arbor.Text

namespace Arbor.Tree

lemma Expr.induct {P : Expr → Prop}
    (h : ∀ e : Expr, (∀ x, e.x = some x → P x) → (∀ y, e.y = some y → P y) → (∀ b, e.cond = some b → P b) →
      (∀ a, some a ∈ e.args.getD [] → P a) → (∀ n, e.count = some n → P n) → P e) (e) : P e := by
  refine h e (fun x hx => ?_) (fun y hy => ?_) (fun b hb => ?_) (fun a ha => ?_) fun n hn => ?_
  all_goals exact induct h _
termination_by sizeOf e
decreasing_by
  all_goals obtain ⟨_, _, _, _, _, _, _, _, _, _, _, args, _, _⟩ := e
  all_goals simp_all
  all_goals try omega
  cases args with
  | none => cases ha
  | some l =>
    have := List.sizeOf_lt_of_mem ha
    simp_all
    omega

lemma Stmt.induct {P : Stmt → Prop}
    (h : ∀ s : Stmt, (∀ a, some a ∈ s.list.getD [] → P a) → (∀ a, s.yes = some a → P a) →
      (∀ a, s.no = some a → P a) → (∀ a, s.init = some a → P a) → (∀ a, s.step = some a → P a) →
      (∀ a, s.body = some a → P a) → P s) (s) : P s := by
  refine h s (fun a ha => ?_) (fun a ha => ?_) (fun a ha => ?_) (fun a ha => ?_) (fun a ha => ?_) fun a ha => ?_
  all_goals exact induct h _
termination_by sizeOf s
decreasing_by
  all_goals obtain ⟨_, list, _, _, _, _, _, _, _, _, _, _⟩ := s
  all_goals simp_all
  all_goals try omega
  cases list with
  | none => cases ha
  | some l =>
    have := List.sizeOf_lt_of_mem ha
    simp_all
    omega

lemma Expr.problem?_eq (e : Expr) : e.problem? = match e.kind? with
    | some .int => Finding.when (!intWidths.contains e.bits) (.intWidth e.bits)
    | some .float | some .bool | some .string => none
    | some .ident => Finding.when e.name.isEmpty .unnamedIdent
    | some .unary => Finding.when (e.op.isEmpty || e.x.isNone) .bareUnary <|> Expr.problemIn? e.x
    | some .binary => Finding.when (e.op.isEmpty || e.x.isNone || e.y.isNone) .bareBinary
        <|> Expr.problemIn? e.x <|> Expr.problemIn? e.y
    | some .call => Finding.when e.name.isEmpty .unnamedCall <|> argsProblemIn? e.name e.args
    | some .ternary => Finding.when (e.cond.isNone || e.x.isNone || e.y.isNone) .bareTernary
        <|> Expr.problemIn? e.cond <|> Expr.problemIn? e.x <|> Expr.problemIn? e.y
    | some .make => Finding.when e.type.isNone .bareMake <|> Expr.problemIn? e.count
    | some .cast => Finding.when (e.type.isNone || e.x.isNone) .bareCast <|> Expr.problemIn? e.x
    | none => some (.unknownExpr e.kind) := by
  cases e
  rw [Expr.problem?]
  rfl

lemma Stmt.problem?_eq (s : Stmt) : s.problem? = match s.kind? with
    | some .block => listProblemIn? s.list
    | some .bind => Finding.when (s.name.isEmpty || (s.type.isNone && s.value.isNone)) .bareLet
        <|> Expr.problemIn? s.value
    | some .assign => Finding.when (s.target.isNone || s.value.isNone) .bareAssign
        <|> Expr.problemIn? s.target <|> Expr.problemIn? s.value
    | some .ret => Expr.problemIn? s.value
    | some .cond => Finding.when (s.cond.isNone || s.yes.isNone) .bareIf
        <|> Expr.problemIn? s.cond <|> Stmt.problemIn? s.yes <|> Stmt.problemIn? s.no
    | some .loop => Finding.when s.body.isNone .bareLoop <|> Stmt.problemIn? s.init
        <|> Expr.problemIn? s.cond <|> Stmt.problemIn? s.step <|> Stmt.problemIn? s.body
    | some .leave | some .next => none
    | some .eval => Finding.when s.value.isNone (.noValue .eval) <|> Expr.problemIn? s.value
    | some .drop => Finding.when s.value.isNone (.noValue .drop) <|> Expr.problemIn? s.value
    | none => some (.unknownStmt s.kind) := by
  cases s
  rw [Stmt.problem?]
  rfl

end Arbor.Tree

namespace Arbor.Lower

open Build IR

variable {σ : Type} [Absent σ] (m : Handle)

lemma expr_parts (e) : (expr m e : Act σ ValueId) =
    exprFrom m e ⟨exprIn m e.x, exprIn m e.y, exprIn m e.cond, exprs m (e.args.getD []), exprIn m e.count⟩ := by
  obtain ⟨_, _, _, _, _, _, _, _, _, _, _, args, _, _⟩ := e
  cases args <;> rw [expr] <;> rfl

lemma stmt_parts (s) : (stmt m s : Act σ Unit) = stmtFrom m s ⟨stmts m (s.list.getD []),
    stmtIn m s.yes, stmtIn m s.no, stmtIn m s.init, stmtIn m s.step, stmtIn m s.body⟩ := by
  obtain ⟨_, list, _, _, _, _, _, _, _, _, _, _⟩ := s
  cases list <;> rw [stmt] <;> rfl

end Arbor.Lower
