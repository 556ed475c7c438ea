import Arbor.Proofs.Trees

/-! What encoding does not tell apart: a list without nodes and an absent one, and the two zeros. The
check of a module does not tell them apart either. -/

namespace Arbor.Tree

def filled {α : Type} : Option (List α) → Option (List α)
  | some (a :: l) => some (a :: l)
  | _ => none

def plainZero (bits : UInt64) : UInt64 := if bits &&& 0x7FFFFFFFFFFFFFFF = 0 then 0 else bits

mutual

def Expr.tidy : Expr → Expr
  | { kind := kind, int := int, bits := bits, float := float, bool := bool, str := str,
      name := name, op := op, x := x, y := y, cond := cond, args := args, type := type,
      count := count } =>
    { kind, int, bits, float := plainZero float, bool, str, name, op, x := tidyExpr x, y := tidyExpr y,
      cond := tidyExpr cond, args := filled (tidyArgs args), type, count := tidyExpr count }

def tidyExpr : Option Expr → Option Expr
  | some e => some e.tidy
  | none => none

def tidyArgs : Nodes Expr → Nodes Expr
  | some l => some (tidyExprs l)
  | none => none

def tidyExprs : List (Option Expr) → List (Option Expr)
  | [] => []
  | none :: rest => none :: tidyExprs rest
  | some e :: rest => some e.tidy :: tidyExprs rest

end

mutual

def Stmt.tidy : Stmt → Stmt
  | { kind := kind, list := list, name := name, type := type, target := target, value := value,
      cond := cond, yes := yes, no := no, init := init, step := step, body := body } =>
    { kind, list := filled (tidyList list), name, type, target := target.map Expr.tidy,
      value := value.map Expr.tidy, cond := cond.map Expr.tidy, yes := tidyStmt yes, no := tidyStmt no,
      init := tidyStmt init, step := tidyStmt step, body := tidyStmt body }

def tidyStmt : Option Stmt → Option Stmt
  | some s => some s.tidy
  | none => none

def tidyList : Nodes Stmt → Nodes Stmt
  | some l => some (tidyStmts l)
  | none => none

def tidyStmts : List (Option Stmt) → List (Option Stmt)
  | [] => []
  | none :: rest => none :: tidyStmts rest
  | some s :: rest => some s.tidy :: tidyStmts rest

end

def tidyNodes {α : Type} (tidy : α → α) (l : Nodes α) : Nodes α := filled (l.map (List.map (Option.map tidy)))

def Field.tidy (f : Field) : Field := { f with init := f.init.map Expr.tidy }

def Decl.tidy (d : Decl) : Decl :=
  { d with params := filled d.params, body := d.body.map Stmt.tidy, fields := tidyNodes Field.tidy d.fields,
           init := d.init.map Expr.tidy, names := filled d.names }

def Module.tidy (m : Module) : Module := { m with imports := filled m.imports, decls := tidyNodes Decl.tidy m.decls }

lemma tidyExpr_eq (o) : tidyExpr o = o.map Expr.tidy := by
  cases o <;> rfl

lemma tidyExprs_eq (l) : tidyExprs l = l.map (Option.map Expr.tidy) := by
  induction l with
  | nil => rw [tidyExprs, List.map_nil]
  | cons o l ih => cases o <;> simp [tidyExprs, ih]

lemma Expr.tidy_eq (e : Expr) : e.tidy =
    { e with float := plainZero e.float, x := e.x.map tidy, y := e.y.map tidy, cond := e.cond.map tidy,
             args := tidyNodes tidy e.args, count := e.count.map tidy } := by
  obtain ⟨_, _, _, _, _, _, _, _, _, _, _, args, _, _⟩ := e
  cases args <;> simp [tidy, tidyExpr_eq, tidyArgs, tidyExprs_eq, tidyNodes]

lemma tidyStmt_eq (o) : tidyStmt o = o.map Stmt.tidy := by
  cases o <;> rfl

lemma tidyStmts_eq (l) : tidyStmts l = l.map (Option.map Stmt.tidy) := by
  induction l with
  | nil => rw [tidyStmts, List.map_nil]
  | cons o l ih => cases o <;> simp [tidyStmts, ih]

lemma Stmt.tidy_eq (s : Stmt) : s.tidy =
    { s with list := tidyNodes tidy s.list, target := s.target.map Expr.tidy, value := s.value.map Expr.tidy,
             cond := s.cond.map Expr.tidy, yes := s.yes.map tidy, no := s.no.map tidy, init := s.init.map tidy,
             step := s.step.map tidy, body := s.body.map tidy } := by
  obtain ⟨_, list, _, _, _, _, _, _, _, _, _, _⟩ := s
  cases list <;> simp [tidy, tidyStmt_eq, tidyList, tidyStmts_eq, tidyNodes]

/-! ## The check sees no difference -/

lemma isNone_map {α β : Type} (f : α → β) (o : Option α) : (o.map f).isNone = o.isNone := by
  cases o <;> rfl

lemma items_filled {α : Type} (l : Nodes α) : Nodes.items (filled l) = l.items := by
  rcases l with _ | _ | _ <;> rfl

lemma items_eq_getD {α : Type} (l : Nodes α) : l.items = l.getD [] := by
  cases l <;> rfl

lemma items_tidyNodes {α : Type} (tidy : α → α) (l : Nodes α) :
    (tidyNodes tidy l).items = l.items.map (Option.map tidy) := by
  rw [tidyNodes, items_filled]
  cases l <;> rfl

lemma problemIn?_tidy (h : ∀ e, o = some e → e.tidy.problem? = e.problem?) :
    Expr.problemIn? (o.map Expr.tidy) = Expr.problemIn? o := by
  cases o with
  | none => rfl
  | some e => exact h e rfl

lemma argsProblemIn?_eq (callee) (l : Nodes Expr) : argsProblemIn? callee l = argsProblem? callee l.items := by
  cases l <;> rfl

lemma argsProblem?_tidy (h : ∀ e, some e ∈ l → e.tidy.problem? = e.problem?) :
    argsProblem? callee (l.map (Option.map Expr.tidy)) = argsProblem? callee l := by
  induction l with
  | nil => rfl
  | cons o l ih =>
    cases o with
    | none => simp [argsProblem?]
    | some e =>
      have hrest := ih fun e he => h e (.tail _ he)
      simp [argsProblem?, h e (.head _), hrest]

lemma Expr.problem?_tidy (e : Expr) : e.tidy.problem? = e.problem? := by
  induction e using Expr.induct with
  | h e ihx ihy ihcond ihargs ihcount =>
    have hargs : argsProblemIn? e.name (tidyNodes tidy e.args) = argsProblemIn? e.name e.args := by
      rw [argsProblemIn?_eq, argsProblemIn?_eq, items_tidyNodes, items_eq_getD]
      exact argsProblem?_tidy ihargs
    rw [Expr.problem?_eq, Expr.problem?_eq, Expr.tidy_eq]
    simp only [Expr.kind?, isNone_map, problemIn?_tidy ihx, problemIn?_tidy ihy, problemIn?_tidy ihcond,
      problemIn?_tidy ihcount, hargs]

lemma problemIn?_tidy_all (o : Option Expr) : Expr.problemIn? (o.map Expr.tidy) = Expr.problemIn? o :=
  problemIn?_tidy fun e _ => e.problem?_tidy

lemma stmtProblemIn?_tidy (h : ∀ s, o = some s → s.tidy.problem? = s.problem?) :
    Stmt.problemIn? (o.map Stmt.tidy) = Stmt.problemIn? o := by
  cases o with
  | none => rfl
  | some s => exact h s rfl

lemma listProblemIn?_eq (l : Nodes Stmt) : listProblemIn? l = listProblem? l.items := by
  cases l <;> rfl

lemma listProblem?_tidy (h : ∀ s, some s ∈ l → s.tidy.problem? = s.problem?) :
    listProblem? (l.map (Option.map Stmt.tidy)) = listProblem? l := by
  induction l with
  | nil => rfl
  | cons o l ih =>
    cases o with
    | none => simp [listProblem?]
    | some s =>
      have hrest := ih fun s hs => h s (.tail _ hs)
      simp [listProblem?, h s (.head _), hrest]

lemma Stmt.problem?_tidy (s : Stmt) : s.tidy.problem? = s.problem? := by
  induction s using Stmt.induct with
  | h s ihlist ihyes ihno ihinit ihstep ihbody =>
    have hlist : listProblemIn? (tidyNodes tidy s.list) = listProblemIn? s.list := by
      rw [listProblemIn?_eq, listProblemIn?_eq, items_tidyNodes, items_eq_getD]
      exact listProblem?_tidy ihlist
    rw [Stmt.problem?_eq, Stmt.problem?_eq, Stmt.tidy_eq]
    simp only [Stmt.kind?, isNone_map, problemIn?_tidy_all, stmtProblemIn?_tidy ihyes, stmtProblemIn?_tidy ihno,
      stmtProblemIn?_tidy ihinit, stmtProblemIn?_tidy ihstep, stmtProblemIn?_tidy ihbody, hlist]

lemma fieldsProblem?_tidy (name l) : fieldsProblem? name (l.map (Option.map Field.tidy)) = fieldsProblem? name l := by
  induction l with
  | nil => rfl
  | cons o l ih =>
    cases o with
    | none => simp [fieldsProblem?]
    | some f => simp [fieldsProblem?, Field.tidy, problemIn?_tidy_all, ih]

lemma bodyProblem?_tidy (name : Text) (o) : bodyProblem? name (o.map Stmt.tidy) = bodyProblem? name o := by
  cases o with
  | none => rfl
  | some s =>
    have hkind : s.tidy.kind? = s.kind? := by rw [Stmt.tidy_eq, Stmt.kind?, Stmt.kind?]
    simp only [Option.map_some, bodyProblem?, hkind, Stmt.problem?_tidy]

lemma Decl.problem?_tidy (index) (d : Decl) : d.tidy.problem? index = d.problem? index := by
  have hnames : d.tidy.nameList = d.nameList := by
    obtain ⟨_, _, _, _, _, _, _, _, _, _, names⟩ := d
    rcases names with _ | _ | _ <;> rfl
  have hkind : d.tidy.kind? = d.kind? := rfl
  unfold Decl.problem?
  rw [hkind, hnames]
  simp only [Decl.tidy, items_filled, items_tidyNodes, fieldsProblem?_tidy, problemIn?_tidy_all, bodyProblem?_tidy,
    isNone_map]

lemma declsProblem?_tidy (index) (l : List (Option Decl)) :
    declsProblem? index (l.map (Option.map Decl.tidy)) = declsProblem? index l := by
  induction l generalizing index with
  | nil => rfl
  | cons o l ih =>
    cases o with
    | none => simp [declsProblem?]
    | some d => simp [declsProblem?, Decl.problem?_tidy, ih]

lemma Module.check_tidy (m : Module) : m.tidy.check = m.check := by
  have hproblem : m.tidy.problem? = m.problem? := by
    simp only [Module.problem?, Module.tidy, items_filled, items_tidyNodes, declsProblem?_tidy]
  have hname : m.tidy.name = m.name := rfl
  unfold Module.check
  rw [hproblem, hname]

end Arbor.Tree
