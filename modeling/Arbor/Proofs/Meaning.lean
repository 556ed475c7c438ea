import Mathlib.Tactic.Lemma
import Arbor.Lower.Decls
import Arbor.Run.Value

/-! The meaning of programs on integers and truth values, told by their syntax alone. Variables are
places in a store of the call they belong to, and scopes map names to places. A number of rounds and
nested calls bounds the evaluation; nothing else does. -/

namespace Arbor.Meaning

open IR Lower Arbor.Tree

/-- A number of a width, or what comes from a function without a result. -/
inductive Val where
  | int (w : Width) (n : Int64)
  | unit
deriving DecidableEq, Inhabited

namespace Val

def ty : Val → Ty
  | int w _ => .int w
  | unit => .void

def number : Val → Int64
  | int _ n => n
  | unit => 0

def isTrue (x : Val) : Bool := x.number ≠ 0

def truth (b : Bool) : Val := .int .w1 (if b then 1 else 0)

def ofWidth (w : Width) (n : Int64) : Val := .int w (Run.wrap w n)

def handed : Val → Val
  | int w n => ofWidth w n
  | unit => unit

def zero? : Ty → Option Val
  | .int w => some (.int w 0)
  | _ => none

end Val

/-- Why an evaluation has no result. -/
inductive Stop where
  | division
  | stuck
  | bound
deriving DecidableEq

abbrev Res := Except Stop

/-! ## Operators -/

/-- A number in another width. A truth value counts as 0 or 1, any other keeps its sign. -/
def resize (v w : Width) (n : Int64) : Int64 :=
  if v = .w1 then Run.wrap .w1 n else if v.bits < w.bits then n else Run.wrap w n

def convert (w : Width) : Val → Res Val
  | .int v n =>
    if v = w then .ok (.int v n)
    else if w = .w1 then .error .stuck
    else .ok (.int w (resize v w n))
  | .unit => .error .stuck

def adapt (t : Ty) (x : Val) : Res Val :=
  if x.ty = t then .ok x
  else match x, t with
    | .int v n, .int w => if v.bits < w.bits then .ok (.int w (resize v w n)) else .error .stuck
    | _, _ => .error .stuck

def unify : Val → Val → Val × Val
  | .int v a, .int w b =>
    if v.bits < w.bits then (.int w (resize v w a), .int w b)
    else if w.bits < v.bits then (.int v a, .int v (resize w v b))
    else (.int v a, .int w b)
  | x, y => (x, y)

def arithmetic (w : Width) (n : Res Int64) : Res Val :=
  if w = .w1 then .error .stuck else n.map (.ofWidth w)

def logical (w : Width) (n : Int64) : Res Val :=
  if w = .w1 then .ok (.ofWidth w n) else .error .stuck

/-- Both operands of an operator are evaluated before it is applied, also those of `&&` and `||`. -/
def operate (o : Op) (w : Width) (a b : Int64) : Res Val :=
  match o with
  | .add => arithmetic w (.ok (a + b))
  | .sub => arithmetic w (.ok (a - b))
  | .mul => arithmetic w (.ok (a * b))
  | .div => arithmetic w (if b = 0 then .error .division else .ok (a / b))
  | .mod => arithmetic w (if b = 0 then .error .division else .ok (a % b))
  | .shl => arithmetic w (.ok (a <<< (b &&& 63)))
  | .shr => arithmetic w (.ok (a >>> (b &&& 63)))
  | .bitAnd => .ok (.ofWidth w (a &&& b))
  | .bitOr => .ok (.ofWidth w (a ||| b))
  | .bitXor => .ok (.ofWidth w (a ^^^ b))
  | .and => logical w (a &&& b)
  | .or => logical w (a ||| b)
  | .eq => .ok (.truth (a = b))
  | .ne => .ok (.truth (a ≠ b))
  | .gt => .ok (.truth (b < a))
  | .ge => .ok (.truth (b ≤ a))
  | .lt => .ok (.truth (a < b))
  | .le => .ok (.truth (a ≤ b))
  | _ => .error .stuck

def combine (o : Op) : Val × Val → Res Val
  | (.int w a, .int v b) => if v = w then operate o w a b else .error .stuck
  | _ => .error .stuck

def binary (o : Op) (x y : Val) : Res Val := combine o (unify x y)

def unary (o : Op) : Val → Res Val
  | .int w n =>
    match o with
    | .neg => arithmetic w (.ok (0 - n))
    | .flip => arithmetic w (.ok (n ^^^ -1))
    | .not => logical w (n ^^^ 1)
    | _ => .error .stuck
  | .unit => .error .stuck

/-! ## Expressions -/

abbrev Locals := List (List (Text × Nat))

namespace Locals

def find? (ρ : Locals) (name : Text) : Option Nat := ρ.findSome? fun frame => frame.lookup name.composed

def bind (ρ : Locals) (name : Text) (place : Nat) : Locals :=
  match ρ with
  | [] => []
  | frame :: outer => (frame ++ [(name.composed, place)]) :: outer

end Locals

/-- What the names of a module stand for. -/
structure Context where
  types : Text → Option Ty
  lets : Text → Option Val
  funcs : Text → Option Decl

namespace Context

def type? (C : Context) : Option TypeRef → Option Ty
  | none => some .void
  | some ref =>
    if ref.depth = 0 then if ref.name = Text.ofString "void" then some .void else C.types ref.name
    else none

end Context

def literal (e : Expr) : Res Val :=
  match e.kind? with
  | some .int =>
    match Width.ofBits? (if e.bits = 0 then 32 else e.bits.toNat) with
    | some .w1 => .ok (.truth (e.int != 0))
    | some w => .ok (.int w e.int.toInt64)
    | none => .error .stuck
  | some .bool => .ok (.truth e.bool)
  | _ => .error .stuck

abbrev Caller := Text → List Val → Res Val

/-- The values of the parts of an expression. -/
structure Operands where
  x : Unit → Res Val
  y : Unit → Res Val
  cond : Unit → Res Val
  args : Unit → Res (List Val)

section

variable (C : Context) (call : Caller) (ρ : Locals) (vars : List Val)

def named? (name : Text) : Option Val :=
  match ρ.find? name with
  | some place => vars[place]?
  | none => C.lets name

def evalFrom (e : Expr) (p : Operands) : Res Val := do
  match e.kind? with
  | some .int | some .bool => literal e
  | some .ident => (named? C ρ vars e.name).elim (.error .stuck) .ok
  | some .unary =>
    match operator? unaryOps e.op with
    | some o => unary o (← p.x ())
    | none => .error .stuck
  | some .binary =>
    match operator? binaryOps e.op with
    | some o =>
      let x ← p.x ()
      let y ← p.y ()
      binary o x y
    | none => .error .stuck
  | some .call =>
    let xs ← p.args ()
    if (ρ.find? e.name).isSome then .error .stuck
    else return (← call e.name xs).handed
  | some .ternary => if (← p.cond ()).isTrue then p.x () else p.y ()
  | some .cast =>
    match C.type? e.type with
    | some (.int w) => convert w (← p.x ())
    | _ => .error .stuck
  | _ => .error .stuck

mutual

def eval (e : Expr) : Res Val :=
  match e with
  | { x := x, y := y, cond := cond, args := args, .. } =>
    evalFrom C call ρ vars e
      { x := fun _ => evalIn x, y := fun _ => evalIn y, cond := fun _ => evalIn cond, args := fun _ => argsIn args }

def evalIn : Option Expr → Res Val
  | some e => eval e
  | none => .error .stuck

def argsIn : Option (List (Option Expr)) → Res (List Val)
  | some l => evalAll l
  | none => .ok []

def evalAll : List (Option Expr) → Res (List Val)
  | [] => .ok []
  | e :: rest => do
    let x ← evalIn e
    let xs ← evalAll rest
    return x :: xs

end

lemma eval_eq (e) : eval C call ρ vars e = evalFrom C call ρ vars e
    ⟨fun _ => evalIn C call ρ vars e.x, fun _ => evalIn C call ρ vars e.y, fun _ => evalIn C call ρ vars e.cond,
      fun _ => evalAll C call ρ vars (e.args.getD [])⟩ := by
  cases e with
  | mk _ _ _ _ _ _ _ _ _ _ _ args _ _ => cases args <;> rw [eval] <;> simp only [argsIn] <;> rfl

end

/-! ## Statements -/

/-- Where control goes after a statement. -/
inductive Flow where
  | next (ρ : Locals)
  | leave
  | again
  | ret (x : Val)

def Flow.within (ρ : Locals) : Flow → Flow
  | .next _ => .next ρ
  | k => k

abbrev Run := Locals → List Val → Res (Flow × List Val)

/-- The parts of a statement. -/
structure Steps where
  list : Run
  yes : Run
  no : Run
  init : Run
  step : Run
  body : Run

def optional {α : Type} (part : Option α) (run : Run) : Run := fun ρ vars =>
  if part.isSome then run ρ vars else .ok (.next ρ, vars)

/-- The rounds of a loop, begun at the condition or at the step. A `continue` in the step starts the
step over. The result is what was returned, if anything. -/
def rounds (test : List Val → Res Bool) (body step : List Val → Res (Flow × List Val)) :
    Nat → Bool → List Val → Res (Option Val × List Val)
  | 0, _, _ => .error .bound
  | n + 1, true, vars => do
    if ← test vars then
      let (k, vars) ← body vars
      match k with
      | .next _ | .again => rounds test body step n false vars
      | .leave => return (none, vars)
      | .ret x => return (some x, vars)
    else return (none, vars)
  | n + 1, false, vars => do
    let (k, vars) ← step vars
    match k with
    | .next _ => rounds test body step n true vars
    | .again => rounds test body step n false vars
    | .leave => return (none, vars)
    | .ret x => return (some x, vars)

def loop (test : Locals → List Val → Res Bool) (body step : Run) (bound : Nat) (ρ : Locals) :
    Flow × List Val → Res (Flow × List Val)
  | (.next ρ', vars) => do
    let (x, vars) ← rounds (test ρ') (body ρ') (step ρ') bound true vars
    return (x.elim (.next ρ) .ret, vars)
  | r => .ok r

section

variable (C : Context) (call : Caller) (ret : Ty) (bound : Nat)

def given (s : Stmt) (ρ : Locals) (vars : List Val) : Res Val :=
  match s.value with
  | some e => eval C call ρ vars e
  | none => ((C.type? s.type).bind Val.zero?).elim (.error .stuck) .ok

def initial (s : Stmt) (ρ : Locals) (vars : List Val) : Res Val := do
  let x ← given C call s ρ vars
  match s.type with
  | none => .ok x
  | some _ => (C.type? s.type).elim (.error .stuck) fun t => adapt t x

def place? (ρ : Locals) (e : Option Expr) : Option Nat :=
  e.bind fun e => if e.kind? = some .ident then ρ.find? e.name else none

def execFrom (s : Stmt) (p : Steps) : Run := fun ρ vars => do
  match s.kind? with
  | some .block =>
    let (k, vars) ← p.list ([] :: ρ) vars
    return (k.within ρ, vars)
  | some .bind =>
    let x ← initial C call s ρ vars
    return (.next (ρ.bind s.name vars.length), vars ++ [x])
  | some .assign =>
    match place? ρ s.target with
    | none => .error .stuck
    | some place =>
      let y ← evalIn C call ρ vars s.value
      let x ← (vars[place]?).elim (.error .stuck) fun old => adapt old.ty y
      return (.next ρ, vars.set place x)
  | some .ret =>
    match s.value with
    | none => return (.ret .unit, vars)
    | some e => return (.ret (← adapt ret (← eval C call ρ vars e)), vars)
  | some .cond => if (← evalIn C call ρ vars s.cond).isTrue then p.yes ρ vars else optional s.no p.no ρ vars
  | some .loop =>
    let test ρ vars := s.cond.elim (.ok true) fun e => (eval C call ρ vars e).map Val.isTrue
    loop test p.body (optional s.step p.step) bound ρ (← optional s.init p.init ([] :: ρ) vars)
  | some .leave => return (.leave, vars)
  | some .next => return (.again, vars)
  | some .eval =>
    let _ ← evalIn C call ρ vars s.value
    return (.next ρ, vars)
  | _ => .error .stuck

mutual

def exec (s : Stmt) : Run :=
  match s with
  | { list := list, yes := yes, no := no, init := init, step := step, body := body, .. } =>
    execFrom C call ret bound s
      { list := listIn list, yes := execIn yes, no := execIn no, init := execIn init,
        step := execIn step, body := execIn body }

def execIn : Option Stmt → Run
  | some s => exec s
  | none => fun _ _ => .error .stuck

def listIn : Option (List (Option Stmt)) → Run
  | some l => execAll l
  | none => fun ρ vars => .ok (.next ρ, vars)

def execAll : List (Option Stmt) → Run
  | [] => fun ρ vars => .ok (.next ρ, vars)
  | s :: rest => fun ρ vars => do
    let (k, vars) ← execIn s ρ vars
    match k with
    | .next ρ' => execAll rest ρ' vars
    | k => return (k, vars)

end

lemma exec_eq (s) : exec C call ret bound s = execFrom C call ret bound s
    ⟨execAll C call ret bound (s.list.getD []), execIn C call ret bound s.yes, execIn C call ret bound s.no,
      execIn C call ret bound s.init, execIn C call ret bound s.step, execIn C call ret bound s.body⟩ := by
  cases s with
  | mk _ list _ _ _ _ _ _ _ _ _ _ => cases list <;> rw [exec] <;> simp only [listIn] <;> rfl

end

/-! ## Functions -/

def adaptAll (C : Context) : List (Option Param) → List Val → Res (List Val)
  | [], [] => .ok []
  | some p :: ps, x :: xs => do
    let y ← (C.type? p.type).elim (.error .stuck) fun t => adapt t x
    let ys ← adaptAll C ps xs
    return y :: ys
  | _, _ => .error .stuck

def paramPlaces (ps : List (Option Param)) : List (Text × Nat) :=
  ps.zipIdx.map fun (p, i) => (Text.composed (p.elim [] Param.name), i)

/-- What comes out of a body: without a `return` it is the zero of the result type. -/
def outcome (ret : Ty) : Flow → Res Val
  | .ret x => .ok x
  | .next _ => if ret = .void then .ok .unit else (Val.zero? ret).elim (.error .stuck) .ok
  | _ => .error .stuck

def runBody (C : Context) (call : Caller) (bound : Nat) (d : Decl) (args : List Val) : Res Val := do
  match C.type? d.ret, d.body with
  | some ret, some b =>
    let xs ← adaptAll C d.params.items args
    let (k, _) ← execAll C call ret bound (b.list.getD []) [paramPlaces d.params.items] xs
    outcome ret k
  | _, _ => .error .stuck

def apply (C : Context) : Nat → Caller
  | 0, _, _ => .error .bound
  | n + 1, name, args =>
    match C.funcs name with
    | some d => runBody C (apply C n) (n + 1) d args
    | none => .error .stuck

/-! ## Programs on integers

The programs that have a meaning here. `vars` are the variables in scope. -/

section

variable (C : Context)

/-- An expression on integers and truth values. -/
inductive Simple (vars : List Text) : Expr → Prop where
  | literal {e : Expr} (hk : e.kind? = some .int ∨ e.kind? = some .bool) : Simple vars e
  | ident {e : Expr} (hk : e.kind? = some .ident) (hname : e.name.composed ∈ vars ∨ (C.lets e.name).isSome) :
      Simple vars e
  | unary {e x : Expr} (hk : e.kind? = some .unary) (hx : e.x = some x) (h : Simple vars x) : Simple vars e
  | binary {e x y : Expr} (hk : e.kind? = some .binary) (hx : e.x = some x) (hy : e.y = some y)
      (h : Simple vars x) (h' : Simple vars y) : Simple vars e
  | call {e : Expr} (hk : e.kind? = some .call) (hname : e.name.composed ∉ vars) (hf : (C.funcs e.name).isSome)
      (h : ∀ a, some a ∈ e.args.getD [] → Simple vars a) : Simple vars e
  | ternary {e b x y : Expr} (hk : e.kind? = some .ternary) (hb : e.cond = some b) (hx : e.x = some x)
      (hy : e.y = some y) (h : Simple vars b) (h' : Simple vars x) (h'' : Simple vars y) : Simple vars e
  | cast {e x : Expr} {w : Width} (hk : e.kind? = some .cast) (ht : C.type? e.type = some (.int w))
      (hx : e.x = some x) (h : Simple vars x) : Simple vars e

mutual

/-- A statement that binds no name in the scope around it. -/
inductive SimpleStmt : List Text → Stmt → Prop where
  | block {vars vars' : List Text} {s : Stmt} (hk : s.kind? = some .block)
      (h : SimpleList vars (s.list.getD []) vars') : SimpleStmt vars s
  | assign {vars : List Text} {s : Stmt} {x y : Expr} (hk : s.kind? = some .assign) (hx : s.target = some x)
      (hy : s.value = some y) (hxk : x.kind? = some .ident) (hname : x.name.composed ∈ vars ∨ (C.lets x.name).isSome)
      (h : Simple C vars y) : SimpleStmt vars s
  | ret {vars : List Text} {s : Stmt} (hk : s.kind? = some .ret) (h : ∀ e, s.value = some e → Simple C vars e) :
      SimpleStmt vars s
  | cond {vars : List Text} {s : Stmt} (hk : s.kind? = some .cond) (he : ∀ e, s.cond = some e → Simple C vars e)
      (hyes : ∀ a, s.yes = some a → SimpleStmt vars a) (hno : ∀ a, s.no = some a → SimpleStmt vars a) :
      SimpleStmt vars s
  | loop {vars vars' : List Text} {s : Stmt} (hk : s.kind? = some .loop)
      (hinit : ∀ a, s.init = some a → SimpleItem vars a vars') (hnone : s.init = none → vars' = vars)
      (he : ∀ e, s.cond = some e → Simple C vars' e) (hstep : ∀ a, s.step = some a → SimpleStmt vars' a)
      (hbody : ∀ a, s.body = some a → SimpleStmt vars' a) : SimpleStmt vars s
  | leave {vars : List Text} {s : Stmt} (hk : s.kind? = some .leave) : SimpleStmt vars s
  | next {vars : List Text} {s : Stmt} (hk : s.kind? = some .next) : SimpleStmt vars s
  | eval {vars : List Text} {s : Stmt} (hk : s.kind? = some .eval) (h : ∀ e, s.value = some e → Simple C vars e) :
      SimpleStmt vars s

/-- A statement of a block or the start of a loop, with the variables in scope after it. -/
inductive SimpleItem : List Text → Stmt → List Text → Prop where
  | stmt {vars : List Text} {s : Stmt} (h : SimpleStmt vars s) : SimpleItem vars s vars
  | bind {vars : List Text} {s : Stmt} (hk : s.kind? = some .bind) (h : ∀ e, s.value = some e → Simple C vars e)
      (ht : ∀ ref, s.type = some ref → ∃ w, C.type? (some ref) = some (.int w)) :
      SimpleItem vars s (s.name.composed :: vars)

inductive SimpleList : List Text → List (Option Stmt) → List Text → Prop where
  | nil {vars : List Text} : SimpleList vars [] vars
  | cons {vars vars1 vars' : List Text} {s : Stmt} {rest : List (Option Stmt)} (h : SimpleItem vars s vars1)
      (hrest : SimpleList vars1 rest vars') : SimpleList vars (some s :: rest) vars'

end

/-- A function on integers and truth values. -/
structure SimpleFunc (d : Decl) : Prop where
  ret : C.type? d.ret = some .void ∨ ∃ w, C.type? d.ret = some (.int w)
  params : ∀ p, some p ∈ d.params.items → ∃ w, C.type? p.type = some (.int w)
  body : ∀ b, d.body = some b → ∃ vars, SimpleList C ((paramPlaces d.params.items).map Prod.fst) (b.list.getD []) vars

end

end Arbor.Meaning
