import Arbor.Lower.Decls
import Arbor.Proofs.Views

/-! Lowering as a relation between codes. `ExprTo S Γ e c c' v t` says that lowering the expression
where the names in `Γ` are in scope takes the code from `c` to `c'` and yields the operand `v`, which
counts as a value of type `t`. The relations say what is built and nothing of how modules look names
and types up, so that everything about the code of a program can be proved from them alone. -/

namespace Arbor.IR

namespace Code

def Sealed (c : Code) : Prop := ¬∃ b B, c.Cursor b B

def home (c : Code) : Option Handle := ((c.active.bind c.blocks).bind fun B => c.funcs B.func).map FuncCode.module

def IsSlot (c : Code) (v : Operand) : Prop := ∃ g e t, v = .inst g ∧ c.insts g = some (.alloca e, t)

end Code

def Ty.behind : Nat → Ty → Ty
  | 0, t => t
  | n + 1, t => behind n (.ptr t)

end Arbor.IR

namespace Arbor.Lower

open IR Build Arbor.Tree

abbrev Env := List (List (Text × Operand × Ty))

namespace Env

def find? (Γ : Env) (name : Text) : Option (Operand × Ty) := Γ.findSome? fun frame => frame.lookup name.composed

def bind (Γ : Env) (name : Text) (v : Operand) (t : Ty) : Env :=
  match Γ with
  | [] => []
  | frame :: outer => (frame ++ [(name.composed, v, t)]) :: outer

structure Extends (Γ Γ' : Env) : Prop where
  head : Γ.headD [] <+: Γ'.headD []
  tail : Γ'.tail = Γ.tail
  length : Γ'.length = Γ.length

lemma Extends.refl (Γ) : Extends Γ Γ := ⟨List.prefix_refl _, rfl, rfl⟩

lemma Extends.trans (h : Extends Γ Γ1) (k : Extends Γ1 Γ') : Extends Γ Γ' :=
  ⟨h.head.trans k.head, k.tail.trans h.tail, k.length.trans h.length⟩

lemma Extends.uncons (h : Extends (frame :: Γ) Γ') : ∃ more, Γ' = (frame ++ more) :: Γ := by
  cases Γ' with
  | nil => cases h.length
  | cons frame' Γ' =>
    obtain ⟨more, hmore⟩ := h.head
    exact ⟨more, congrArg₂ List.cons hmore.symm h.tail⟩

end Env

structure Site where
  module : Handle
  func : Handle
  ret : Ty
  types : Text → Option Ty

namespace Site

def type? (S : Site) : Option TypeRef → Option Ty
  | none => some .void
  | some ref =>
    (if ref.name = Text.ofString "void" then some .void else S.types ref.name).map
      (Ty.behind ref.depth.toNat)

end Site

inductive Deref (c : Code) : Operand → Ty → Code → Operand → Ty → Prop where
  | slot (hslot : c.insts g = some (.alloca e, .ptr e)) (hload : c.Emits h (.load e (.inst g)) e c') :
      Deref c (.inst g) t c' (.inst h) e
  | value (hv : ¬c.IsSlot v) : Deref c v t c v t

lemma Deref.eq_of_not_slot (h : Deref c v t c' v' t') (hv : ¬c.IsSlot v) : c' = c ∧ v' = v ∧ t' = t := by
  cases h with
  | slot hslot _ => exact absurd ⟨_, _, _, rfl, hslot⟩ hv
  | value _ => exact ⟨rfl, rfl, rfl⟩

lemma Deref.not_slot (h : Deref c v t c' v' t') : ¬c'.IsSlot v' := by
  cases h with
  | value hv => exact hv
  | slot _ hload =>
    rintro ⟨g, e, t, hg, hslot⟩
    cases hg
    cases hload.inst_self.symm.trans hslot

inductive Coerces (c : Code) (v : Operand) (t : Ty) (u : Ty) : Code → Operand → Ty → Prop where
  | same (ht : t = u) : Coerces c v t u c v t
  | known (ht : t ≠ u) (hv : c.valueTy v = u) : Coerces c v t u c v t'
  | cast (ht : t ≠ u) (hu : u.Plain) (hk : Emit.castBetween (c.valueTy v).kind u.kind = some k)
      (hcast : c.Emits h (.cast k v u) u c') : Coerces c v t u c' (.inst h) u

structure Converts (c : Code) (v : Operand) (t u : Ty) (c' : Code) (v' : Operand) (t' : Ty) : Prop where
  widens : t.widens u = true
  coerces : Coerces c v t u c' v' t'

inductive Unifies (c : Code) (x : Operand) (t : Ty) (y : Operand) (u : Ty) :
    Code → Operand → Ty → Operand → Ty → Prop where
  | same (ht : t = u) : Unifies c x t y u c x t y u
  | left (ht : t ≠ u) (hw : t.widens u = true) (hx : Coerces c x t u c' x' t') : Unifies c x t y u c' x' t' y u
  | right (ht : t ≠ u) (hn : t.widens u = false) (hw : u.widens t = true) (hy : Coerces c y u t c' y' u') :
      Unifies c x t y u c' x t y' u'
  | neither (ht : t ≠ u) (hn : t.widens u = false) (hm : u.widens t = false) : Unifies c x t y u c x t y u

inductive Combines (op : Op) (c : Code) (x y : Operand) : Code → Operand → Ty → Prop where
  | mk (hty : c.valueTy x = c.valueTy y) (hi : Emit.binaryInst? op (c.valueTy x).kind x y = some i)
      (hput : c.Emits h i (Emit.resultTy (c.tyOf x) i) c') : Combines op c x y c' (.inst h) (Emit.resultTy (c.tyOf x) i)

inductive ConvertsAll : Code → List (Operand × Ty) → List Ty → Code → List Operand → Prop where
  | nil : ConvertsAll c [] ps c []
  | more (h : ConvertsAll c args [] c' vs) : ConvertsAll c ((v, t) :: args) [] c' (v :: vs)
  | cons (hv : Converts c v t p c1 v' t') (h : ConvertsAll c1 args ps c' vs) :
      ConvertsAll c ((v, t) :: args) (p :: ps) c' (v' :: vs)

inductive Target (c : Code) : Operand → Code → Operand → List Ty → Prop where
  | own (hf : c.funcs h = some F) (hhome : c.home = some F.module) : Target c (.func h) c (.func h) F.params
  | other (hf : c.funcs h = some F) (hhome : c.home ≠ some F.module) (hd : c' = c ∨ ∃ D, c.Declares d D c') :
      Target c (.func h) c' (.func d) F.params
  | pointer (hv : ∀ h, v ≠ .func h) (hty : c.tyOf v = .ptr (.func r ps va)) : Target c v c v ps

def signature? : Ty → Option (Ty × List Ty × Bool)
  | .func r ps va => some (r, ps, va)
  | .ptr (.func r ps va) => some (r, ps, va)
  | _ => none

inductive Calls (c : Code) (f : Operand) (tf : Ty) (args : List (Operand × Ty)) :
    Code → Operand → Ty → Prop where
  | mk {target : Operand} (hsig : signature? tf = some (r, ps, va))
      (hcount : ps.length ≤ args.length ∧ (va = false → args.length = ps.length))
      (hargs : ConvertsAll c args ps c1 vs) (htarget : Target c1 f c2 target qs) (hlen : qs.length ≤ vs.length)
      (htypes : ∀ (j : Nat) t v, qs[j]? = some t → vs[j]? = some v → c2.valueTy v = t)
      (hput : c2.Emits h (.call target vs) (Emit.callTy c2 target) c') : Calls c f tf args c' (.inst h) r

inductive CallsNamed (Γ : Env) (c : Code) (name : Text) (args : List (Operand × Ty)) :
    Code → Operand → Ty → Prop where
  | mk (hname : Γ.find? name = some (v, t)) (hf : Deref c v t c1 f tf) (hcall : Calls c1 f tf args c' x r) :
      CallsNamed Γ c name args c' x r

inductive Leaves (c : Code) (target : Handle) : Code → Prop where
  | ended (h : c.Sealed) : Leaves c target c
  | jump (h : c.Ends (.br target) c') : Leaves c target c'

inductive Forks (f : Handle) (c : Code) (v : Operand) : Code → Prop where
  | mk (hyes : c.Opens yes f c1) (hno : c1.Opens no f c2) (hafter : c2.Opens after f c3)
      (hfork : c3.Ends (.condBr v yes no) c4) (hleft : Leaves (c4.move (some yes)) after c5)
      (hright : Leaves (c5.move (some no)) after c6) : Forks f c v (c6.move (some after))

inductive Makes (S : Site) (Γ : Env) (c : Code) (t : Ty) (size : Operand) : Bool → Code → Operand → Ty → Prop where
  | plain (hcall : CallsNamed Γ c (Text.ofString "malloc") [(size, u)] c1 raw r)
      (hcast : c1.Emits h (.cast .bitcast raw (.ptr t)) (.ptr t) c') : Makes S Γ c t size false c' (.inst h) (.ptr t)
  | checked (hcall : CallsNamed Γ c (Text.ofString "malloc") [(size, u)] c1 raw r) (hnull : Const.zeroOf? r = some k)
      (heq : Combines .eq c1 raw (.const k) c2 x tx) (hx : Deref c2 x tx c3 y ty) (hfork : Forks S.func c3 y c4)
      (hcast : c4.Emits h (.cast .bitcast raw (.ptr t)) (.ptr t) c') : Makes S Γ c t size true c' (.inst h) (.ptr t)

inductive Literal (m : Handle) (e : Expr) : Operand → Ty → Prop where
  | int (hk : e.kind? = some .int) (hw : Width.ofBits? (if e.bits = 0 then 32 else e.bits.toNat) = some w) :
      Literal m e (.const (Const.number w e.int)) (.int w)
  | float (hk : e.kind? = some .float) : Literal m e (.const (.float .double (canonicalBits e.float))) .f64
  | bool (hk : e.kind? = some .bool) : Literal m e (.const (.bool e.bool)) .bool
  | string (hk : e.kind? = some .string) : Literal m e (.const (.text m i)) .bytes

mutual

inductive ExprTo (S : Site) (Γ : Env) : Expr → Code → Code → Operand → Ty → Prop where
  | literal (h : Literal S.module e v t) : ExprTo S Γ e c c v t
  | ident {e : Expr} (hk : e.kind? = some .ident) (hv : Γ.find? e.name = some (v, t)) : ExprTo S Γ e c c v t
  | unary {e : Expr} (hk : e.kind? = some .unary) (ho : operator? unaryOps e.op = some o) (hx : e.x = some x)
      (hv : ValueTo S Γ x c c1 v t) (hi : Emit.unaryInst? o v (c1.tyOf v) = some (i, u)) (hput : c1.Emits h i u c') :
      ExprTo S Γ e c c' (.inst h) u
  | binary {e : Expr} (hk : e.kind? = some .binary) (ho : operator? binaryOps e.op = some o) (hx : e.x = some x)
      (hy : e.y = some y) (hv : ValueTo S Γ x c c1 v t) (hw : ValueTo S Γ y c1 c2 w u)
      (hunify : Unifies c2 v t w u c3 v' t' w' u') (hz : Combines o c3 v' w' c' z r) : ExprTo S Γ e c c' z r
  | call {e : Expr} (hk : e.kind? = some .call) (hargs : ArgsTo S Γ (e.args.getD []) c c1 args)
      (hcall : CallsNamed Γ c1 e.name args c' v r) : ExprTo S Γ e c c' v r
  | ternary {e : Expr} {c : Code} {start : Handle} (hk : e.kind? = some .ternary) (hb : e.cond = some b)
      (hx : e.x = some x) (hy : e.y = some y) (hstart : c.Opens start S.func c1) (hyes : c1.Opens yes S.func c2)
      (hno : c2.Opens no S.func c3) (hafter : c3.Opens after S.func c4) (henter : c4.Ends (.br start) c5)
      (hcond : ValueTo S Γ b (c5.move (some start)) c6 vb tb) (hfork : c6.Ends (.condBr vb yes no) c7)
      (hleft : ValueTo S Γ x (c7.move (some yes)) c8 vx tx) (hp : c8.active = some p) (hjoin : c8.Ends (.br after) c9)
      (hright : ValueTo S Γ y (c9.move (some no)) c10 vy ty) (hq : c10.active = some q)
      (hmeet : c10.Ends (.br after) c11) (htypes : tx = ty) (hvx : c11.valueTy vx = tx) (hvy : c11.valueTy vy = tx)
      (hput : (c11.move (some after)).Emits h (.phi [(vx, p), (vy, q)]) (c11.tyOf vx) c') :
      ExprTo S Γ e c c' (.inst h) tx
  | make {e : Expr} (hk : e.kind? = some .make) (ht : S.type? e.type = some t) (hn : e.count = none)
      (hmake : Makes S Γ c t (.const (.int .w64 n)) true c' v r) : ExprTo S Γ e c c' v r
  | makeMany {e : Expr} (hk : e.kind? = some .make) (ht : S.type? e.type = some t) (hn : e.count = some x)
      (hv : ValueTo S Γ x c c1 v u) (hconv : Converts c1 v u .i64 c2 v' u')
      (hz : Combines .mul c2 (.const (.int .w64 n)) v' c3 z rz) (hmake : Makes S Γ c3 t z false c' y r) :
      ExprTo S Γ e c c' y r
  | bitcast {e : Expr} (hk : e.kind? = some .cast) (ht : S.type? e.type = some t) (hx : e.x = some x)
      (hv : ValueTo S Γ x c c1 v u) (hsource : u.kind.isPointer = true) (htarget : t.kind.isPointer = true)
      (hput : c1.Emits h (.cast .bitcast v t) t c') : ExprTo S Γ e c c' (.inst h) t
  | cast {e : Expr} (hk : e.kind? = some .cast) (ht : S.type? e.type = some t) (hx : e.x = some x)
      (hv : ValueTo S Γ x c c1 v u) (hcast : Coerces c1 v u t c' v' u') : ExprTo S Γ e c c' v' u'

inductive ValueTo (S : Site) (Γ : Env) : Expr → Code → Code → Operand → Ty → Prop where
  | mk (hv : ExprTo S Γ e c c1 v t) (hd : Deref c1 v t c' v' t') : ValueTo S Γ e c c' v' t'

inductive ArgsTo (S : Site) (Γ : Env) : List (Option Expr) → Code → Code → List (Operand × Ty) → Prop where
  | nil : ArgsTo S Γ [] c c []
  | cons (hv : ValueTo S Γ e c c1 v t) (hrest : ArgsTo S Γ rest c1 c' args) :
      ArgsTo S Γ (some e :: rest) c c' ((v, t) :: args)

end

inductive Binds (Γ : Env) (name : Text) (v : Operand) (t : Ty) (c : Code) : Env → Code → Prop where
  | mk (halloc : c.Emits g (.alloca t.held) (.ptr t.held) c1) (hty : c1.tyOf v = t.held)
      (hstore : c1.Emits k (.store v (.inst g)) .void c') : Binds Γ name v t c (Γ.bind name (.inst g) (.ptr t.held)) c'

inductive InitTo (S : Site) (Γ : Env) (s : Stmt) : Code → Code → Operand → Ty → Prop where
  | value (he : s.value = some e) (hv : ValueTo S Γ e c c' v t) : InitTo S Γ s c c' v t
  | zero (hn : s.value = none) (hs : s.type.isSome) (ht : S.type? s.type = some t) (hz : Const.zeroOf? t = some k) :
      InitTo S Γ s c c (.const k) t

inductive LoopCondTo (S : Site) (Γ : Env) (body leave : Handle) : Option Expr → Code → Code → Prop where
  | some (hv : ValueTo S Γ e c c1 v t) (hfork : c1.Ends (.condBr v body leave) c') :
      LoopCondTo S Γ body leave (some e) c c'
  | none {c : Code} (h : c.Ends (.br body) c') : LoopCondTo S Γ body leave none c c'

mutual

inductive StmtTo (S : Site) : Option (Handle × Handle) → Env → Stmt → Code → Env → Code → Prop where
  | block {s : Stmt} (hk : s.kind? = some .block) (h : StmtsTo S L ([] :: Γ) (s.list.getD []) c Γ' c') :
      StmtTo S L Γ s c Γ c'
  | bind {s : Stmt} (hk : s.kind? = some .bind) (ht : s.type = none) (hv : InitTo S Γ s c c1 v t)
      (h : Binds Γ s.name v t c1 Γ' c') : StmtTo S L Γ s c Γ' c'
  | bindAs {s : Stmt} (hk : s.kind? = some .bind) (hs : s.type.isSome) (ht : S.type? s.type = some u)
      (hv : InitTo S Γ s c c1 v t) (hconv : Converts c1 v t u c2 v' t') (h : Binds Γ s.name v' u c2 Γ' c') :
      StmtTo S L Γ s c Γ' c'
  | assign {s : Stmt} (hk : s.kind? = some .assign) (hx : s.target = some x) (hy : s.value = some y)
      (hl : ExprTo S Γ x c c1 l tl) (hr : ExprTo S Γ y c1 c2 r tr) (hslot : Emit.SlotOf c2 l g e)
      (hv : Deref c2 r tr c3 v t) (hconv : (c4 = c3 ∧ v' = v ∧ t' = t) ∨ Converts c3 v t e c4 v' t')
      (hty : c4.tyOf v' = e) (hstore : c4.Emits k (.store v' (.inst g)) .void c') : StmtTo S L Γ s c Γ c'
  | ret {s : Stmt} {c : Code} (hk : s.kind? = some .ret) (hn : s.value = none)
      (hvoid : ∀ b B F, c.Cursor b B → c.funcs B.func = some F → F.ret = .void) (h : c.Ends (.ret none) c') :
      StmtTo S L Γ s c Γ c'
  | retValue {s : Stmt} (hk : s.kind? = some .ret) (he : s.value = some e) (hv : ValueTo S Γ e c c1 v t)
      (hconv : Converts c1 v t S.ret c2 v' t') (h : c2.Ends (.ret (some v')) c') : StmtTo S L Γ s c Γ c'
  | cond {s : Stmt} (hk : s.kind? = some .cond) (he : s.cond = some e) (ha : s.yes = some a)
      (hv : ValueTo S Γ e c c1 v t) (hyes : c1.Opens yes S.func c2) (hno : c2.Opens no S.func c3)
      (hafter : c3.Opens after S.func c4) (hfork : c4.Ends (.condBr v yes no) c5)
      (hleft : PartTo S L Γ (some a) (c5.move (some yes)) Γ1 c6) (hjoin : Leaves c6 after c7)
      (hright : PartTo S L Γ1 s.no (c7.move (some no)) Γ2 c8) (hmeet : Leaves c8 after c') :
      StmtTo S L Γ s c Γ2 (c'.move (some after))
  | loop {s : Stmt} {cond step body leave : Handle} (hk : s.kind? = some .loop) (hb : s.body = some b)
      (hinit : PartTo S L ([] :: Γ) s.init c Γ1 c1) (hcond : c1.Opens cond S.func c2)
      (hstep : c2.Opens step S.func c3) (hbody : c3.Opens body S.func c4) (hleave : c4.Opens leave S.func c5)
      (henter : Leaves c5 cond c6) (htest : LoopCondTo S Γ1 body leave s.cond (c6.move (some cond)) c7)
      (hrun : PartTo S (some (leave, step)) Γ1 (some b) (c7.move (some body)) Γ2 c8) (hnext : Leaves c8 step c9)
      (hagain : PartTo S (some (leave, step)) Γ2 s.step (c9.move (some step)) Γ3 c10) (hback : Leaves c10 cond c') :
      StmtTo S L Γ s c Γ (c'.move (some leave))
  | leave {s : Stmt} {c : Code} {leave next : Handle} (hk : s.kind? = some .leave) (h : c.Ends (.br leave) c') :
      StmtTo S (some (leave, next)) Γ s c Γ c'
  | next {s : Stmt} {c : Code} {leave next : Handle} (hk : s.kind? = some .next) (h : c.Ends (.br next) c') :
      StmtTo S (some (leave, next)) Γ s c Γ c'
  | eval {s : Stmt} (hk : s.kind? = some .eval) (he : s.value = some e) (hv : ExprTo S Γ e c c' v t) :
      StmtTo S L Γ s c Γ c'
  | drop {s : Stmt} (hk : s.kind? = some .drop) (he : s.value = some e) (hv : ValueTo S Γ e c c1 v t)
      (hcast : (c2 = c1 ∧ v' = v) ∨ ∃ h, v' = .inst h ∧ c1.Emits h (.cast .bitcast v .bytes) .bytes c2)
      (hcall : ∃ u, CallsNamed Γ c2 (Text.ofString "free") [(v', u)] c' x r) : StmtTo S L Γ s c Γ c'

inductive PartTo (S : Site) : Option (Handle × Handle) → Env → Option Stmt → Code → Env → Code → Prop where
  | none : PartTo S L Γ none c Γ c
  | some (h : StmtTo S L Γ s c Γ' c') : PartTo S L Γ (some s) c Γ' c'

inductive StmtsTo (S : Site) : Option (Handle × Handle) → Env → List (Option Stmt) → Code → Env → Code → Prop where
  | nil : StmtsTo S L Γ [] c Γ c
  | stop {c : Code} (h : c.Sealed) : StmtsTo S L Γ l c Γ c
  | cons (h : StmtTo S L Γ s c Γ1 c1) (hrest : StmtsTo S L Γ1 rest c1 Γ' c') : StmtsTo S L Γ (some s :: rest) c Γ' c'

end

lemma Binds.extends (h : Binds Γ name v t c Γ' c') : Γ.Extends Γ' := by
  cases h with
  | mk =>
    cases Γ with
    | nil => exact .refl _
    | cons frame outer => exact ⟨List.prefix_append .., rfl, rfl⟩

mutual

lemma StmtTo.extends : StmtTo S L Γ s c Γ' c' → Γ.Extends Γ'
  | .bind _ _ _ h | .bindAs _ _ _ _ _ h => h.extends
  | .cond _ _ _ _ _ _ _ _ hleft _ hright _ => hleft.extends.trans hright.extends
  | .block .. | .assign .. | .ret .. | .retValue .. | .loop .. | .leave .. | .next .. | .eval .. | .drop .. => .refl _

lemma PartTo.extends : PartTo S L Γ s c Γ' c' → Γ.Extends Γ'
  | .none => .refl _
  | .some h => h.extends

end

lemma StmtsTo.extends : StmtsTo S L Γ l c Γ' c' → Γ.Extends Γ'
  | .nil | .stop _ => .refl _
  | .cons h hrest => h.extends.trans hrest.extends

inductive ParamsTo (S : Site) : Nat → List Param → Env → Code → Env → Code → Prop where
  | nil : ParamsTo S i [] Γ c Γ c
  | cons {p : Param} {c : Code} (hf : c.funcs S.func = some F) (hp : F.params[i]? = some t)
      (h : Binds Γ p.name (.param S.func i) t c Γ1 c1) (hrest : ParamsTo S (i + 1) rest Γ1 c1 Γ' c') :
      ParamsTo S i (p :: rest) Γ c Γ' c'

inductive TailTo (S : Site) (c : Code) : Code → Prop where
  | ended (h : c.Sealed) : TailTo S c c
  | void (hvoid : ∀ b B F, c.Cursor b B → c.funcs B.func = some F → F.ret = .void) (h : c.Ends (.ret none) c') :
      TailTo S c c'
  | zero (hk : Const.zeroOf? S.ret = some k) (h : c.Ends (.ret (some (.const k))) c') : TailTo S c c'

inductive FuncTo (S : Site) (Γ : Env) (d : Decl) : Code → Code → Prop where
  | mk {c : Code} {ps : List Param} (hentry : c.Opens entry S.func c1) (hps : d.params.items = ps.map some)
      (hb : d.body = some b) (hparams : ParamsTo S 0 ps ([] :: Γ) (c1.move (some entry)) Γ1 c2)
      (hbody : StmtsTo S none Γ1 (b.list.getD []) c2 Γ2 c3) (htail : TailTo S c3 c') : FuncTo S Γ d c (c'.move none)

end Arbor.Lower
