import Arbor.Proofs.Packing
import Arbor.Tree.Codec

/-! The lengths of texts and lists in a tree. What can be written in full is a tree whose lengths fit their
headers, and every module that is decoded is one. -/

namespace Arbor.Tree

open Msgpack Diag Option

variable {key : Text}

def Short (t : Text) : Prop := t.length < lengthLimit

def TypeRef.Sized (t : TypeRef) : Prop := Short t.name

/-- All texts and lists of an expression have lengths that fit a header. -/
inductive Expr.Sized : Expr → Prop where
  | mk {e : Expr} (str : Short e.str) (name : Short e.name) (op : Short e.op) (type : ∀ t ∈ e.type, t.Sized)
      (x : ∀ a ∈ e.x, Sized a) (y : ∀ a ∈ e.y, Sized a) (cond : ∀ a ∈ e.cond, Sized a)
      (count : ∀ a ∈ e.count, Sized a) (length : ∀ l ∈ e.args, l.length < lengthLimit)
      (args : ∀ l ∈ e.args, ∀ a, some a ∈ l → Sized a) : Sized e

inductive Stmt.Sized : Stmt → Prop where
  | mk {s : Stmt} (name : Short s.name) (type : ∀ t ∈ s.type, t.Sized) (target : ∀ e ∈ s.target, e.Sized)
      (value : ∀ e ∈ s.value, e.Sized) (cond : ∀ e ∈ s.cond, e.Sized) (yes : ∀ a ∈ s.yes, Sized a)
      (no : ∀ a ∈ s.no, Sized a) (init : ∀ a ∈ s.init, Sized a) (step : ∀ a ∈ s.step, Sized a)
      (body : ∀ a ∈ s.body, Sized a) (length : ∀ l ∈ s.list, l.length < lengthLimit)
      (list : ∀ l ∈ s.list, ∀ a, some a ∈ l → Sized a) : Sized s

def NodesSized {α : Type} (sized : α → Prop) (l : Nodes α) : Prop :=
  ∀ ns ∈ l, ns.length < lengthLimit ∧ ∀ a, some a ∈ ns → sized a

structure Import.Sized (i : Import) : Prop where
  name : Short i.name
  target : Short i.target

structure Param.Sized (p : Param) : Prop where
  name : Short p.name
  type : ∀ t ∈ p.type, t.Sized

structure Field.Sized (f : Field) : Prop where
  name : Short f.name
  type : ∀ t ∈ f.type, t.Sized
  init : ∀ e ∈ f.init, e.Sized

structure Decl.Sized (d : Decl) : Prop where
  name : Short d.name
  params : NodesSized Param.Sized d.params
  ret : ∀ t ∈ d.ret, t.Sized
  body : ∀ s ∈ d.body, s.Sized
  base : Short d.base
  fields : NodesSized Field.Sized d.fields
  type : ∀ t ∈ d.type, t.Sized
  init : ∀ e ∈ d.init, e.Sized
  names : ∀ l ∈ d.names, l.length < lengthLimit ∧ ∀ t ∈ l, Short t

structure Module.Sized (m : Module) : Prop where
  name : Short m.name
  path : Short m.path
  imports : NodesSized Import.Sized m.imports
  decls : NodesSized Decl.Sized m.decls

/-! ## Reading keeps lengths short -/

section

variable {α : Type} {P : α → Prop} {fields : List String} {blank : α} {set : α → Text → Item → Option α}

def KeptBy (P : α → Prop) (read : α → Item → Option α) : Prop := ∀ ⦃a i b⦄, P a → i.Small → read a i = some b → P b

def Each (P : α → Prop) (o : Option α) : Prop := ∀ a ∈ o, P a

lemma readText_short (hi : i.Small) (h : readText i = some t) : Short t := by
  cases hi with
  | nil =>
    cases h
    exact (by decide : 0 < lengthLimit)
  | text length =>
    cases h
    exact length
  | _ => cases h

lemma entriesOf_small (hi : i.Small)
    (h : entriesOf fields i = some (cleared, entries)) : ∀ e ∈ entries, e.2.Small := by
  cases hi with
  | nil =>
    cases h
    exact nofun
  | map values =>
    cases h
    exact values
  | @list l length items =>
    cases l with
    | nil =>
      cases h
      exact nofun
    | cons j l =>
      simp only [entriesOf] at h
      split at h
      · cases h
        exact fun e he => items e.2 (List.of_mem_zip he).2
      · cases h
  | _ => cases h

lemma readNode_keeps (hblank : P blank) (hset : ∀ key, KeptBy P (set · key)) : KeptBy P (readNode fields blank set) := by
  intro old i b hold hi h
  simp only [readNode, bind_eq_bind, bind_eq_some_iff] at h
  obtain ⟨⟨cleared, entries⟩, hentries, h⟩ := h
  have hsmall := entriesOf_small hi hentries
  have hstart : P (if cleared then blank else old) := by
    split
    · exact hblank
    · exact hold
  clear hentries
  generalize (if cleared then blank else old) = a at h hstart
  induction entries generalizing a with
  | nil =>
    cases h
    exact hstart
  | cons e entries ih =>
    simp only [List.foldlM_cons, bind_eq_bind, bind_eq_some_iff] at h
    obtain ⟨a', ha', h⟩ := h
    exact ih (fun x hx => hsmall x (.tail _ hx)) a' h (hset _ hstart (hsmall e (.head _)) ha')

lemma readOptional_keeps (hblank : P blank) (hread : KeptBy P f) : KeptBy (Each P) (readOptional blank f) := by
  intro old i o hold hi h
  have hstart : P (old.getD blank) := by
    cases old with
    | none => exact hblank
    | some a => exact hold a rfl
  unfold readOptional at h
  split at h
  · cases h
    exact nofun
  · obtain ⟨b, hb, rfl⟩ := map_eq_some_iff.1 h
    exact fun a ha => mem_some_iff.1 ha ▸ hread hstart hi hb

lemma readOver_keeps (hread : KeptBy (Each P) f) (hold : ∀ a, some a ∈ old → P a) (hi : ∀ i ∈ items, i.Small)
    (h : readOver f old items = some l) : l.length = items.length ∧ ∀ a, some a ∈ l → P a := by
  fun_induction readOver f old items generalizing l with
  | case1 =>
    cases h
    exact ⟨rfl, nofun⟩
  | case2 i rest ih =>
    simp only [bind_eq_bind, bind_eq_some_iff] at h
    obtain ⟨n, hn, ns, hns, h⟩ := h
    cases h
    obtain ⟨hlen, hall⟩ := ih hold (fun j hj => hi j (.tail _ hj)) hns
    refine ⟨congrArg Nat.succ hlen, fun a ha => ?_⟩
    rcases List.mem_cons.1 ha with rfl | ha
    · exact hread (fun b hb => by cases hb) (hi i (.head _)) hn a rfl
    · exact hall a ha
  | case3 o old i rest ih =>
    simp only [bind_eq_bind, bind_eq_some_iff] at h
    obtain ⟨n, hn, ns, hns, h⟩ := h
    cases h
    obtain ⟨hlen, hall⟩ := ih (fun a ha => hold a (.tail _ ha))
      (fun j hj => hi j (.tail _ hj)) hns
    refine ⟨congrArg Nat.succ hlen, fun a ha => ?_⟩
    rcases List.mem_cons.1 ha with rfl | ha
    · exact hread (fun b hb => hold b (by rw [mem_def.1 hb]; exact .head _))
        (hi i (.head _)) hn a rfl
    · exact hall a ha

lemma readNodes_keeps (hread : KeptBy (Each P) f) : KeptBy (NodesSized P) (readNodes f) := by
  intro old i l hold hi h
  cases hi with
  | nil =>
    cases h
    exact nofun
  | @list items length hitems =>
    obtain ⟨ns, hns, rfl⟩ := map_eq_some_iff.1 h
    have hitemsOld : ∀ a, some a ∈ old.items → P a := fun a ha => by
      cases old with
      | none => cases ha
      | some l => exact (hold l rfl).2 a ha
    obtain ⟨hlen, hall⟩ := readOver_keeps hread hitemsOld hitems hns
    exact fun l hl => mem_some_iff.1 hl ▸ ⟨hlen ▸ length, hall⟩
  | _ => cases h

end

/-! ## Each kind of node -/

lemma field_keeps {P : α → Prop} [Decidable c] {x : Option β} {put : β → α} {rest : Option α}
    {b : α} (hput : ∀ v, x = some v → P (put v)) (hrest : rest = some b → P b) :
    (if c then x.map put else rest) = some b → P b := by
  by_cases hc : c
  · rw [if_pos hc]
    intro h
    obtain ⟨v, hv, rfl⟩ := map_eq_some_iff.1 h
    exact hput v hv
  · rwa [if_neg hc]

lemma short_nil : Short [] := (by decide : 0 < lengthLimit)

lemma readType_sized : KeptBy (Each TypeRef.Sized) readType := by
  have hblank : TypeRef.Sized {} := short_nil
  refine readOptional_keeps hblank (readNode_keeps hblank fun key a i b ha hj => ?_)
  refine field_keeps (fun _ hv => readText_short hj hv) ?_
  refine field_keeps (fun _ _ => ha) ?_
  rintro ⟨⟩
  exact ha

lemma Expr.Sized.blank : Expr.Sized {} := .mk short_nil short_nil short_nil (by simp) (by simp) (by simp)
    (by simp) (by simp) (by simp) (by simp)

lemma Expr.setPlain_sized (key) : KeptBy Expr.Sized (setPlain · key) := by
  rintro e i b ⟨str, name, op, type, x, y, cond, count, length, args⟩ hi
  iterate 5 refine field_keeps (fun _ _ => .mk str name op type x y cond count length args) ?_
  refine field_keeps (fun _ hv => .mk (readText_short hi hv) name op type x y cond count length args) ?_
  refine field_keeps (fun _ hv => .mk str (readText_short hi hv) op type x y cond count length args) ?_
  refine field_keeps (fun _ hv => .mk str name (readText_short hi hv) type x y cond count length args) ?_
  refine field_keeps (fun _ hv => .mk str name op (readType_sized type hi hv) x y cond count length args) ?_
  rintro ⟨⟩
  exact .mk str name op type x y cond count length args

lemma Expr.set_sized (hinner : KeptBy (Each Sized) f) (key) : KeptBy Expr.Sized (set f · key) := by
  intro e i b he hi
  have hplain := he
  obtain ⟨str, name, op, type, x, y, cond, count, length, args⟩ := he
  have hargs {l} := readNodes_keeps (b := l) hinner (fun l hl => ⟨length l hl, args l hl⟩) hi
  refine field_keeps (fun _ hv => .mk str name op type (hinner x hi hv) y cond count length args) ?_
  refine field_keeps (fun _ hv => .mk str name op type x (hinner y hi hv) cond count length args) ?_
  refine field_keeps (fun _ hv => .mk str name op type x y (hinner cond hi hv) count length args) ?_
  refine field_keeps (fun _ hv => .mk str name op type x y cond (hinner count hi hv) length args) ?_
  refine field_keeps (fun _ hv => .mk str name op type x y cond count (fun l hl => (hargs hv l hl).1) (fun l hl => (hargs hv l hl).2)) ?_
  exact Expr.setPlain_sized key hplain hi

lemma Expr.read_sized (depth) : KeptBy Expr.Sized (read depth) := by
  induction depth with
  | zero => exact fun _ _ _ _ _ => nofun
  | succ depth ih => exact readNode_keeps .blank (set_sized (readOptional_keeps .blank ih))

lemma readExpr_sized : KeptBy (Each Expr.Sized) (readExpr depth) := readOptional_keeps .blank (Expr.read_sized depth)

lemma Stmt.Sized.blank : Stmt.Sized {} := .mk short_nil (by simp) (by simp) (by simp) (by simp)
    (by simp) (by simp) (by simp) (by simp)
    (by simp) (by simp) (by simp)

lemma Stmt.setPlain_sized (depth key) : KeptBy Stmt.Sized (setPlain depth · key) := by
  rintro s i b ⟨name, type, target, value, cond, yes, no, init, step, body, length, list⟩ hi
  refine field_keeps (fun _ _ => .mk name type target value cond yes no init step body length list) ?_
  refine field_keeps (fun _ hv => .mk (readText_short hi hv) type target value cond yes no init step body length list) ?_
  refine field_keeps (fun _ hv => .mk name (readType_sized type hi hv) target value cond yes no init step body length list) ?_
  refine field_keeps (fun _ hv => .mk name type (readExpr_sized target hi hv) value cond yes no init step body length list) ?_
  refine field_keeps (fun _ hv => .mk name type target (readExpr_sized value hi hv) cond yes no init step body length list) ?_
  refine field_keeps (fun _ hv => .mk name type target value (readExpr_sized cond hi hv) yes no init step body length list) ?_
  rintro ⟨⟩
  exact .mk name type target value cond yes no init step body length list

lemma Stmt.set_sized (hinner : KeptBy (Each Sized) f) (key) : KeptBy Stmt.Sized (set depth f · key) := by
  intro s i b hs hi
  have hplain := hs
  obtain ⟨name, type, target, value, cond, yes, no, init, step, body, length, list⟩ := hs
  have hlist {l} := readNodes_keeps (b := l) hinner (fun l hl => ⟨length l hl, list l hl⟩) hi
  refine field_keeps (fun _ hv => .mk name type target value cond (hinner yes hi hv) no init step body length list) ?_
  refine field_keeps (fun _ hv => .mk name type target value cond yes (hinner no hi hv) init step body length list) ?_
  refine field_keeps (fun _ hv => .mk name type target value cond yes no (hinner init hi hv) step body length list) ?_
  refine field_keeps (fun _ hv => .mk name type target value cond yes no init (hinner step hi hv) body length list) ?_
  refine field_keeps (fun _ hv => .mk name type target value cond yes no init step (hinner body hi hv) length list) ?_
  refine field_keeps (fun _ hv => .mk name type target value cond yes no init step body (fun l hl => (hlist hv l hl).1)
    fun l hl => (hlist hv l hl).2) ?_
  exact Stmt.setPlain_sized depth key hplain hi

lemma Stmt.read_sized (depth) : KeptBy Stmt.Sized (read depth) := by
  induction depth with
  | zero => exact fun _ _ _ _ _ => nofun
  | succ depth ih => exact readNode_keeps .blank (set_sized (readOptional_keeps .blank ih))

lemma readImport_sized : KeptBy (Each Import.Sized) readImport := by
  have hblank : Import.Sized {} := ⟨short_nil, short_nil⟩
  refine readOptional_keeps hblank (readNode_keeps hblank fun key a i b ha hi => ?_)
  refine field_keeps (fun _ hv => ⟨readText_short hi hv, ha.target⟩) ?_
  refine field_keeps (fun _ hv => ⟨ha.name, readText_short hi hv⟩) ?_
  rintro ⟨⟩
  exact ha

lemma readParam_sized : KeptBy (Each Param.Sized) readParam := by
  have hblank : Param.Sized {} := ⟨short_nil, by simp⟩
  refine readOptional_keeps hblank (readNode_keeps hblank fun key a i b ha hi => ?_)
  refine field_keeps (fun _ hv => ⟨readText_short hi hv, ha.type⟩) ?_
  refine field_keeps (fun _ hv => ⟨ha.name, readType_sized ha.type hi hv⟩) ?_
  rintro ⟨⟩
  exact ha

lemma readField_sized : KeptBy (Each Field.Sized) (readField depth) := by
  have hblank : Field.Sized {} := ⟨short_nil, by simp, by simp⟩
  refine readOptional_keeps hblank (readNode_keeps hblank fun key a i b ha hi => ?_)
  refine field_keeps (fun _ hv => ⟨readText_short hi hv, ha.type, ha.init⟩) ?_
  refine field_keeps (fun _ hv => ⟨ha.name, readType_sized ha.type hi hv, ha.init⟩) ?_
  refine field_keeps (fun _ hv => ⟨ha.name, ha.type, readExpr_sized ha.init hi hv⟩) ?_
  rintro ⟨⟩
  exact ha

lemma mapM_readText_short {items : List Item} (hi : ∀ i ∈ items, i.Small)
    (h : items.mapM readText = some l) : l.length = items.length ∧ ∀ t ∈ l, Short t := by
  induction items generalizing l with
  | nil =>
    cases h
    exact ⟨rfl, nofun⟩
  | cons i items ih =>
    simp only [List.mapM_cons, bind_eq_bind, bind_eq_some_iff] at h
    obtain ⟨t, ht, ts, hts, h⟩ := h
    cases h
    obtain ⟨hlen, hall⟩ := ih (fun j hj => hi j (.tail _ hj)) hts
    refine ⟨congrArg Nat.succ hlen, fun u hu => ?_⟩
    rcases List.mem_cons.1 hu with rfl | hu
    · exact readText_short (hi i (.head _)) ht
    · exact hall u hu

lemma readNames_sized : KeptBy (Each fun ns => ns.length < lengthLimit ∧ ∀ t ∈ ns, Short t) readNames := by
  intro old i l hold hi h
  cases hi with
  | nil =>
    cases h
    exact hold
  | @list items length hitems =>
    obtain ⟨ns, hns, rfl⟩ := map_eq_some_iff.1 h
    obtain ⟨hlen, hall⟩ := mapM_readText_short hitems hns
    exact fun l hl => mem_some_iff.1 hl ▸ ⟨hlen ▸ length, hall⟩
  | _ => cases h

lemma readDecl_sized : KeptBy (Each Decl.Sized) (readDecl depth) := by
  have hblank : Decl.Sized {} := ⟨short_nil, by simp [NodesSized], by simp, by simp, short_nil, by simp [NodesSized],
    by simp, by simp, by simp⟩
  refine readOptional_keeps hblank (readNode_keeps hblank fun key a i b hd hi => ?_)
  refine field_keeps (fun _ _ => { hd with }) ?_
  refine field_keeps (fun _ hv => { hd with name := readText_short hi hv }) ?_
  refine field_keeps (fun _ hv => { hd with params := readNodes_keeps readParam_sized hd.params hi hv }) ?_
  refine field_keeps (fun _ hv => { hd with ret := readType_sized hd.ret hi hv }) ?_
  refine field_keeps (fun _ _ => { hd with }) ?_
  refine field_keeps (fun _ hv => { hd with body := readOptional_keeps .blank (Stmt.read_sized depth) hd.body hi hv }) ?_
  refine field_keeps (fun _ hv => { hd with base := readText_short hi hv }) ?_
  refine field_keeps (fun _ hv => { hd with fields := readNodes_keeps readField_sized hd.fields hi hv }) ?_
  refine field_keeps (fun _ hv => { hd with type := readType_sized hd.type hi hv }) ?_
  refine field_keeps (fun _ hv => { hd with init := readExpr_sized hd.init hi hv }) ?_
  refine field_keeps (fun _ hv => { hd with names := readNames_sized hd.names hi hv }) ?_
  rintro ⟨⟩
  exact hd

lemma readModule_sized : KeptBy (Each Module.Sized) (readModule depth) := by
  have hblank : Module.Sized {} := ⟨short_nil, short_nil, by simp [NodesSized], by simp [NodesSized]⟩
  refine readOptional_keeps hblank (readNode_keeps hblank fun key a i b hm hi => ?_)
  refine field_keeps (fun _ hv => { hm with name := readText_short hi hv }) ?_
  refine field_keeps (fun _ hv => { hm with path := readText_short hi hv }) ?_
  refine field_keeps (fun _ hv => { hm with imports := readNodes_keeps readImport_sized hm.imports hi hv }) ?_
  refine field_keeps (fun _ hv => { hm with decls := readNodes_keeps readDecl_sized hm.decls hi hv }) ?_
  rintro ⟨⟩
  exact hm

lemma decode_eq_ok (h : decode t = .ok m) :
    (∃ e, Envelope.ofBytes? t = some e ∧ e.module = some m) ∧ m.check = .ok () := by
  cases he : Envelope.ofBytes? t with
  | none => simp [decode, he] at h
  | some e =>
    simp only [decode, he] at h
    split at h
    · cases h
    · split at h
      · cases h
      · next m' hm =>
        cases hc : m'.check with
        | error f => simp [hc, Except.map] at h
        | ok u =>
          simp only [hc, Except.map, Except.ok.injEq] at h
          exact ⟨⟨e, rfl, h ▸ hm⟩, h ▸ hc⟩

lemma ofBytes?_sized (h : Envelope.ofBytes? t = some e) : ∀ m ∈ e.module, m.Sized := by
  simp only [Envelope.ofBytes?, bind_eq_bind, bind_eq_some_iff] at h
  obtain ⟨⟨i, rest⟩, hi, h⟩ := h
  have hblank : ∀ m ∈ ({} : Envelope).module, m.Sized := nofun
  refine readNode_keeps (P := fun e : Envelope => ∀ m ∈ e.module, m.Sized) hblank ?_ hblank ((readItem_small _).1 _ _ _ hi) h
  intro a key i b ha hi h
  revert h
  refine field_keeps (P := fun e : Envelope => ∀ m ∈ e.module, m.Sized) (fun _ _ => ha) ?_
  refine field_keeps (P := fun e : Envelope => ∀ m ∈ e.module, m.Sized) (fun _ hv => readModule_sized ha hi hv) ?_
  rintro ⟨⟩
  exact ha

lemma decode_sized (h : decode t = .ok m) : m.Sized := by
  obtain ⟨⟨e, he, hm⟩, -⟩ := decode_eq_ok h
  exact ofBytes?_sized he m hm

end Arbor.Tree
