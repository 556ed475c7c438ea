import Arbor.Proofs.Along
import Arbor.Proofs.Code
import Arbor.Proofs.Keys

/-! What a store keeps while it is built: handles stand for what they stood for, blocks are only
added to, and the tables of types and values agree with the entries. -/

namespace Arbor.IR

namespace FuncInfo

/-- The same function, perhaps under another name and with more blocks. -/
structure Alike (f g : FuncInfo) : Prop where
  module : g.module = f.module
  ret : g.ret = f.ret
  params : g.code.params = f.code.params
  variadic : g.variadic = f.variadic
  blocks : f.blocks.toList <+: g.blocks.toList

lemma Alike.refl (f : FuncInfo) : f.Alike f := ⟨rfl, rfl, rfl, rfl, List.prefix_rfl⟩

lemma Alike.trans {f : FuncInfo} (h : f.Alike g) (h' : g.Alike k) : f.Alike k :=
  ⟨h'.module.trans h.module, h'.ret.trans h.ret, h'.params.trans h.params, h'.variadic.trans h.variadic,
    h.blocks.trans h'.blocks⟩

/-- The same function, perhaps with more blocks. -/
structure Le (f g : FuncInfo) : Prop extends Alike f g where
  ident : g.ident = f.ident

end FuncInfo

namespace BlockInfo

/-- The same block, perhaps with more in it; one that has ended stays as it is. -/
structure Le (b c : BlockInfo) : Prop where
  func : c.func = b.func
  insts : b.insts.toList <+: c.insts.toList
  ending : ∀ e, b.ending = some e → c.ending = some e ∧ c.insts = b.insts

lemma Le.refl (b : BlockInfo) : b.Le b := ⟨rfl, List.prefix_rfl, fun _ h => ⟨h, rfl⟩⟩

lemma Le.trans {a : BlockInfo} (h : a.Le b) (k : b.Le c) : a.Le c := by
  refine ⟨k.func.trans h.func, h.insts.trans k.insts, fun e he => ?_⟩
  obtain ⟨he', hi⟩ := h.ending e he
  obtain ⟨he'', hi'⟩ := k.ending e he'
  exact ⟨he'', hi'.trans hi⟩

end BlockInfo

namespace InstInfo

structure Le (i j : InstInfo) : Prop where
  inst : j.inst = i.inst
  ty : j.ty = i.ty
  block : j.block = i.block

end InstInfo

namespace ModuleInfo

structure Le (m n : ModuleInfo) : Prop where
  name : n.name = m.name
  dropped : n.dropped = m.dropped
  funcs : m.funcs.toList <+: n.funcs.toList
  declared : m.declared <+: n.declared
  texts : m.texts.toList <+: n.texts.toList

end ModuleInfo

namespace Entry

/-- What an entry can become. -/
inductive Le : Entry → Entry → Prop where
  | reserved (e : Entry) : Le .reserved e
  | type (t : Ty) : Le (.type t) (.type t)
  | struct {i j : StructInfo} (h : j.module = i.module) : Le (.struct i) (.struct j)
  | const (c : Const) : Le (.const c) (.const c)
  | param (f : Handle) (i : Nat) : Le (.param f i) (.param f i)
  | func {f g : FuncInfo} (h : f.Le g) : Le (.func f) (.func g)
  | block {b c : BlockInfo} (h : b.Le c) : Le (.block b) (.block c)
  | inst {i j : InstInfo} (h : i.Le j) : Le (.inst i) (.inst j)
  | ending (b : Handle) : Le (.ending b) (.ending b)
  | module {m n : ModuleInfo} (h : m.Le n) : Le (.module m) (.module n)

lemma Le.refl (e : Entry) : e.Le e := by
  cases e with
  | reserved | type | const | param | ending => constructor
  | struct i => exact .struct rfl
  | func f => exact .func ⟨.refl f, rfl⟩
  | block b => exact .block (.refl b)
  | inst i => exact .inst ⟨rfl, rfl, rfl⟩
  | module m => exact .module ⟨rfl, rfl, List.prefix_rfl, List.prefix_rfl, List.prefix_rfl⟩

lemma Le.trans {a : Entry} (h : a.Le b) (k : b.Le c) : a.Le c := by
  cases h with
  | reserved => exact .reserved c
  | type | const | param | ending => exact k
  | struct h =>
    cases k with
    | struct k => exact .struct (k.trans h)
  | func h =>
    cases k with
    | func k => exact .func ⟨h.toAlike.trans k.toAlike, k.ident.trans h.ident⟩
  | block h =>
    cases k with
    | block k => exact .block (h.trans k)
  | inst h =>
    cases k with
    | inst k => exact .inst ⟨k.inst.trans h.inst, k.ty.trans h.ty, k.block.trans h.block⟩
  | module h =>
    cases k with
    | module k =>
      exact .module ⟨k.name.trans h.name, k.dropped.trans h.dropped,
        h.funcs.trans k.funcs, h.declared.trans k.declared, h.texts.trans k.texts⟩

end Entry

namespace Ty

mutual

def structs : Ty → List Handle
  | .ptr e | .array _ e => e.structs
  | .func r ps _ => r.structs ++ structsAll ps
  | .struct h => [h]
  | .void | .label | .int _ | .float _ => []

def structsAll : List Ty → List Handle
  | [] => []
  | t :: ts => t.structs ++ structsAll ts

end

def Plain : Ty → Prop
  | .ptr e | .array _ e => e.Plain
  | .func .. => False
  | .void | .label | .int _ | .float _ | .struct _ => True

lemma mem_structsAll : k ∈ structsAll ts ↔ ∃ t ∈ ts, k ∈ t.structs := by
  induction ts with
  | nil => simp [structsAll]
  | cons t ts ih => simp [structsAll, ih]

end Ty

namespace Store

def Holds (s : Store) (t : Ty) : Prop := ∀ k ∈ t.structs, ∃ i, s.entry k = .struct i

def EntryOk (s : Store) (h : Handle) : Entry → Prop
  | .type t => s.Found t h ∧ s.Holds t
  | .const c => s.Holds c.ty
  | .param f i => ∃ F, s.entry f = .func F ∧ i < F.params.size
  | .func f =>
    (∃ m, s.entry f.module = .module m ∧ h ∈ m.funcs.toList) ∧ s.Holds f.signature ∧
      (∀ b ∈ f.blocks.toList, ∃ B, s.entry b = .block B ∧ B.func = h) ∧
      f.ret.Plain ∧ ∀ t ∈ f.code.params, t.Plain
  | .block b =>
    (∃ F, s.entry b.func = .func F ∧ h ∈ F.blocks.toList) ∧
      (∀ g ∈ b.insts.toList, ∃ i, s.entry g = .inst i ∧ i.block = h) ∧
      ∀ e, b.ending = some e → s.entry e.handle = .ending h ∧ ∀ g ∈ e.terminator.successors, ∃ B, s.entry g = .block B
  | .inst i =>
    s.Holds i.ty ∧ (∀ e, i.inst = .alloca e → i.ty = .ptr e) ∧
      (∀ e v, i.inst = .load e v → ∃ g j, v = .inst g ∧ s.entry g = .inst j ∧ j.inst = .alloca e) ∧
      ∀ d vs, i.inst = .call (.func d) vs → ∃ B F G, s.entry i.block = .block B ∧ s.entry B.func = .func F ∧
        s.entry d = .func G ∧ G.module = F.module
  | .module m =>
    (∀ g ∈ m.funcs.toList, ∃ f, s.entry g = .func f ∧ f.module = h) ∧
      ∀ p ∈ m.declared, p.2 ∈ m.funcs.toList ∧ ∃ f, s.entry p.2 = .func f ∧ f.ident.name = p.1
  | .reserved | .struct _ | .ending _ => True

/-- The tables of a store agree with its entries, and these with each other. -/
structure WF (s : Store) : Prop where
  reserved : s.entry noHandle = .reserved
  size_pos : 0 < s.entries.size
  entries : ∀ h, s.EntryOk h (s.entry h)
  types : ∀ (key : TypeKey) (h : Handle), s.types[key.text]? = some h → ∃ t, s.entry h = .type t ∧ s.Keyed t key
  values : ∀ (v : Operand) (h : Handle), s.values[v]? = some h → s.operand? h = some v
  violations : ∀ v ∈ s.violations, v.module < s.entries.size

/-- A later state of a store. -/
structure Mono (s s' : Store) : Prop where
  size_le : s.entries.size ≤ s'.entries.size
  entry : ∀ h, (s.entry h).Le (s'.entry h)
  types : ∀ (key : String) (h : Handle), s.types[key]? = some h → s'.types[key]? = some h

/-- A later state of a store that is no worse. -/
structure Grows (s s' : Store) : Prop extends Mono s s' where
  wf : s.WF → s'.WF

lemma Mono.refl (s) : Mono s s := ⟨Nat.le_refl _, fun _ => .refl _, fun _ _ => id⟩

lemma Mono.trans (h : Mono s s') (k : Mono s' s'') : Mono s s'' :=
  ⟨Nat.le_trans h.size_le k.size_le, fun x => (h.entry x).trans (k.entry x), fun t x hx => k.types t x (h.types t x hx)⟩

instance : IsPreorder Store Grows where
  refl s := ⟨.refl s, id⟩
  trans _ _ _ h k := ⟨h.toMono.trans k.toMono, k.wf ∘ h.wf⟩

namespace Mono

section

variable (g : Mono s s')

include g

lemma becomes (he : s.entry h = e) : ∃ e', s'.entry h = e' ∧ e.Le e' := ⟨_, rfl, he ▸ g.entry h⟩

lemma func (hf : s.entry h = .func f) : ∃ f', s'.entry h = .func f' ∧ f.Le f' := by
  obtain ⟨_, he, hle⟩ := g.becomes hf
  cases hle with
  | func hle => exact ⟨_, he, hle⟩

lemma block (hb : s.entry h = .block b) : ∃ b', s'.entry h = .block b' ∧ b.Le b' := by
  obtain ⟨_, he, hle⟩ := g.becomes hb
  cases hle with
  | block hle => exact ⟨_, he, hle⟩

lemma inst (hi : s.entry h = .inst i) : ∃ i', s'.entry h = .inst i' ∧ i.Le i' := by
  obtain ⟨_, he, hle⟩ := g.becomes hi
  cases hle with
  | inst hle => exact ⟨_, he, hle⟩

lemma module (hm : s.entry h = .module m) : ∃ m', s'.entry h = .module m' ∧ m.Le m' := by
  obtain ⟨_, he, hle⟩ := g.becomes hm
  cases hle with
  | module hle => exact ⟨_, he, hle⟩

lemma struct (hi : s.entry h = .struct i) : ∃ i', s'.entry h = .struct i' := by
  obtain ⟨_, he, hle⟩ := g.becomes hi
  cases hle with
  | struct _ => exact ⟨_, he⟩

lemma ending (hb : s.entry h = .ending b) : s'.entry h = .ending b := by
  obtain ⟨_, he, hle⟩ := g.becomes hb
  cases hle with
  | ending _ => exact he

lemma type? (ht : s.type? h = some t) : s'.type? h = some t := by
  have hle := g.entry h
  unfold Store.type? at ht ⊢
  generalize s.entry h = e at hle ht
  generalize s'.entry h = e' at hle
  cases hle <;> simp_all

lemma operand? (hv : s.operand? h = some v) : s'.operand? h = some v := by
  have hle := g.entry h
  unfold Store.operand? at hv ⊢
  generalize s.entry h = e at hle hv
  generalize s'.entry h = e' at hle
  cases hle with
  | inst hle => simpa only [hle.inst] using hv
  | _ => simp_all

lemma holds (ht : s.Holds t) : s'.Holds t := by
  intro k hk
  obtain ⟨i, hi⟩ := ht k hk
  exact g.struct hi

lemma entryOk (he : s.EntryOk h e) : s'.EntryOk h e := by
  cases e with
  | type t => exact ⟨he.1.mono (fun _ _ => g.type?) g.types, g.holds he.2⟩
  | const c => exact g.holds he
  | param f i =>
    obtain ⟨F, hF, hi⟩ := he
    obtain ⟨F', hF', hle⟩ := g.func hF
    have hp : F'.params.size = F.params.size := by
      simpa [FuncInfo.code] using congrArg List.length hle.params
    exact ⟨F', hF', hp ▸ hi⟩
  | func f =>
    obtain ⟨⟨m, hm, hmem⟩, hs, hb, hplain⟩ := he
    obtain ⟨m', hm', hle⟩ := g.module hm
    refine ⟨⟨m', hm', hle.funcs.subset hmem⟩, g.holds hs, fun b hbf => ?_, hplain⟩
    obtain ⟨B, hB, hBf⟩ := hb b hbf
    obtain ⟨B', hB', hle⟩ := g.block hB
    exact ⟨B', hB', hle.func.trans hBf⟩
  | block b =>
    obtain ⟨⟨F, hF, hb⟩, hi, he⟩ := he
    obtain ⟨F', hF', hle⟩ := g.func hF
    refine ⟨⟨F', hF', hle.blocks.subset hb⟩, fun x hx => ?_, fun e hbe => ?_⟩
    · obtain ⟨i, hxi, hblock⟩ := hi x hx
      obtain ⟨i', hi', hle⟩ := g.inst hxi
      exact ⟨i', hi', hle.block.trans hblock⟩
    · refine ⟨g.ending (he e hbe).1, fun x hx => ?_⟩
      obtain ⟨B, hB⟩ := (he e hbe).2 x hx
      obtain ⟨B', hB', -⟩ := g.block hB
      exact ⟨B', hB'⟩
  | inst i =>
    refine ⟨g.holds he.1, he.2.1, fun e v hv => ?_, fun d vs hd => ?_⟩
    · obtain ⟨x, j, hx, hj, ha⟩ := he.2.2.1 e v hv
      obtain ⟨j', hj', hle⟩ := g.inst hj
      exact ⟨x, j', hx, hj', hle.inst.trans ha⟩
    · obtain ⟨B, F, G, hB, hF, hG, hmodule⟩ := he.2.2.2 d vs hd
      obtain ⟨B', hB', hBle⟩ := g.block hB
      obtain ⟨F', hF', hFle⟩ := g.func hF
      obtain ⟨G', hG', hGle⟩ := g.func hG
      refine ⟨B', F', G', hB', hBle.func ▸ hF', hG', ?_⟩
      rw [hGle.module, hFle.module, hmodule]
  | module m =>
    refine ⟨fun x hx => ?_, fun p hp => ⟨(he.2 p hp).1, ?_⟩⟩
    · obtain ⟨f, hf, hfm⟩ := he.1 x hx
      obtain ⟨f', hf', hle⟩ := g.func hf
      exact ⟨f', hf', hle.module.trans hfm⟩
    · obtain ⟨f, hf, hname⟩ := (he.2 p hp).2
      obtain ⟨f', hf', hle⟩ := g.func hf
      exact ⟨f', hf', hle.ident ▸ hname⟩
  | reserved => trivial
  | struct i => trivial
  | ending b => trivial

end

end Mono

lemma WF.of_changes (hs : s.WF) (g : Mono s s') (hentries : ∀ h, s'.entry h ≠ s.entry h → s'.EntryOk h (s'.entry h))
    (htypes : ∀ (key : TypeKey) (h), s'.types[key.text]? = some h → s.types[key.text]? = some h ∨
      ∃ t, s'.entry h = .type t ∧ s'.Keyed t key)
    (hvalues : ∀ (v) (h), s'.values[v]? = some h → s.values[v]? = some h ∨ s'.operand? h = some v)
    (hviolations : ∀ v ∈ s'.violations, v ∈ s.violations ∨ v.module < s'.entries.size)
    (hreserved : s'.entry noHandle = .reserved) : s'.WF where
  reserved := hreserved
  size_pos := Nat.lt_of_lt_of_le hs.size_pos g.size_le
  entries h := by
    by_cases hh : s'.entry h = s.entry h
    · rw [hh]
      exact g.entryOk (hs.entries h)
    · exact hentries h hh
  types key h hh := by
    rcases htypes key h hh with hh | hh
    · obtain ⟨t, ht, hk⟩ := hs.types key h hh
      obtain ⟨_, he, hle⟩ := g.becomes ht
      cases hle
      exact ⟨t, he, hk.mono fun _ _ => g.type?⟩
    · exact hh
  values v h hv := by
    rcases hvalues v h hv with hv | hv
    · exact g.operand? (hs.values v h hv)
    · exact hv
  violations v hv := by
    rcases hviolations v hv with hv | hv
    · exact Nat.lt_of_lt_of_le (hs.violations v hv) g.size_le
    · exact hv

end Store

end Arbor.IR
