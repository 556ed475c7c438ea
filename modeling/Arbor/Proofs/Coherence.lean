import Arbor.Proofs.Growth

/-! What no operation of the backend undoes, whoever asks for it and in whatever order. Handles go on
standing for what they stood for, only the body of a struct can be replaced, and the table of types and the
entries for types agree. -/

namespace Arbor.IR

open Proofs

variable {e : Entry} {v : Operand}

namespace Ty

mutual

def Formed : Ty → Prop
  | .ptr e => e.Formed ∧ e ≠ .void ∧ e ≠ .label
  | .array _ e => e.Formed
  | .func r ps _ => r.Formed ∧ FormedAll ps
  | .void | .label | .int _ | .float _ | .struct _ => True

def FormedAll : List Ty → Prop
  | [] => True
  | t :: ts => (t.Formed ∧ t ≠ .void) ∧ FormedAll ts

end

lemma formedAll_iff : FormedAll ts ↔ ∀ t ∈ ts, t.Formed ∧ t ≠ .void := by
  induction ts with
  | nil => simp [FormedAll]
  | cons t ts ih => simp [FormedAll, ih]

end Ty

lemma FuncInfo.Alike.signature {f : FuncInfo} (h : f.Alike g) : g.signature = f.signature := by
  rw [FuncInfo.signature, h.ret, h.variadic]
  exact congrArg (fun ps => Ty.func f.ret ps f.variadic) h.params

namespace Entry

inductive Lasts (body : Prop) : Entry → Entry → Prop where
  | reserved (e : Entry) : Lasts body .reserved e
  | type (t : Ty) : Lasts body (.type t) (.type t)
  | struct {i j : StructInfo} (name : j.name = i.name) (label : j.label = i.label) (module : j.module = i.module)
      (fields : ¬body → j.fields = i.fields) : Lasts body (.struct i) (.struct j)
  | const (c : Const) : Lasts body (.const c) (.const c)
  | param (f : Handle) (i : Nat) : Lasts body (.param f i) (.param f i)
  | func {f g : FuncInfo} (h : f.Alike g) : Lasts body (.func f) (.func g)
  | block {b c : BlockInfo} (h : b.Le c) : Lasts body (.block b) (.block c)
  | inst {i j : InstInfo} (h : i.Le j) : Lasts body (.inst i) (.inst j)
  | ending (b : Handle) : Lasts body (.ending b) (.ending b)
  | module {m n : ModuleInfo} (name : n.name = m.name) (dropped : m.dropped → n.dropped) :
      Lasts body (.module m) (.module n)

variable {a : Entry}

lemma Lasts.refl (e : Entry) : e.Lasts body e := by
  cases e with
  | reserved | type | const | param | ending => constructor
  | struct i => exact .struct rfl rfl rfl fun _ => rfl
  | func f => exact .func (.refl f)
  | block b => exact .block (.refl b)
  | inst i => exact .inst ⟨rfl, rfl, rfl⟩
  | module m => exact .module rfl id

lemma Lasts.trans (h : a.Lasts body b) (k : b.Lasts body c) : a.Lasts body c := by
  cases h with
  | reserved => exact .reserved c
  | type | const | param | ending => exact k
  | struct hname hlabel hmodule hfields =>
    cases k with
    | struct kname klabel kmodule kfields =>
      exact .struct (kname.trans hname) (klabel.trans hlabel) (kmodule.trans hmodule)
        fun hb => (kfields hb).trans (hfields hb)
  | func h =>
    cases k with
    | func k => exact .func (h.trans k)
  | block h =>
    cases k with
    | block k => exact .block (h.trans k)
  | inst h =>
    cases k with
    | inst k => exact .inst ⟨k.inst.trans h.inst, k.ty.trans h.ty, k.block.trans h.block⟩
  | module hname hdropped =>
    cases k with
    | module kname kdropped => exact .module (kname.trans hname) (kdropped ∘ hdropped)

lemma Lasts.mono (h : a.Lasts body b) (himp : body → body') : a.Lasts body' b := by
  cases h with
  | struct hname hlabel hmodule hfields => exact .struct hname hlabel hmodule fun hb => hfields (hb ∘ himp)
  | _ => constructor <;> assumption

end Entry

namespace Store

/-- A later state of a store, in which the structs of `B` may have got other bodies. -/
structure Evolves (B : Handle → Prop) (s s' : Store) : Prop where
  size_le : s.entries.size ≤ s'.entries.size
  entry : ∀ h, (s.entry h).Lasts (B h) (s'.entry h)
  types : ∀ (key : String) (h : Handle), s.types[key]? = some h → s'.types[key]? = some h
  violations : s.violations.toList <+: s'.violations.toList

/-- A type that values may have: it is well formed, and the structs in it exist. -/
structure Admits (s : Store) (t : Ty) : Prop where
  formed : t.Formed
  holds : s.Holds t

/-- The type of a value is one that values may have. What is not a constant has such a type anyway. -/
def Grounded (s : Store) (v : Operand) : Prop := ∀ c, v = .const c → s.Admits c.ty

def Fine (s : Store) (h : Handle) : Entry → Prop
  | .type t => s.Found t h ∧ s.Admits t
  | .const c => s.Admits c.ty
  | .func f => s.Admits f.signature
  | .inst i => s.Admits i.ty ∧ (∀ e, i.inst = .alloca e → i.ty = .ptr e) ∧ ∀ e v, i.inst = .load e v → s.Grounded v
  | .reserved | .struct _ | .param .. | .block _ | .ending _ | .module _ => True

/-- The entries have what they rely on, and the table of types lists entries. -/
structure Coherent (s : Store) : Prop where
  reserved : s.entry noHandle = .reserved
  size_pos : 0 < s.entries.size
  entries : ∀ h, s.Fine h (s.entry h)
  types : ∀ (key : TypeKey) (h : Handle), s.types[key.text]? = some h → ∃ t, s.entry h = .type t ∧ s.Keyed t key

structure Moves (B : Handle → Prop) (s s' : Store) : Prop extends Evolves B s s' where
  coherent : s.Coherent → s'.Coherent

structure Interns (s s' : Store) : Prop where
  size_le : s.entries.size ≤ s'.entries.size
  old : ∀ h < s.entries.size, s'.entry h = s.entry h
  new : ∀ h, s.entries.size ≤ h → h < s'.entries.size → ∃ t, s'.entry h = .type t
  types : ∀ (key : String) (h : Handle), s.types[key]? = some h → s'.types[key]? = some h
  values : s'.values = s.values
  active : s'.active = s.active
  violations : s'.violations = s.violations
  coherent : s.Coherent → s'.Coherent

variable {B : Handle → Prop} {s s' : Store} {h : Handle}

lemma Evolves.refl (s) : Evolves B s s := ⟨Nat.le_refl _, fun _ => .refl _, fun _ _ => id, List.prefix_rfl⟩

lemma Evolves.trans (h : Evolves B s s') (k : Evolves B s' s'') : Evolves B s s'' :=
  ⟨Nat.le_trans h.size_le k.size_le, fun x => (h.entry x).trans (k.entry x),
    fun t x hx => k.types t x (h.types t x hx), h.violations.trans k.violations⟩

lemma Evolves.mono (h : Evolves B s s') (himp : ∀ x, B x → C x) : Evolves C s s' :=
  ⟨h.size_le, fun x => (h.entry x).mono (himp x), h.types, h.violations⟩

instance : IsPreorder Store (Moves B) where
  refl s := ⟨.refl s, id⟩
  trans _ _ _ h k := ⟨h.toEvolves.trans k.toEvolves, k.coherent ∘ h.coherent⟩

instance : IsPreorder Store Interns where
  refl s := ⟨Nat.le_refl _, fun _ _ => rfl, fun h hle hlt => absurd hlt (Nat.not_lt.2 hle), fun _ _ => id, rfl, rfl, rfl,
    id⟩
  trans _ s1 _ h k := {
    size_le := Nat.le_trans h.size_le k.size_le
    old := fun x hx => (k.old x (Nat.lt_of_lt_of_le hx h.size_le)).trans (h.old x hx)
    new := fun x hle hlt => by
      by_cases hx : x < s1.entries.size
      · obtain ⟨t, ht⟩ := h.new x hle hx
        exact ⟨t, (k.old x hx).trans ht⟩
      · exact k.new x (Nat.not_lt.1 hx) hlt
    types := fun t x hx => k.types t x (h.types t x hx)
    values := k.values.trans h.values
    active := k.active.trans h.active
    violations := k.violations.trans h.violations
    coherent := k.coherent ∘ h.coherent }

lemma lt_size_of_type? (ht : s.type? h = some t) : h < s.entries.size := by
  refine lt_size_of_entry_ne fun he => ?_
  rw [type?, he] at ht
  cases ht

lemma Interns.cases (n : Interns s s') (h) :
    s'.entry h = s.entry h ∨ s.entry h = .reserved ∧ ∃ t, s'.entry h = .type t := by
  by_cases hlt : h < s.entries.size
  · exact .inl (n.old h hlt)
  · have hres := entry_of_size_le (Nat.not_lt.1 hlt)
    by_cases hlt' : h < s'.entries.size
    · exact .inr ⟨hres, n.new h (Nat.not_lt.1 hlt) hlt'⟩
    · exact .inl (by rw [hres, entry_of_size_le (Nat.not_lt.1 hlt')])

lemma Interns.type?_eq (n : Interns s s') (hlt : h < s.entries.size) : s'.type? h = s.type? h := by
  simp only [type?, n.old h hlt]

lemma Interns.entry_iff (n : Interns s s') (hres : e ≠ .reserved) (htype : ∀ t, e ≠ .type t) :
    s'.entry h = e ↔ s.entry h = e := by
  rcases n.cases h with he | ⟨he, t, ht⟩
  · rw [he]
  · rw [he, ht]
    exact ⟨fun h => absurd h.symm (htype t), fun h => absurd h.symm hres⟩

section Interned

variable (n : Interns s s') (h : Handle)
include n

lemma Interns.func?_eq : s'.func? h = s.func? h := by
  rcases n.cases h with he | ⟨he, t, ht⟩ <;> simp only [func?, *]

lemma Interns.block?_eq : s'.block? h = s.block? h := by
  rcases n.cases h with he | ⟨he, t, ht⟩ <;> simp only [block?, *]

lemma Interns.inst?_eq : s'.inst? h = s.inst? h := by
  rcases n.cases h with he | ⟨he, t, ht⟩ <;> simp only [inst?, *]

lemma Interns.module?_eq : s'.module? h = s.module? h := by
  rcases n.cases h with he | ⟨he, t, ht⟩ <;> simp only [module?, *]

lemma Interns.struct?_eq : s'.struct? h = s.struct? h := by
  rcases n.cases h with he | ⟨he, t, ht⟩ <;> simp only [struct?, *]

lemma Interns.operand?_eq : s'.operand? h = s.operand? h := by
  rcases n.cases h with he | ⟨he, t, ht⟩ <;> simp only [operand?, *]

lemma Interns.tyOf_eq (v) : s'.tyOf v = s.tyOf v := by
  cases v <;> simp only [tyOf, n.func?_eq, n.inst?_eq]

end Interned

lemma Interns.moves (n : Interns s s') : Moves B s s' where
  size_le := n.size_le
  entry x := by
    by_cases hx : s.entry x = .reserved
    · rw [hx]
      exact .reserved _
    · rw [n.old x (lt_size_of_entry_ne hx)]
      exact .refl _
  types := n.types
  violations := n.violations ▸ List.prefix_rfl
  coherent := n.coherent

lemma Interns.evolves (n : Interns s s') : Evolves (fun _ => False) s s' := n.moves.toEvolves

namespace Evolves

section

variable (g : Evolves B s s')

include g

lemma becomes (he : s.entry h = e) : ∃ e', s'.entry h = e' ∧ e.Lasts (B h) e' := ⟨_, rfl, he ▸ g.entry h⟩

lemma struct (hi : s.entry h = .struct i) :
    ∃ i', s'.entry h = .struct i' ∧ i'.name = i.name ∧ i'.label = i.label ∧ i'.module = i.module ∧
      (¬B h → i'.fields = i.fields) := by
  obtain ⟨_, he, hle⟩ := g.becomes hi
  cases hle with
  | struct name label module fields => exact ⟨_, he, name, label, module, fields⟩

lemma block (hb : s.entry h = .block b) : ∃ b', s'.entry h = .block b' ∧ b.Le b' := by
  obtain ⟨_, he, hle⟩ := g.becomes hb
  cases hle with
  | block hle => exact ⟨_, he, hle⟩

lemma inst (hi : s.entry h = .inst i) : ∃ i', s'.entry h = .inst i' ∧ i.Le i' := by
  obtain ⟨_, he, hle⟩ := g.becomes hi
  cases hle with
  | inst hle => exact ⟨_, he, hle⟩

lemma type? (ht : s.type? h = some t) : s'.type? h = some t := by
  have hle := g.entry h
  unfold Store.type? at ht ⊢
  generalize s.entry h = e at hle ht
  generalize s'.entry h = e' at hle
  cases hle <;> simp_all

lemma holds (ht : s.Holds t) : s'.Holds t := by
  intro k hk
  obtain ⟨i, hi⟩ := ht k hk
  obtain ⟨i', hi', -⟩ := g.struct hi
  exact ⟨i', hi'⟩

lemma admits (ht : s.Admits t) : s'.Admits t := ⟨ht.formed, g.holds ht.holds⟩

lemma grounded (hv : s.Grounded v) : s'.Grounded v := fun c hc => g.admits (hv c hc)

lemma fine (he : s.Fine h e) : s'.Fine h e := by
  cases e with
  | type t => exact ⟨he.1.mono (fun _ _ => g.type?) g.types, g.admits he.2⟩
  | const c => exact g.admits he
  | func f => exact g.admits he
  | inst i => exact ⟨g.admits he.1, he.2.1, fun e v hv => g.grounded (he.2.2 e v hv)⟩
  | _ => trivial

end

end Evolves

lemma Fine.lasts (hl : e.Lasts body e') (hne : e ≠ .reserved) (he : s.Fine h e) : s.Fine h e' := by
  cases hl with
  | reserved => exact absurd rfl hne
  | type t => exact he
  | const c => exact he
  | func hle =>
    change s.Admits _
    rw [hle.signature]
    exact he
  | inst hle => exact ⟨hle.ty.symm ▸ he.1, hle.inst.symm ▸ hle.ty.symm ▸ he.2.1, hle.inst.symm ▸ he.2.2⟩
  | _ => trivial

lemma Moves.of_entry (hentry : ∀ h, s'.entry h = if h = k then e else s.entry h)
    (hlasts : (s.entry k).Lasts (B k) e) (hsize : s.entries.size ≤ s'.entries.size)
    (htypes : ∀ (key : String) (h), s.types[key]? = some h → s'.types[key]? = some h)
    (htable : ∀ (key : TypeKey) (h), s'.types[key.text]? = some h → s.types[key.text]? = some h ∨
      ∃ t, s'.entry h = .type t ∧ s'.Keyed t key)
    (hviolations : s.violations.toList <+: s'.violations.toList) (hk : s.Coherent → k ≠ noHandle)
    (hfine : s.Coherent → Evolves B s s' → s'.Fine k e) : Moves B s s' := by
  have g : Evolves B s s' := by
    refine ⟨hsize, fun x => ?_, htypes, hviolations⟩
    rw [hentry]
    split
    · next hx => rw [hx]; exact hlasts
    · exact .refl _
  refine ⟨g, fun hs => ⟨?_, Nat.lt_of_lt_of_le hs.size_pos hsize, fun x => ?_, fun t x hx => ?_⟩⟩
  · rw [hentry, if_neg (Ne.symm (hk hs)), hs.reserved]
  · rw [hentry]
    split
    · next hx => rw [hx]; exact hfine hs g
    · exact g.fine (hs.entries x)
  · rcases htable t x hx with hx | hx
    -- What the table listed before is the entry of a type, and those last.
    · obtain ⟨u, hu, hk⟩ := hs.types t x hx
      obtain ⟨_, he, hlasts⟩ := g.becomes hu
      cases hlasts
      exact ⟨u, he, hk.mono fun _ _ => g.type?⟩
    · exact hx

lemma Coherent.size_ne (hs : s.Coherent) : s.entries.size ≠ noHandle := Nat.ne_of_gt hs.size_pos

lemma moves_push (e) (hfine : s.Coherent → ∀ s', Evolves B s s' → s'.Fine s.entries.size e) :
    Moves B s (s.push e).2 := by
  refine .of_entry (entry_push s e) ?_ (by simp [push]) (fun _ _ h => h)
    (fun _ _ h => .inl h) List.prefix_rfl Coherent.size_ne fun hs g => hfine hs _ g
  rw [entry_of_size_le (Nat.le_refl _)]
  exact .reserved e

lemma moves_set (hne : s.entry k ≠ .reserved) (hlasts : (s.entry k).Lasts (B k) e) :
    Moves B s { s with entries := s.entries.setIfInBounds k e } := by
  have hlt := lt_size_of_entry_ne hne
  refine .of_entry (fun x => ?_) hlasts (by simp) (fun _ _ h => h) (fun _ _ h => .inl h) List.prefix_rfl
    (fun hs hk => hne (by rw [hk, hs.reserved])) fun hs g => (g.fine (hs.entries k)).lasts hlasts hne
  rw [entry_setIfInBounds]
  simp only [hlt, and_true]

lemma moves_beside (hentries : s'.entries = s.entries) (htypes : s'.types = s.types)
    (hviolations : s.violations.toList <+: s'.violations.toList) : Moves B s s' := by
  have hentry : ∀ h, s'.entry h = s.entry h := fun h => by simp only [entry, hentries]
  have g : Evolves B s s' := ⟨Nat.le_of_eq (by rw [hentries]), fun h => hentry h ▸ .refl _,
    fun t h => by rw [htypes]; exact id, hviolations⟩
  refine ⟨g, fun hs => ⟨by rw [hentry, hs.reserved], hentries ▸ hs.size_pos, fun h => ?_, fun t h ht => ?_⟩⟩
  · rw [hentry]
    exact g.fine (hs.entries h)
  · obtain ⟨u, hu, hk⟩ := hs.types t h (htypes ▸ ht)
    exact ⟨u, (hentry h).trans hu, hk.mono fun _ _ => g.type?⟩

lemma Coherent.violate (hs : s.Coherent) (v) : Coherent { s with violations := s.violations.push v } := by
  have m : Moves (fun _ => False) s { s with violations := s.violations.push v } := moves_beside rfl rfl (by simp)
  exact m.coherent hs

namespace Coherent

lemma admits_of_type? (hs : s.Coherent) (ht : s.type? h = some t) : s.Admits t := by
  have hfine := hs.entries h
  unfold type? at ht
  cases he : s.entry h with
  | type u =>
    rw [he] at ht hfine
    cases ht
    exact hfine.2
  | struct i =>
    rw [he] at ht
    cases ht
    refine ⟨by simp [Ty.Formed], fun k hk => ?_⟩
    cases List.mem_singleton.1 hk
    exact ⟨i, he⟩
  | _ =>
    rw [he] at ht
    cases ht

lemma found (hs : s.Coherent) (h t) (he : s.entry h = .type t) : s.Found t h := by
  have hfine := hs.entries h
  rw [he] at hfine
  exact hfine.1

lemma type?_inj (hs : s.Coherent) (ht : s.type? h = some t) (ht' : s.type? k = some t) : h = k :=
  handle_unique hs.found ht ht'

lemma type?_eq_iff (hs : s.Coherent) (ht : s.type? h = some t) (hu : s.type? k = some u) : h = k ↔ t = u := by
  constructor
  · rintro rfl
    exact Option.mem_unique ht hu
  · rintro rfl
    exact hs.type?_inj ht hu

lemma admits_signature (hs : s.Coherent) (hf : s.func? h = some f) : s.Admits f.signature := by
  have hfine := hs.entries h
  rw [func?_eq_some.1 hf] at hfine
  exact hfine

end Coherent

namespace Admits

lemma int (w) : s.Admits (.int w) := ⟨by simp [Ty.Formed], fun k hk => by simp [Ty.structs] at hk⟩

lemma float (p) : s.Admits (.float p) := ⟨by simp [Ty.Formed], fun k hk => by simp [Ty.structs] at hk⟩

lemma void : s.Admits .void := ⟨by simp [Ty.Formed], fun k hk => by simp [Ty.structs] at hk⟩

lemma label : s.Admits .label := ⟨by simp [Ty.Formed], fun k hk => by simp [Ty.structs] at hk⟩

lemma ptr (ht : s.Admits t) (hvoid : t ≠ .void) (hlabel : t ≠ .label) : s.Admits (.ptr t) :=
  ⟨⟨ht.formed, hvoid, hlabel⟩, ht.holds⟩

lemma bytes : s.Admits .bytes := (int .w8).ptr (by simp) (by simp)

lemma elem (ht : s.Admits (.ptr t)) : s.Admits t := ⟨ht.formed.1, ht.holds⟩

lemma func_iff {v : Bool} : s.Admits (.func r ps v) ↔ s.Admits r ∧ ∀ p ∈ ps, s.Admits p ∧ p ≠ .void := by
  constructor
  · rintro ⟨⟨hr, hps⟩, hh⟩
    refine ⟨⟨hr, fun k hk => hh k (List.mem_append_left _ hk)⟩, fun p hp => ?_⟩
    obtain ⟨hformed, hne⟩ := Ty.formedAll_iff.1 hps p hp
    exact ⟨⟨hformed, fun k hk => hh k (List.mem_append_right _ (Ty.mem_structsAll.2 ⟨p, hp, hk⟩))⟩, hne⟩
  · rintro ⟨hr, hps⟩
    refine ⟨⟨hr.formed, Ty.formedAll_iff.2 fun p hp => ⟨(hps p hp).1.formed, (hps p hp).2⟩⟩, fun k hk => ?_⟩
    rcases List.mem_append.1 hk with hk | hk
    · exact hr.holds k hk
    · obtain ⟨p, hp, hk⟩ := Ty.mem_structsAll.1 hk
      exact (hps p hp).1.holds k hk

end Admits

lemma Coherent.admits_tyOf (hs : s.Coherent) (hv : s.Grounded v) : s.Admits (s.tyOf v) := by
  cases v with
  | const c => exact hv c rfl
  | param f i =>
    simp only [tyOf]
    cases hf : s.func? f with
    | none => exact .void
    | some F =>
      rw [Option.bind_some]
      cases hi : F.params[i]? with
      | none => exact .void
      | some p =>
        have hsignature := hs.admits_signature hf
        rw [FuncInfo.signature, Admits.func_iff] at hsignature
        exact (hsignature.2 p.ty (List.mem_map_of_mem (Array.mem_toList_iff.2 (Array.mem_of_getElem? hi)))).1
  | func h =>
    simp only [tyOf]
    cases hf : s.func? h with
    | none => exact .void
    | some F => exact (hs.admits_signature hf).ptr (by simp [FuncInfo.signature]) (by simp [FuncInfo.signature])
  | inst h =>
    simp only [tyOf]
    cases hi : s.inst? h with
    | none => exact .void
    | some i =>
      have hfine := hs.entries h
      rw [inst?_eq_some.1 hi] at hfine
      exact hfine.1
  | block h => exact .label

lemma Coherent.grounded (hs : s.Coherent) (hv : s.operand? h = some v) : s.Grounded v := by
  rintro c rfl
  have hfine := hs.entries h
  unfold operand? at hv
  cases he : s.entry h with
  | const c' =>
    rw [he] at hv hfine
    cases hv
    exact hfine
  | inst i =>
    rw [he] at hv
    dsimp only at hv
    split at hv <;> cases hv
  | _ =>
    rw [he] at hv
    cases hv

end Store

end Arbor.IR
