import Arbor.Proofs.Position

/-! Variables in memory. Each variable of a call is an object of its own, whose address a slot of the
frame holds; the names in scope lead to slots in the code and to places in the evaluator's store. -/

namespace Arbor.Run

open IR

def Machine.Holds (m : Machine) (id : Nat) (v : Value) : Prop :=
  ∃ o, m.memory.object? id = some o ∧ o.freed = false ∧ o.cells[0]? = some v

structure Machine.Kept (own : List Nat) (m m' : Machine) : Prop where
  objects : ∀ id o, id ∉ own → m.memory.object? id = some o → m'.memory.object? id = some o

namespace Machine

variable {m : Machine} {own : List Nat} {id : Nat} {v : Value}

lemma Kept.refl (own m) : Kept own m m := ⟨fun _ _ _ => id⟩

lemma Kept.trans (h : Kept own m m1) (k : Kept own m1 m') : Kept own m m' :=
  ⟨fun id o hid ho => k.objects id o hid (h.objects id o hid ho)⟩

lemma Kept.mono (h : Kept own m m') (hsub : own ⊆ own') : Kept own' m m' :=
  ⟨fun id o hid ho => h.objects id o (fun hmem => hid (hsub hmem)) ho⟩

lemma Holds.kept (h : m.Holds id v) (k : Kept own m m') (hid : id ∉ own) : m'.Holds id v := by
  obtain ⟨o, ho, hrest⟩ := h
  exact ⟨o, k.objects id o hid ho, hrest⟩

lemma object?_le (h : m.memory.object? id = some o) : id ≤ m.memory.objects.size := by
  unfold Memory.object? at h
  split at h
  · cases h
  · obtain ⟨hlt, -⟩ := Array.getElem?_eq_some_iff.1 h
    omega

lemma alloc_kept (o) : Kept own m { m with memory := { objects := m.memory.objects.push o } } where
  objects id x _ hx := by
    have hle := object?_le hx
    unfold Memory.object? at hx ⊢
    split at hx
    · cases hx
    · rename_i hne
      rw [if_neg hne]
      simp only [Array.getElem?_push]
      rw [if_neg (by omega)]
      exact hx

lemma load_eq (h : m.Holds id v) (t) : Exec.load t (.ptr id 0) m = .ok v m := by
  obtain ⟨o, ho, hfreed, hcell⟩ := h
  simp only [Exec.load, bind, EStateM.bind, Proofs.get_apply, ho, hfreed, hcell]
  rfl

lemma object?_pos (h : m.memory.object? id = some o) : id ≠ 0 := by
  rintro rfl
  cases h

lemma object?_write (hid : id ≠ 0) (ho : m.memory.object? id' = some o) : (m.memory.write id 0 v).object? id' =
      some (if id' = id then { o with cells := o.cells.insert 0 v } else o) := by
  have hid' := object?_pos ho
  unfold Memory.object? at ho ⊢
  rw [if_neg hid'] at ho ⊢
  simp only [Memory.write, Memory.alter, if_neg hid, Array.getElem?_modify, ho]
  by_cases heq : id' = id
  · subst heq
    simp
  · rw [if_neg heq, if_neg (by omega)]

def put (m : Machine) (id : Nat) (v : Value) : Machine := { m with memory := m.memory.write id 0 v }

lemma put_holds (ho : m.memory.object? id = some o) (hfreed : o.freed = false) (v) : (m.put id v).Holds id v := by
  refine ⟨_, object?_write (object?_pos ho) ho, ?_, ?_⟩
  · simpa using hfreed
  · simp

lemma put_kept (ho : m.memory.object? id = some o) (v) : Kept [id] m (m.put id v) where
  objects id' x hid' hx := by
    rw [put, object?_write (object?_pos ho) hx, if_neg (by simpa using hid')]

end Machine

lemma Image.counted_kept (own) (m : Machine) : m.Kept own (counted m) := ⟨fun _ _ _ => id⟩

end Arbor.Run

namespace Arbor.Meaning

open IR Run Run.Image Lower

/-- The variables of a call and the objects that hold them. -/
structure Stored (m : Machine) (objs : List Nat) (vars : List Val) : Prop where
  nodup : objs.Nodup
  holds : List.Forall₂ (fun id x => m.Holds id x.value) objs vars

def Bound (c : Code) (f : Frame) (objs : List Nat) (vars : List Val) (b : Text × Operand × Ty) (p : Text × Nat) : Prop :=
  b.1 = p.1 ∧ ∃ g id x, b.2 = (.inst g, .ptr x.ty) ∧ c.insts g = some (.alloca x.ty, .ptr x.ty) ∧
    f.regs[Operand.inst g]? = some (.ptr id 0) ∧ objs[p.2]? = some id ∧ vars[p.2]? = some x

def Matches (c : Code) (f : Frame) (objs : List Nat) (vars : List Val) (Γ0 Γ : Env) (ρ : Locals) : Prop :=
  ∃ inner, Γ = inner ++ Γ0 ∧ List.Forall₂ (List.Forall₂ (Bound c f objs vars)) inner ρ

inductive Has (c : Code) (f : Frame) : Operand → Val → Prop where
  | const {w : Width} {n : Int64} : Has c f (.const (.int w n)) (.int w n)
  | inst {h : Handle} {i : Inst} {x : Val} (hi : c.insts h = some (i, x.ty)) (hslot : ∀ e, i ≠ .alloca e)
      (hreg : f.regs[Operand.inst h]? = some x.value) : Has c f (.inst h) x

/-- What an expression yields: a value, or the slot of a variable. -/
inductive Denotes (c : Code) (f : Frame) (m : Machine) : Operand → Ty → Val → Prop where
  | value {v : Operand} {x : Val} (hv : Has c f v x) : Denotes c f m v x.ty x
  | slot {g : Handle} {id : Nat} {x : Val} (hslot : c.insts g = some (.alloca x.ty, .ptr x.ty))
      (hreg : f.regs[Operand.inst g]? = some (.ptr id 0)) (hx : m.Holds id x.value) :
      Denotes c f m (.inst g) (.ptr x.ty) x

structure Calm (c : Code) (f f' : Frame) (own : List Nat) (m m' : Machine) : Prop where
  regs : ∀ h x, c.insts h = some x → f'.regs[Operand.inst h]? = f.regs[Operand.inst h]?
  params : ∀ g i, f'.regs[Operand.param g i]? = f.regs[Operand.param g i]?
  memory : m.Kept own m'

section

variable {v : Operand} {x : Val}

lemma Calm.refl (c f own m) : Calm c f f own m m := ⟨fun _ _ _ => rfl, fun _ _ => rfl, .refl own m⟩

lemma Calm.trans (hi : c.Sub c1) (h : Calm c f f1 own m m1)
    (k : Calm c1 f1 f' own m1 m') : Calm c f f' own m m' :=
  ⟨fun g x hg => (k.regs g x (hi g x hg)).trans (h.regs g x hg), fun g i => (k.params g i).trans (h.params g i),
    h.memory.trans k.memory⟩

lemma Calm.mono (h : Calm c f f' own m m') (hsub : own ⊆ own') : Calm c f f' own' m m' :=
  ⟨h.regs, h.params, h.memory.mono hsub⟩

section

variable (h : Has c f v x)

include h

lemma Has.value? : Image.value? f v = some x.value := by
  cases h with
  | const => rfl
  | inst _ _ hreg => exact hreg

lemma Has.tyOf : c.tyOf v = x.ty := by
  cases h with
  | const => rfl
  | inst hi _ _ => simp [Code.tyOf, hi]

lemma Has.valueTy : c.valueTy v = x.ty := by
  cases h with
  | const => rfl
  | inst hi _ _ => simp [Code.valueTy, Code.tyOf, hi]

lemma Has.not_slot : ¬c.IsSlot v := by
  rintro ⟨g, e, t, rfl, hg⟩
  cases h with
  | inst hi hslot _ =>
    cases hi.symm.trans hg
    exact hslot e rfl

lemma Has.mono (hi : c.Sub c') (k : Calm c f f' own m m') : Has c' f' v x := by
  cases h with
  | const => exact .const
  | inst hinst hslot hreg => exact .inst (hi _ _ hinst) hslot ((k.regs _ _ hinst).trans hreg)

lemma Has.final (hfit : c.Fits C) : C.tyOf v = x.ty := by
  cases h with
  | const => rfl
  | inst hi _ _ => simp [Code.tyOf, hfit.insts _ _ hi]

end

lemma Stored.kept (h : Stored m objs vars) (k : m.Kept own m') (hdis : ∀ id ∈ objs, id ∉ own) :
    Stored m' objs vars := by
  refine ⟨h.nodup, ?_⟩
  have := h.holds
  rw [List.forall₂_iff_get] at this ⊢
  exact ⟨this.1, fun i hi hi' => (this.2 i hi hi').kept k (hdis _ (List.get_mem ..))⟩

lemma Bound.mono (h : Bound c f objs vars b p)
    (hi : c.Sub c') (k : Calm c f f' own m m') : Bound c' f' objs vars b p := by
  obtain ⟨hname, g, id, x, hb, hslot, hreg, hid, hx⟩ := h
  exact ⟨hname, g, id, x, hb, hi _ _ hslot, (k.regs _ _ hslot).trans hreg, hid, hx⟩

lemma Matches.mono (h : Matches c f objs vars Γ0 Γ ρ)
    (hi : c.Sub c') (k : Calm c f f' own m m') : Matches c' f' objs vars Γ0 Γ ρ := by
  obtain ⟨inner, rfl, hinner⟩ := h
  exact ⟨inner, rfl, hinner.imp fun _ _ hframe => hframe.imp fun _ _ hb => hb.mono hi k⟩

lemma lookup_of_bound (h : List.Forall₂ (Bound c f objs vars) frame places) (name) :
    (frame.lookup name = none ∧ places.lookup name = none) ∨
      ∃ b p, Bound c f objs vars b p ∧ frame.lookup name = some b.2 ∧ places.lookup name = some p.2 := by
  induction h with
  | nil => exact .inl ⟨rfl, rfl⟩
  | @cons b p frame places hb _ ih =>
    obtain ⟨x, vt⟩ := b
    obtain ⟨y, place⟩ := p
    have hname : x = y := hb.1
    subst hname
    by_cases heq : name = x
    · subst heq
      exact .inr ⟨(name, vt), (name, place), hb, by simp, by simp⟩
    · have hne : (name == x) = false := by simpa using heq
      simpa only [List.lookup, hne] using ih

lemma Matches.find (h : Matches c f objs vars Γ0 Γ ρ) (name) : (ρ.find? name = none ∧ Γ.find? name = Γ0.find? name) ∨
      ∃ b p, Bound c f objs vars b p ∧ Γ.find? name = some b.2 ∧ ρ.find? name = some p.2 := by
  obtain ⟨inner, rfl, hinner⟩ := h
  unfold Env.find? Locals.find?
  induction hinner with
  | nil => exact .inl ⟨rfl, rfl⟩
  | cons hframe _ ih =>
    simp only [List.cons_append, List.findSome?_cons]
    obtain ⟨hnone, hnone'⟩ | ⟨b, p, hb, hsome, hsome'⟩ := lookup_of_bound hframe name.composed
    · rw [hnone, hnone']
      exact ih
    · rw [hsome, hsome']
      exact .inr ⟨b, p, hb, rfl, rfl⟩

end

end Arbor.Meaning
