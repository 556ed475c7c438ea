import Arbor.Proofs.ControlFlow

/-! The types that modules record for values. A value that is neither a phi nor the result of a call is
recorded with the type that the store has for it. A phi is recorded with the type it was asked for, which
is the one the store has unless the first value that it merges is a function: the store then has the
pointer to it. -/

namespace Arbor.IR.Emit

open Proofs

variable {α β : Type}

def Total (a : Emit α) : Prop := ∀ s, ∃ x s', a s = .ok x s'

class Covers (P : {α : Type} → Emit α → Prop) : Prop extends Composes P where
  get : Has P get
  intern (key : TypeKey) (t : Ty) : Has P (internKey key t)

attribute [instance] Covers.get Covers.intern

variable {P : {α : Type} → Emit α → Prop} [Covers P]

mutual

theorem internType_has : ∀ t : Ty, Has P (internType t)
  | .ptr e | .array _ e => by
    have := internType_has e
    unfold internType
    infer_instance
  | .func r ps v => by
    have := internType_has r
    have := internTypes_has ps
    unfold internType
    infer_instance
  | .struct _ | .void | .label | .int _ | .float _ => by
    unfold internType
    infer_instance

theorem internTypes_has : ∀ ts : List Ty, Has P (internTypes ts)
  | [] => by
    unfold internTypes
    infer_instance
  | t :: ts => by
    have := internType_has t
    have := internTypes_has ts
    unfold internTypes
    infer_instance

end

instance (t : Ty) : Has P (internType t) := internType_has t

instance (value) : Has P (valueType value) := .of_bind fun s => by
  split
  · infer_instance
  · exact .of_bind fun s => by split <;> infer_instance
  · infer_instance

instance : Covers Total where
  pure x s := ⟨x, s, rfl⟩
  bind {_ _ a f} ha hf s := by
    obtain ⟨x, s1, hx⟩ := ha s
    obtain ⟨y, s2, hy⟩ := hf x s1
    refine ⟨y, s2, ?_⟩
    change EStateM.bind a f s = _
    rw [EStateM.bind, hx]
    exact hy
  get := ⟨fun s => ⟨s, s, rfl⟩⟩
  intern key t := ⟨fun s => by
    unfold internKey
    rw [get_bind_apply]
    cases s.types[key.text]? <;> exact ⟨_, _, rfl⟩⟩

end Arbor.IR.Emit

namespace Arbor.Build

open IR Proofs

variable {σ : Type}

lemma Good.valueType (hg : Good w) {m v : Handle} {T : TypeId}
    (hM : w.modules[m]? = some M) (hv : M.values[v]? = some (some T)) (hop : w.store.operand? v = some op)
    (hset : Settled w.store op) : ∃ s, Emit.valueType v w.store = .ok T.handle s := by
  obtain ⟨h, s, hs⟩ := (Has.out : Emit.Total (Emit.valueType v)) w.store
  obtain ⟨op', hop', htype⟩ := (hg.sound m M hM).values v (some T) hv
  obtain rfl : op' = op := Option.mem_unique hop' hop
  obtain ⟨t, ht, hty⟩ := htype T rfl
  obtain ⟨quiet, hh⟩ := (Emit.valueType_along hg.store v).of_ok hs
  have hsame : s.type? h = some t := by rw [hh op' hop, hty hset]
  have heq := (quiet.wf hg.store).type?_inj hsame (quiet.toMono.type? ht)
  exact ⟨s, by rw [hs, heq]⟩

lemma phi_recorded (hg : Good w) (hm : Live w m) {T : TypeId}
    (hT : w.store.type? T.handle = some t) {b1 b2 : BlockId}
    (h1 : Is w v1 op1 t1) (h2 : Is w v2 op2 t2) (h : Act.phi m T [(v1, b1), (v2, b2)] w = .ok x w') :
    ∃ i, Is w' x (.inst i) t ∧ ((∀ f, op1 ≠ .func f) → w'.store.code.valueTy (.inst i) = t) ∧
      ∀ f, op1 = .func f → w'.store.code.valueTy (.inst i) = .ptr t := by
  obtain ⟨-, i, hty, -, hemits, his⟩ := (Act.phi_along hg hm hT b1 b2 h1 h2).of_ok h
  have hphi : w'.store.code.valueTy (.inst i) = w.store.code.tyOf op1 := hemits.tyOf_self
  refine ⟨i, his, fun hne => ?_, fun f hf => ?_⟩
  · rw [hphi, ← hty, Store.valueTy_eq_tyOf hne, Store.tyOf_eq_code]
  · subst hf
    obtain ⟨M, x, -, -, -, hop⟩ := h1
    obtain ⟨rfl, F, hF⟩ := Store.operand?_func hop
    rw [Store.valueTy_func hF] at hty
    rw [hphi, ← Store.tyOf_eq_code, ← hty, Store.tyOf, hF]
    rfl

/-- Values carry the type of the store. In every world that loading leads to, asking the store for the type of a
value yields the type that the module recorded, if the value is neither a phi nor the result of a call. A phi that
a module makes is recorded with the type asked for; that is the store's as well, except where the first value that
it merges is a function: there the store has the pointer to the recorded type. -/
theorem recorded_types (σ : Type) :
    (∀ (w : { w : World σ // Reachable w }) (m v : Handle) (M : Module) (T : TypeId) (op : Operand),
      w.1.modules[m]? = some M → M.values[v]? = some (some T) → w.1.store.operand? v = some op →
      Settled w.1.store op → ∃ s, Emit.valueType v w.1.store = .ok T.handle s) ∧
    ∀ (w : { w : World σ // Good w }) (m : Handle) (T : TypeId) (t t₁ t₂ : Ty) (v₁ v₂ x : ValueId)
      (op₁ op₂ : Operand) (b₁ b₂ : BlockId) (w' : World σ), Live w.1 m → w.1.store.type? T.handle = some t →
      Is w.1 v₁ op₁ t₁ → Is w.1 v₂ op₂ t₂ → Act.phi m T [(v₁, b₁), (v₂, b₂)] w.1 = .ok x w' →
      ∃ i, Is w' x (.inst i) t ∧ ((∀ f, op₁ ≠ .func f) → w'.store.code.valueTy (.inst i) = t) ∧
        ∀ f, op₁ = .func f → w'.store.code.valueTy (.inst i) = .ptr t := by
  refine ⟨fun w m v M T op hM hv hop hset => w.2.good.valueType hM hv hop hset, ?_⟩
  intro w m T t t₁ t₂ v₁ v₂ x op₁ op₂ b₁ b₂ w' hm hT h₁ h₂ h
  exact phi_recorded w.2 hm hT h₁ h₂ h

end Arbor.Build
