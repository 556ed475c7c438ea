import Mathlib

/-! Actions that may fail, judged by what they do to their state. `Along R s a Q` says that the
action changes the state only along `R`, whether or not it fails, and that a result satisfies
`Q`. -/

namespace Arbor.Proofs

variable {ε σ α β : Type} {R : σ → σ → Prop} {s : σ}
variable {a : EStateM ε σ α} {Q P : α → σ → Prop} {I : σ → Prop}

/-- The action comes to a result of which `Q` holds, or to a failure of which `E` does. -/
def Obeys (s : σ) (a : EStateM ε σ α) (Q : α → σ → Prop) (E : ε → σ → Prop) : Prop :=
  match a s with
  | .ok x s' => Q x s'
  | .error e s' => E e s'

namespace Obeys

lemma imp (h : Obeys s a P E) (hQ : ∀ x s', a s = .ok x s' → P x s' → Q x s') (hE : ∀ e s', E e s' → F e s') :
    Obeys s a Q F := by
  unfold Obeys at h ⊢
  cases hx : a s with
  | ok x s' =>
    rw [hx] at h
    exact hQ x s' hx h
  | error e s' =>
    rw [hx] at h
    exact hE e s' h

lemma mono (h : Obeys s a P E) (hQ : ∀ x s', P x s' → Q x s') : Obeys s a Q E :=
  h.imp (fun x s' _ => hQ x s') fun _ _ => id

lemma weaken (h : Obeys s a Q E) (hE : ∀ e s', E e s' → F e s') : Obeys s a Q F := h.imp (fun _ _ _ => id) hE

lemma of_ok (h : Obeys s a Q E) (hx : a s = .ok x s') : Q x s' := by
  unfold Obeys at h
  rwa [hx] at h

lemma self : Obeys s a (fun x s' => a s = .ok x s') fun e s' => a s = .error e s' := by
  unfold Obeys
  cases a s <;> rfl

lemma any : Obeys s a (fun _ _ => True) fun _ _ => True := self.imp (fun _ _ _ _ => trivial) fun _ _ _ => trivial

lemma pure (h : Q x s) : Obeys s (pure x : EStateM ε σ α) Q E := h

lemma throw (h : E e s) : Obeys s (throw e : EStateM ε σ α) Q E := h

lemma and (h : Obeys s a P E) (k : Obeys s a Q F) :
    Obeys s a (fun x s' => P x s' ∧ Q x s') fun e s' => E e s' ∧ F e s' := by
  unfold Obeys at h k ⊢
  cases hx : a s <;> simp_all only [and_self]

lemma bind {Q : β → σ → Prop} (h : Obeys s a P E) (k : ∀ x s', P x s' → Obeys s' (f x) Q E) :
    Obeys s (a >>= f) Q E := by
  change Obeys s (EStateM.bind a f) Q E
  unfold Obeys EStateM.bind at *
  cases hx : a s with
  | ok x s' =>
    rw [hx] at h
    exact k x s' h
  | error e s' => rwa [hx] at h

lemma tryCatch (h : Obeys s a Q F) (k : ∀ e s', F e s' → Obeys s' (f e) Q E) : Obeys s (tryCatch a f) Q E := by
  change Obeys s (EStateM.tryCatch a f) Q E
  unfold Obeys EStateM.tryCatch at *
  cases hx : a s with
  | ok x s' => rwa [hx] at h
  | error e s' =>
    rw [hx] at h
    exact k e s' h

lemma map {Q : β → σ → Prop} (h : Obeys s a (fun x => Q (f x)) E) : Obeys s (f <$> a) Q E := by
  change Obeys s (EStateM.map f a) Q E
  unfold Obeys EStateM.map at *
  cases hx : a s with
  | ok x s' => rwa [hx] at h
  | error e s' => rwa [hx] at h

lemma ite [Decidable c] (ha : c → Obeys s a Q E) (hb : ¬c → Obeys s b Q E) : Obeys s (if c then a else b) Q E := by
  by_cases h : c
  · rw [if_pos h]
    exact ha h
  · rw [if_neg h]
    exact hb h

end Obeys

def Along (R : σ → σ → Prop) (s : σ) (a : EStateM ε σ α) (Q : α → σ → Prop := fun _ _ => True) : Prop :=
  match a s with
  | .ok x s' => R s s' ∧ Q x s'
  | .error _ s' => R s s'

lemma Obeys.of_along (h : Along R s a Q) : Obeys s a (fun x s' => R s s' ∧ Q x s') fun _ s' => R s s' := h

lemma Obeys.along (h : Obeys s a (fun x s' => R s s' ∧ Q x s') fun _ s' => R s s') : Along R s a Q := h

/-- The state that an action ends in, with a result or with a failure. -/
def endState : EStateM.Result ε σ α → σ
  | .ok _ s => s
  | .error _ s => s

lemma endState_map (f : α → β) : endState ((f <$> a) s) = endState (a s) := by
  change endState (EStateM.map f a s) = _
  unfold EStateM.map
  cases a s <;> rfl

namespace Along

lemma of_ok (h : Along R s a Q) (hx : a s = .ok x s') : R s s' ∧ Q x s' := by
  unfold Along at h
  rwa [hx] at h

lemma mono (h : Along R s a P) (himp : ∀ x s', R s s' → P x s' → Q x s') : Along R s a Q :=
  Obeys.imp h (fun x s' _ h => ⟨h.1, himp x s' h.1 h.2⟩) fun _ _ => id

lemma weaken (h : Along R s a Q) (himp : ∀ s', R s s' → R' s s') : Along R' s a Q :=
  Obeys.imp h (fun _ s' _ h => ⟨himp s' h.1, h.2⟩) fun _ => himp

lemma endState (h : Along R s a Q) : R s (endState (a s)) := by
  unfold Along at h
  cases hx : a s with
  | ok x s' =>
    rw [hx] at h
    exact h.1
  | error e s' => rwa [hx] at h

lemma keep (h : Along R s a Q) (himp : ∀ s', R s s' → R' s s') : Along R' s a fun x s' => R s s' ∧ Q x s' :=
  (h.mono fun _ _ hr hq => ⟨hr, hq⟩).weaken himp

lemma map {Q : β → σ → Prop} (h : Along R s a (fun x s' => Q (f x) s')) : Along R s (f <$> a) Q :=
  Obeys.map h

lemma modifyGet (hr : R s (f s).2) (h : Q (f s).1 (f s).2) : Along R s (modifyGet f : EStateM ε σ α) Q := ⟨hr, h⟩

lemma modify {Q : PUnit → σ → Prop} (hr : R s (f s)) (h : Q ⟨⟩ (f s)) :
    Along R s (modify f : EStateM ε σ PUnit) Q := ⟨hr, h⟩

lemma ite [Decidable c] (ha : c → Along R s a Q) (hb : ¬c → Along R s b Q) :
    Along R s (if c then a else b) Q := Obeys.ite ha hb

variable [IsPreorder σ R]

lemma pure (h : Q x s) : Along R s (pure x : EStateM ε σ α) Q := ⟨refl_of R s, h⟩

lemma throw : Along R s (throw e : EStateM ε σ α) Q := refl_of R s

lemma refuse (h : a s = .error e s) : Along R s a Q := by
  unfold Along
  rw [h]
  exact refl_of R s

lemma bind {Q : β → σ → Prop} (h : Along R s a P) (k : ∀ x s', R s s' → P x s' → Along R s' (f x) Q) :
    Along R s (a >>= f) Q :=
  Obeys.bind h fun x s' h => Obeys.imp (k x s' h.1 h.2) (fun _ _ _ hk => ⟨trans_of R h.1 hk.1, hk.2⟩) fun _ _ =>
    trans_of R h.1

lemma look {P : α → Prop} {Q : β → σ → Prop} (h : Along R s a fun x s' => s' = s ∧ P x)
    (k : ∀ x, P x → Along R s (f x) Q) :
    Along R s (a >>= f) Q :=
  h.bind fun x _ _ hx => hx.1 ▸ k x hx.2

lemma forM (l : List α) (h : ∀ x ∈ l, ∀ s, I s → Along R s (f x) fun _ s' => I s') :
    ∀ s, I s → Along R s (l.forM f) fun _ s' => I s' := by
  induction l with
  | nil => exact fun s hI => .pure hI
  | cons x l ih =>
    intro s hI
    refine .bind (h x (by simp) s hI) fun _ s' _ hI' => ih (fun y hy => h y (by simp [hy])) s' hI'

lemma foldlM (l : List α) (h : ∀ y, ∀ x ∈ l, ∀ s, I s → Along R s (f y x) fun _ s' => I s') :
    ∀ y s, I s → Along R s (l.foldlM f y) fun _ s' => I s' := by
  induction l with
  | nil => exact fun _ s hI => .pure hI
  | cons x l ih =>
    intro y s hI
    exact .bind (h y x (by simp) s hI) fun z s' _ hI' => ih (fun y' x' hx' => h y' x' (by simp [hx'])) z s' hI'

lemma mapM {P : β → σ → Prop} (hP : ∀ y s s', R s s' → P y s → P y s') (l : List α)
    (h : ∀ x ∈ l, ∀ s, I s → Along R s (f x) fun y s' => I s' ∧ P y s') :
    ∀ s, I s → Along R s (l.mapM f) fun ys s' => I s' ∧ ∀ y ∈ ys, P y s' := by
  induction l with
  | nil => exact fun s hI => .pure ⟨hI, by simp⟩
  | cons x l ih =>
    intro s hI
    rw [List.mapM_cons]
    refine .bind (h x (by simp) s hI) fun y s1 _ hy => ?_
    refine .bind (ih (fun x' hx' => h x' (by simp [hx'])) s1 hy.1) fun ys s2 r2 hys => .pure ⟨hys.1, ?_⟩
    intro z hz
    rcases List.mem_cons.1 hz with rfl | hz
    · exact hP z s1 s2 r2 hy.2
    · exact hys.2 z hz

end Along

lemma along_get_bind {Q : β → σ → Prop} : Along R s (get >>= f) Q ↔ Along R s (f s) Q := Iff.rfl

lemma get_apply (s : σ) : (get : EStateM ε σ σ) s = .ok s s := rfl

lemma modify_apply (f : σ → σ) (s : σ) : (modify f : EStateM ε σ PUnit) s = .ok ⟨⟩ (f s) := rfl

lemma modifyGet_apply (f : σ → α × σ) (s : σ) : (modifyGet f : EStateM ε σ α) s = .ok (f s).1 (f s).2 := rfl

lemma tryCatch_apply (a : EStateM ε σ α) (f : ε → EStateM ε σ α) (s : σ) :
    tryCatch a f s = match a s with | .ok x s' => .ok x s' | .error e s' => f e s' := by
  change EStateM.tryCatch a f s = _
  unfold EStateM.tryCatch
  cases a s <;> rfl

lemma throw_apply (e : ε) (s : σ) : (throw e : EStateM ε σ α) s = .error e s := rfl

lemma get_bind_apply (f : σ → EStateM ε σ β) (s : σ) : (get >>= f : EStateM ε σ β) s = f s s := rfl

lemma bind_of_ok {f : α → EStateM ε σ β} (h : a s = .ok x s') : (a >>= f) s = f x s' := by
  change EStateM.bind a f s = _
  rw [EStateM.bind, h]

lemma along_modify_bind {Q : β → σ → Prop} :
    Along R s (modify f >>= k) Q ↔ Along (fun _ s' => R s s') (f s) (k ⟨⟩) Q := Iff.rfl

/-! ### Properties that pass from the parts of an action to the whole -/

class Composes (P : {α : Type} → EStateM ε σ α → Prop) : Prop where
  pure {α : Type} (x : α) : P (pure x : EStateM ε σ α)
  bind {α β : Type} {a : EStateM ε σ α} {f : α → EStateM ε σ β} : P a → (∀ x, P (f x)) → P (a >>= f)

class Has (P : {α : Type} → EStateM ε σ α → Prop) (a : EStateM ε σ α) : Prop where
  out : P a

namespace Has

variable {P : {α : Type} → EStateM ε σ α → Prop} {b : EStateM ε σ α} {f : α → EStateM ε σ β}

instance {c : Prop} [Decidable c] [Has P a] [Has P b] : Has P (if c then a else b) := by split <;> infer_instance

lemma of_ite {c : Prop} [Decidable c] [Has P a] (h : Has P b) : Has P (if c then a else b) := inferInstance

variable [Composes P]

instance (x : α) : Has P (pure x) := ⟨Composes.pure x⟩

instance bind [ha : Has P a] [hf : ∀ x, Has P (f x)] : Has P (a >>= f) :=
  ⟨Composes.bind ha.out fun x => (hf x).out⟩

lemma of_bind [Has P a] (h : ∀ x, Has P (f x)) : Has P (a >>= f) := bind

end Has

end Arbor.Proofs
