import Arbor.Proofs.Loading

/-! The bodies of a module. All of them are lowered in one environment, each into a function that has no
blocks yet, and what one body becomes is there when the others are done. -/

def Arbor.Lower.Site.on (S : Lower.Site) (func : IR.Handle) (ret : IR.Ty) : Lower.Site := { S with func, ret }

namespace Arbor.Build

open IR Diag Proofs Lower IR.Code Arbor.Tree

variable {σ : Type}
variable {funcs : List (Decl × ValueId)}

lemma Made.code
    (h : Made w m name v g r ps va) : ∃ F, w.store.code.funcs g = some F ∧ F.module = m ∧ F.ret = r ∧ F.params = ps ∧
      F.variadic = va := by
  obtain ⟨f, hf, hm, -, hsig⟩ := h.func
  injection hsig with hret hparams hvariadic
  exact ⟨f.code, Store.func?_code hf, hm, hret, hparams, hvariadic⟩

lemma Top.on (h : Top w S Γ) (func ret) : Top w (S.on func ret) Γ := by
  obtain ⟨M, l, imp, hout⟩ := h
  exact ⟨M, l, imp, hout.module, hout.chain, hout.imports, hout.frames, hout.types, hout.loop⟩

lemma Top.silent (h : Top w S Γ) (r : Silent w w') : Top w' S Γ := by
  obtain ⟨M, l, imp, hout⟩ := h
  obtain ⟨M', hM', hs, hc, hl⟩ := r.still _ M hout.module
  refine ⟨M', l, imp, hM', hs ▸ hc ▸ hout.chain, hs ▸ hout.imports, hout.frames.imp fun _ _ => FrameIs.mono r.toStep,
    fun name T hT => ?_, hl.trans hout.loop⟩
  unfold typeNamed at hT
  rw [hs, hc] at hT
  obtain ⟨t, ht, hp, hS⟩ := hout.types name T hT
  exact ⟨t, r.store.type? ht, hp, hS⟩

def Lowered (w w' : World σ) (S : Site) (Γ : Env) (p : Decl × ValueId) : Prop :=
  ∃ g r ps F w1 c', Step w w1 ∧ Signed w1 S p.1 p.2 g r ps ∧ w1.store.code.funcs g = some F ∧ F.blocks = [] ∧
    FuncTo (S.on g r) Γ p.1 w1.store.code c' ∧ Framed c' w'.store.code

lemma Lowered.before (r : Step w w1) (h : Lowered w1 w' S Γ p) : Lowered w w' S Γ p := by
  obtain ⟨g, ret, ps, F, w2, c', r2, hrest⟩ := h
  exact ⟨g, ret, ps, F, w2, c', trans_of Step r r2, hrest⟩

lemma Lowered.after (h : Lowered w w1 S Γ p) (hf : Framed w1.store.code w'.store.code) : Lowered w w' S Γ p := by
  obtain ⟨g, ret, ps, F, w2, c', r2, hs, hF, hempty, hto, hframed⟩ := h
  exact ⟨g, ret, ps, F, w2, c', r2, hs, hF, hempty, hto, hframed.trans hf⟩

def Bodied (w w' : World σ) (S : Site) (funcs : List (Decl × ValueId)) : Prop :=
  ∀ g F, w'.store.code.funcs g = some F → F.blocks ≠ [] →
    w.store.code.funcs g = some F ∨ ∃ p ∈ funcs, ∃ r ps, Signed w' S p.1 p.2 g r ps

structure Finishes (w w' : World σ) (S : Site) (Γ : Env) (funcs : List (Decl × ValueId)) : Prop where
  top : Top w' S Γ
  framed : Framed w.store.code w'.store.code
  lowered : ∀ p ∈ funcs, Lowered w w' S Γ p
  bodied : Bodied w w' S funcs

lemma Finishes.silent (h : Finishes w w1 S Γ funcs) (r : Silent w1 w') : Finishes w w' S Γ funcs := by
  have hframed : Framed w1.store.code w'.store.code := r.code.symm ▸ .refl _
  refine ⟨h.top.silent r, h.framed.trans hframed, fun p hp => (h.lowered p hp).after hframed, fun g F hF hne => ?_⟩
  rw [r.code] at hF
  rcases h.bodied g F hF hne with hold | ⟨p, hp, ret, ps, hs⟩
  · exact .inl hold
  · exact .inr ⟨p, hp, ret, ps, hs.mono r.toStep⟩

/-! ### All passes -/

/-- What the passes over a module leave behind. The bodies were lowered from the world `start`, in the
environment `Γ`, with the types of `S`. -/
structure Passed (start w' : World σ) (S : Site) (Γ : Env) (decls : List Decl) (funcs : List (Decl × ValueId)) : Prop where
  good : Good start
  step : Step start w'
  live : Live w' S.module
  types : ∀ M, w'.modules[S.module]? = some M → ∀ name T, typeNamed M name = some T →
    ∃ t, w'.store.type? T.handle = some t ∧ S.types name = some t
  names : ∀ name op, Bound start S.module name op → Γ.find? name = some (op, start.store.code.valueTy op)
  order : funcs.map Prod.fst = decls.filter fun d => d.kind? = some .func
  signed : ∀ p ∈ funcs, ∃ g r ps, Signed start S p.1 p.2 g r ps
  distinct : funcs.Pairwise fun p q => p.1.name.composed ≠ q.1.name.composed
  stated : ∀ d ∈ decls, d.kind? = some .bind → Stated start S.module d
  lowered : ∀ p ∈ funcs, Lowered start w' S Γ p
  bodied : ∀ g F, w'.store.code.funcs g = some F → F.module = S.module → F.blocks ≠ [] →
    ∃ p ∈ funcs, ∃ r ps, Signed w' S p.1 p.2 g r ps

lemma Passed.silent (h : Passed start w S Γ decls funcs) (r : Silent w w') : Passed start w' S Γ decls funcs where
  good := h.good
  step := trans_of Step h.step r.toStep
  types M hM name T hT := by
    obtain ⟨K, hK⟩ := h.live
    obtain ⟨M', hM', heq⟩ := r.kept K hK
    cases Option.mem_unique hM hM'
    obtain ⟨t, ht, hS⟩ := h.types K hK name T (heq ▸ hT)
    exact ⟨t, r.store.type? ht, hS⟩
  live := h.live.mono r.toStep
  names := h.names
  order := h.order
  signed := h.signed
  distinct := h.distinct
  stated := h.stated
  lowered p hp := (h.lowered p hp).after r.outer.framed
  bodied g F hF hm hne := by
    rw [r.code] at hF
    obtain ⟨p, hp, ret, ps, hs⟩ := h.bodied g F hF hm hne
    exact ⟨p, hp, ret, ps, hs.mono r.toStep⟩

end Arbor.Build
