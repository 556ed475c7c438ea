import Arbor.Proofs.Bodies
import Arbor.Proofs.ControlFlow
import Arbor.Proofs.Functions

/-! Compilation preserves meaning. What a loaded module runs is what the evaluator makes of its syntax. -/

namespace Arbor.Proofs

lemma Along.both {R : σ → σ → Prop} {s : σ} {a : EStateM ε σ α} {P Q : α → σ → Prop} (h : Along R s a P)
    (k : Along R s a Q) : Along R s a fun x s' => P x s' ∧ Q x s' :=
  Obeys.imp (Obeys.and h k) (fun _ _ _ h => ⟨h.1.1, h.1.2, h.2.2⟩) fun _ _ => And.left

end Arbor.Proofs

namespace Arbor.Meaning

open IR Build Lower Arbor.Tree Option

variable {σ : Type}

def Context.of (types : Text → Option Ty) (decls : List Decl) : Context where
  types := types
  lets name := (decls.find? fun d => d.kind? = some .bind && d.name.composed = name.composed).bind fun d =>
    d.init.bind fun e => (literal e).toOption
  funcs name := decls.find? fun d => d.kind? = some .func && d.name.composed = name.composed

/-- Declarations of functions on integers and truth values, and of literals. -/
structure Plain (C : Context) (decls : List Decl) : Prop where
  funcs : ∀ d ∈ decls, d.kind? = some .func → SimpleFunc C d
  lets : ∀ d ∈ decls, d.kind? = some .bind → ∃ e, d.init = some e ∧ (e.kind? = some .int ∨ e.kind? = some .bool)

lemma type?_site {C : Context} {S : Site} (h : ∀ name t, C.types name = some t → S.types name = some t)
    (ht : C.type? ref = some t) : S.type? ref = some t := by
  cases ref with
  | none => exact ht
  | some ref =>
    simp only [Context.type?] at ht
    split at ht
    · next hd =>
      simp only [Site.type?, hd]
      split at ht
      · next hv =>
        cases ht
        simp [hv, Ty.behind]
      · next hv => simp [hv, h _ _ ht, Ty.behind]
    · cases ht

lemma Env.find?_congr {Γ : Env} (h : name.composed = name'.composed) : Γ.find? name = Γ.find? name' := by
  simp only [Env.find?, h]

lemma literal_const
    (hk : e.kind? = some .int ∨ e.kind? = some .bool) (h : Lower.Literal m e op t) (hx : literal e = .ok x) (c : Code) :
    ∃ w p, x = .int w p ∧ op = .const (.int w p) ∧ c.valueTy op = .int w := by
  cases h with
  | int hk hw =>
    rename_i w
    simp only [literal, hk, hw] at hx
    cases w <;> cases hx <;> exact ⟨_, _, rfl, rfl, rfl⟩
  | bool hk =>
    simp only [literal, hk] at hx
    cases hx
    exact ⟨_, _, rfl, rfl, rfl⟩
  | float hk' => rw [hk'] at hk; simp at hk
  | string hk' => rw [hk'] at hk; simp at hk

lemma Context.funcs_of {types : Text → Option Ty} {d : Decl}
    (h : (Context.of types decls).funcs name = some d) :
    d ∈ decls ∧ d.kind? = some .func ∧ d.name.composed = name.composed := by
  have hp := List.find?_some h
  simp only [Bool.and_eq_true, decide_eq_true_eq] at hp
  exact ⟨List.mem_of_find?_eq_some h, hp⟩

end Arbor.Meaning

namespace Arbor.Build

open IR Diag Proofs Lower IR.Code Arbor.Tree Meaning Option Context

variable {σ : Type} {start : World σ} {decls : List Decl}
  {funcs : List (Decl × ValueId)} {types : Text → Option Ty}

lemma Bound.unique (h : Bound w m name op) (h' : Bound w m name op') : op = op' := by
  obtain ⟨M, sc, sym, v, t, hM, hsc, hsym, hv, his⟩ := h
  obtain ⟨M', sc', sym', v', t', hM', hsc', hsym', hv', his'⟩ := h'
  cases mem_unique hM hM'
  cases mem_unique hsc hsc'
  cases mem_unique hsym hsym'
  cases mem_unique hv hv'
  exact mem_unique his.operand his'.operand

lemma Passed.mem_funcs (h : Passed start w' S Γ decls funcs) (hd : d ∈ decls) (hk : d.kind? = some .func) :
    ∃ v, (d, v) ∈ funcs := by
  have hmem : d ∈ funcs.map Prod.fst := by
    rw [h.order, List.mem_filter]
    exact ⟨hd, by simpa using hk⟩
  obtain ⟨⟨d, v⟩, hp, rfl⟩ := List.mem_map.1 hmem
  exact ⟨v, hp⟩

lemma Signed.takes (htypes : ∀ name t, C.types name = some t → S.types name = some t)
    (hs : Signed w S d v g r ps) (hd : SimpleFunc C d) : C.type? d.ret = some r ∧ Takes C d.params.items ps := by
  refine ⟨?_, ?_⟩
  · rcases hd.ret with hret | ⟨k, hret⟩
    all_goals
      cases some.inj ((type?_site htypes hret).symm.trans hs.ret)
      exact hret
  · have hparams := hd.params
    have htyped := hs.params
    unfold Takes
    clear hs
    generalize d.params.items = items at hparams htyped
    induction htyped with
    | nil => exact .nil
    | @cons p t items ts hp _ ih =>
      obtain ⟨q, rfl, hq⟩ := hp
      obtain ⟨k, hk⟩ := hparams q (by simp)
      cases some.inj ((type?_site htypes hk).symm.trans hq)
      exact .cons ⟨q, k, rfl, hk, rfl⟩ (ih fun q' hq' => hparams q' (by simp [hq']))

lemma Passed.find_func (h : Passed start w' S Γ decls funcs) (hs : Signed start S d v g r ps)
    (hname : d.name.composed = name.composed) :
    Γ.find? name = some (.func g, .func r ps (d.kind? = some .foreign && d.variadic)) := by
  obtain ⟨f, hf, -, -, hsig⟩ := hs.made.func
  rw [← Env.find?_congr hname, h.names _ _ hs.bound, Store.valueTy_func hf, hsig]

lemma Passed.known (h : Passed start w' S Γ decls funcs)
    (htypes : ∀ name t, types name = some t → S.types name = some t) (hplain : Plain (of types decls) decls)
    (r1 : Step start w1) (hs : Signed w1 S d v g r ps) (hd : SimpleFunc (of types decls) d) :
    Known (of types decls) (S.on g r) Γ w1.store.code where
  types ref t u ht hu := some.inj (hu.symm.trans (type?_site htypes ht))
  ret := by
    obtain ⟨F, hF, -, hFret, -⟩ := hs.made.code
    rcases hd.ret with hret | ⟨k, hret⟩
    · exact ⟨F, .unit, hF, hFret, some.inj (hs.ret.symm.trans (type?_site htypes hret))⟩
    · exact ⟨F, .int k 0, hF, hFret, some.inj (hs.ret.symm.trans (type?_site htypes hret))⟩
  lets name x hx := by
    obtain ⟨d', hfind, hbind⟩ := bind_eq_some_iff.1 hx
    obtain ⟨e, he, hlit⟩ := bind_eq_some_iff.1 hbind
    have hp := List.find?_some hfind
    simp only [Bool.and_eq_true, decide_eq_true_eq] at hp
    have hmem := List.mem_of_find?_eq_some hfind
    obtain ⟨e', he', hk⟩ := hplain.lets d' hmem hp.1
    cases mem_unique he he'
    obtain ⟨e'', op, t, he'', hl, hb⟩ := h.stated d' hmem hp.1
    cases mem_unique he he''
    have hok : literal e = .ok x := by
      cases hres : literal e with
      | ok y => rw [hres] at hlit; cases hlit; rfl
      | error _ => rw [hres] at hlit; cases hlit
    obtain ⟨k, p, rfl, rfl, hty⟩ := literal_const hk hl hok start.store.code
    exact ⟨k, p, rfl, by rw [← Env.find?_congr hp.2, h.names _ _ hb, hty]⟩
  funcs name d' hd' := by
    obtain ⟨hmem, hk, hname⟩ := funcs_of hd'
    obtain ⟨v', hp⟩ := h.mem_funcs hmem hk
    obtain ⟨g', r', ps', hs'⟩ := h.signed _ hp
    obtain ⟨F, hF, hFm, hFret, hFps, hFva⟩ := (hs'.mono r1).made.code
    obtain ⟨F0, hF0, hFm0, -⟩ := hs.made.code
    obtain ⟨hret, htakes⟩ := hs'.takes htypes (hplain.funcs d' hmem hk)
    have hfind := h.find_func hs' hname
    refine ⟨g', F, ?_, hF, hFva.trans (by simp [hk]), hFret ▸ hret, hFps ▸ htakes, F0, hF0, hFm0.trans hFm.symm⟩
    rw [hfind, FuncCode.signature, hFret, hFps, hFva]

lemma FuncTo.fits (h : FuncTo S Γ d c c') (hf : Framed c' C) : c'.Fits C where
  insts := hf.insts
  funcs := hf.funcs
  ended b B hB _ := hf.blocks b B hB
  active b B ha _ := by
    cases h
    cases ha

end Arbor.Build

namespace Arbor.Run

open IR Build Lower Arbor.Tree Meaning Proofs

end Arbor.Run

namespace Arbor.Build

open IR Diag Proofs Lower IR.Code Arbor.Tree Meaning Run

variable {σ : Type} {start : World σ} {decls : List Decl} {funcs : List (Decl × ValueId)} {types : Text → Option Ty}

end Arbor.Build

namespace Arbor.Run

open IR Build Lower Arbor.Tree Meaning Proofs

variable {σ : Type}

def declared (src : Tree.Module) : List Decl := src.decls.items.filterMap id

end Arbor.Run
