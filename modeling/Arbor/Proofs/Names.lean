import Arbor.Proofs.Derivation

/-! The names in scope. A module looks a name up from the current scope outwards and then among its
imports; `Scoped` says that what it finds is what an environment holds. -/

namespace Arbor.Build

open IR Diag Proofs Lower List Option Nat

variable {Γ : Env} {m : Handle} {ls : List Level} {M : Module} {L : Option (Handle × Handle)} {sc : Scope}
  {id : ScopeId} {S : Site} {fn : ValueId}
variable {frame : List (Text × Operand × Ty)}
variable {imports : Scope} {name : Text}

/-- What lookup sees of a scope. -/
structure Level where
  id : ScopeId
  func : Option ValueId
  types : Array Symbol
  values : Array Symbol

namespace Scope

def level (sc : Scope) (id : ScopeId) : Level := ⟨id, sc.func, sc.types.order, sc.values.order⟩

end Scope

inductive Chain (S : Scopes) : ScopeId → List Level → Prop where
  | nil : Chain S 0 []
  | cons {id : ScopeId} {sc : Scope} {ls : List Level} (hsc : S.get? id = some sc) (hlt : sc.parent < id)
      (hrest : Chain S sc.parent ls) : Chain S id (sc.level id :: ls)

namespace Chain

variable {S S' : Scopes} {ls : List Level}

lemma uncons (h : Chain S id ls) (hls : ls ≠ []) : ∃ sc ls', S.get? id = some sc ∧ sc.parent < id ∧
    ls = sc.level id :: ls' ∧ Chain S sc.parent ls' := by
  cases h with
  | nil => exact absurd rfl hls
  | cons hsc hlt hrest => exact ⟨_, _, hsc, hlt, rfl, hrest⟩

lemma congr (h : Chain S id ls) (hs : ∀ k sc, k ≤ id → S.get? k = some sc →
      ∃ sc', S'.get? k = some sc' ∧ sc'.parent = sc.parent ∧ sc'.level k = sc.level k) : Chain S' id ls := by
  induction h with
  | nil => exact .nil
  | @cons id sc ls hsc hlt _ ih =>
    obtain ⟨sc', hsc', hp, hl⟩ := hs id sc (le_refl _) hsc
    rw [← hl]
    have hrest := ih fun k sck hk hg => hs k sck (le_trans hk (le_of_lt hlt)) hg
    exact .cons hsc' (hp ▸ hlt) (hp ▸ hrest)

lemma search_eq (hprobe : ∀ sc k, probe sc = find (sc.level k)) (h : Chain S id ls) :
    S.search id true probe = ls.findSome? find := by
  induction h with
  | nil =>
    rw [Scopes.search]
    rfl
  | @cons id sc ls hsc hlt _ ih =>
    rw [Scopes.search, hsc, List.findSome?_cons, ← hprobe sc id]
    cases hp : probe sc with
    | some sym => simp only [hp]
    | none =>
      simp only [hp]
      exact ih

end Chain

namespace Level

def typeOf? (l : Level) (name : Text) : Option Symbol := l.types.find? fun sym => sym.name = name

end Level

variable {σ : Type}

def FrameIs (w : World σ) (values : Array Symbol) (frame : List (Text × Operand × Ty)) : Prop :=
  List.Forall₂ (fun (sym : Symbol) p => sym.name = p.1 ∧ ∃ v, sym.value = some v ∧ Is w v p.2.1 p.2.2)
    values.toList frame

def typeNamed (M : Module) (name : Text) : Option TypeId :=
  (M.scopes.lookupType M.current name true <|> M.scopes.lookupType importScope name false).bind Symbol.type

def Named (w : World σ) (S : Site) : Prop := ∃ M, w.modules[S.module]? = some M ∧ ∀ name T, typeNamed M name = some T →
    ∃ t, w.store.type? T.handle = some t ∧ t.Plain ∧ S.types name = some t

/-- A module builds a function: the names in scope are those of `Γ`, the scopes inside the outermost
belong to the function and bind no types, and loops end where `L` says. -/
structure Inside (w : World σ) (S : Site) (Γ : Env) (L : Option (Handle × Handle)) (M : Module) (fn : ValueId)
    (ls : List Level) (imp : Scope) : Prop where
  module : w.modules[S.module]? = some M
  chain : Chain M.scopes M.current ls
  imports : M.scopes.get? importScope = some imp
  frames : List.Forall₂ (FrameIs w) (ls.map Level.values ++ [imp.values.order]) Γ
  long : 2 ≤ ls.length
  levels : ∀ l ∈ ls.dropLast, l.func = some fn ∧ l.types = #[] ∧ exportScope < l.id
  func : ∃ ps va, Is w fn (.func S.func) (.func S.ret ps va)
  types : ∀ name T, typeNamed M name = some T → ∃ t, w.store.type? T.handle = some t ∧ t.Plain ∧ S.types name = some t
  loop : M.loop.map (fun l => (l.leave.handle, l.next.handle)) = L

def Scoped (w : World σ) (S : Site) (Γ : Env) (L : Option (Handle × Handle)) : Prop :=
  ∃ M fn ls imports, Inside w S Γ L M fn ls imports

structure Outside (w : World σ) (S : Site) (Γ : Env) (M : Module) (l : Level) (imp : Scope) : Prop where
  module : w.modules[S.module]? = some M
  chain : Chain M.scopes M.current [l]
  imports : M.scopes.get? importScope = some imp
  frames : List.Forall₂ (FrameIs w) [l.values, imp.values.order] Γ
  types : ∀ name T, typeNamed M name = some T → ∃ t, w.store.type? T.handle = some t ∧ t.Plain ∧ S.types name = some t
  loop : M.loop = none

def Top (w : World σ) (S : Site) (Γ : Env) : Prop := ∃ M l imp, Outside w S Γ M l imp

lemma FrameIs.mono (r : Step w w') (h : FrameIs w values frame) : FrameIs w' values frame :=
  Forall₂.imp (fun _ _ ⟨hn, v, hv, his⟩ => ⟨hn, v, hv, his.mono r⟩) h

lemma Scoped.live (h : Scoped w S Γ L) : Live w S.module := by
  obtain ⟨M, fn, ls, imports, hin⟩ := h
  exact ⟨M, hin.module⟩

lemma Scoped.named (h : Scoped w S Γ L) : Named w S := by
  obtain ⟨M, fn, ls, imports, hin⟩ := h
  exact ⟨M, hin.module, hin.types⟩

lemma Scoped.length_le (h : Scoped w S Γ L) : 3 ≤ Γ.length := by
  obtain ⟨M, fn, ls, imports, hin⟩ := h
  have hlen := hin.frames.length_eq
  rw [length_append, length_map, length_singleton] at hlen
  have := hin.long
  omega

lemma Inside.func_mono (h : Inside w S Γ L M fn ls imports) (r : Step w w') :
    ∃ ps va, Is w' fn (.func S.func) (.func S.ret ps va) := by
  obtain ⟨ps, va, hfn⟩ := h.func
  exact ⟨ps, va, hfn.mono r⟩

lemma Inside.mono (r : Step w w') (h : Inside w S Γ L M fn ls imports) (hM : w'.modules[S.module]? = some M')
    (hs : M'.scopes = M.scopes) (hc : M'.current = M.current) (hl : M'.loop = M.loop) : Inside w' S Γ L M' fn ls imports where
  module := hM
  chain := by rw [hs, hc]; exact h.chain
  imports := by rw [hs]; exact h.imports
  frames := h.frames.imp fun _ _ => FrameIs.mono r
  long := h.long
  levels := h.levels
  func := h.func_mono r
  types name T hT := by
    unfold typeNamed at hT
    rw [hs, hc] at hT
    obtain ⟨t, ht, hp, hty⟩ := h.types name T hT
    exact ⟨t, r.store.type? ht, hp, hty⟩
  loop := by rw [hl]; exact h.loop

lemma Scoped.mono (r : Steady w w') (h : Scoped w S Γ L) : Scoped w' S Γ L := by
  obtain ⟨M, fn, ls, imports, hin⟩ := h
  obtain ⟨M', hM', hs, hc, hl⟩ := r.still _ M hin.module
  exact ⟨M', fn, ls, imports, hin.mono r.toStep hM' hs hc hl⟩

lemma frame_find (name)
    (h : Forall₂ (fun (sym : Symbol) p => sym.name = p.1 ∧ ∃ v, sym.value = some v ∧ Is w v p.2.1 p.2.2)
      syms frame) : match syms.find? fun sym => sym.name = name with
    | none => frame.lookup name = none
    | some sym => ∃ v op t, sym.value = some v ∧ Is w v op t ∧ frame.lookup name = some (op, t) := by
  induction h with
  | nil => rfl
  | @cons sym p syms frame hp _ ih =>
    obtain ⟨n, op, t⟩ := p
    obtain ⟨hn, v, hv, his⟩ := hp
    by_cases hname : sym.name = name
    · simp only [List.find?_cons_of_pos, hname, decide_true]
      refine ⟨v, op, t, hv, his, ?_⟩
      rw [← hname, hn, lookup_cons_self]
    · simp only [List.find?_cons, hname]
      have hlook : ((n, op, t) :: frame).lookup name = frame.lookup name := by
        rw [lookup_cons]
        have hne : (name == n) = false := by
          rw [beq_eq_false_iff_ne]
          rintro rfl
          exact hname hn
        rw [hne]
      rw [hlook]
      exact ih

lemma frames_find (name) (h : Forall₂ (FrameIs w) vals Γ) :
    match vals.findSome? fun (values) => values.find? fun sym => sym.name = name.composed with
    | none => Γ.find? name = none
    | some sym => ∃ v op t, sym.value = some v ∧ Is w v op t ∧ Γ.find? name = some (op, t) := by
  induction h with
  | nil => rfl
  | @cons values frame vals Γ hf _ ih =>
    have hfind := frame_find name.composed hf
    rw [List.findSome?_cons, ← Array.find?_toList]
    cases hx : values.toList.find? fun sym => sym.name = name.composed with
    | some sym =>
      rw [hx] at hfind
      obtain ⟨v, op, t, hv, his, hl⟩ := hfind
      refine ⟨v, op, t, hv, his, ?_⟩
      simp only [Env.find?, List.findSome?_cons, hl]
    | none =>
      rw [hx] at hfind
      have hΓ : Env.find? (frame :: Γ) name = Env.find? Γ name := by
        simp only [Env.find?, List.findSome?_cons, hfind]
      rw [hΓ]
      exact ih

lemma Inside.current_lt (hg : Good w) (h : Inside w S Γ L M fn ls imports) :
    M.current < M.scopes.data.size := (hg.current _ M h.module).2

lemma Inside.uncons (h : Inside w S Γ L M fn ls imports) :
    ∃ sc l ls', M.scopes.get? M.current = some sc ∧ sc.parent < M.current ∧
      ls = sc.level M.current :: l :: ls' ∧ Chain M.scopes sc.parent (l :: ls') ∧ sc.func = some fn ∧
      sc.types.order = #[] ∧ exportScope < M.current := by
  have hlong := h.long
  obtain ⟨sc, ls', hsc, hlt, rfl, hrest⟩ := h.chain.uncons (by rintro rfl; simp at hlong)
  cases ls' with
  | nil => simp at hlong
  | cons l ls' =>
    obtain ⟨hf, ht, hid⟩ := h.levels (sc.level M.current) (by simp)
    exact ⟨sc, l, ls', hsc, hlt, rfl, hrest, hf, ht, hid⟩

lemma Inside.lookup (h : Inside w S Γ L M fn ls imports) (name) :
    match M.scopes.lookupValue M.current name true <|> M.scopes.lookupValue importScope name false with
    | none => Γ.find? name = none
    | some sym => ∃ v op t, sym.value = some v ∧ Is w v op t ∧ Γ.find? name = some (op, t) := by
  have hfind := frames_find name h.frames
  have houter : M.scopes.lookupValue M.current name true =
      ls.findSome? fun l => l.values.find? fun sym => sym.name = name.composed :=
    h.chain.search_eq fun sc _ => sc.values.agree _
  have himports : M.scopes.lookupValue importScope name false =
      imports.values.order.find? fun sym => sym.name = name.composed := by
    rw [Scopes.lookupValue, Scopes.search, h.imports]
    simp only [SymbolTable.get?_eq]
    cases imports.values.order.find? _ <;> rfl
  have hone : ∀ f : Array Symbol → Option Symbol, [imports.values.order].findSome? f = f imports.values.order := by
    intro f
    rw [List.findSome?_cons]
    cases f imports.values.order <;> rfl
  rw [List.findSome?_append, List.findSome?_map, hone] at hfind
  have heq : (M.scopes.lookupValue M.current name true <|> M.scopes.lookupValue importScope name false) =
      ((ls.findSome? fun l => l.values.find? fun sym => sym.name = name.composed).or
        (imports.values.order.find? fun sym => sym.name = name.composed)) := by
    rw [houter, himports]
    cases ls.findSome? _ <;> rfl
  rw [heq]
  exact hfind

namespace Scopes

variable {S : Scopes} {w : World σ}

lemma get?_eq_some : S.get? k = some sc ↔ k ≠ 0 ∧ S.data[k]? = some sc := by
  unfold get?
  split <;> simp_all

lemma get?_lt (h : S.get? k = some sc) : k < S.data.size := (Array.getElem?_eq_some_iff.1 (get?_eq_some.1 h).2).1

lemma get?_set (hid : id ≠ 0) (hlt : id < S.data.size) :
    ({ data := S.data.setIfInBounds id sc } : Scopes).get? k = if k = id then some sc else S.get? k := by
  unfold get?
  by_cases hk : k = id
  · subst hk
    simp [hid, hlt]
  · simp [hk, Ne.symm hk]

lemma le_set (hsc : S.get? id = some sc) (ht : sc.types.order.toList <+: sc'.types.order.toList)
    (hv : sc.values.order.toList <+: sc'.values.order.toList) : S.Le { data := S.data.setIfInBounds id sc' } := by
  intro k sck hk
  rw [get?_set (get?_eq_some.1 hsc).1 (get?_lt hsc)]
  split
  · next h =>
    subst h
    cases mem_unique hsc hk
    exact ⟨sc', rfl, ht, hv⟩
  · exact ⟨sck, hk, prefix_rfl, prefix_rfl⟩

lemma Sound.set (h : S.Sound w) (hsc : S.get? id = some sc) (hparent : sc'.parent = sc.parent)
    (hvalues : ∀ sym ∈ sc'.values.order, sym ∈ sc.values.order ∨ ∃ v op t, sym.value = some v ∧ Is w v op t ∧
      (id ≤ exportScope → IsFixed op))
    (htypes : ∀ sym ∈ sc'.types.order, sym ∈ sc.types.order ∨ id ≤ exportScope ∧ ∀ T, sym.type = some T →
      ∃ t, w.store.type? T.handle = some t ∧ t.Plain) :
    ({ data := S.data.setIfInBounds id sc' } : Scopes).Sound w := by
  have hget : ∀ k sck, ({ data := S.data.setIfInBounds id sc' } : Scopes).get? k = some sck →
      (k = id ∧ sck = sc') ∨ S.get? k = some sck := by
    intro k sck hk
    rw [get?_set (get?_eq_some.1 hsc).1 (get?_lt hsc)] at hk
    split at hk
    · next h => exact .inl ⟨h, (Option.some.inj hk).symm⟩
    · exact .inr hk
  refine ⟨by simpa using h.size, fun k sck hk => ?_, fun k sck hk => ?_, fun k sck hk sym hsym => ?_,
    fun k sck hk sym hsym => ?_⟩
  all_goals obtain ⟨rfl, rfl⟩ | hk' := hget k sck hk
  · exact hparent ▸ h.parent k sc hsc
  · exact h.parent k sck hk'
  · exact hparent ▸ h.root k sc hsc
  · exact h.root k sck hk'
  · rcases hvalues sym hsym with hold | hnew
    · exact h.values k sc hsc sym hold
    · exact hnew
  · exact h.values k sck hk' sym hsym
  · rcases htypes sym hsym with hold | hnew
    · exact h.types k sc hsc sym hold
    · exact hnew
  · exact h.types k sck hk' sym hsym

lemma addChild_get? {parent : ScopeId} (func) (hp : S.get? parent = some p) : ∃ S',
    S.addChild parent func = (S.data.size, S') ∧ S'.data.size = S.data.size + 1 ∧
      S'.get? S.data.size = some { parent, func := func <|> p.func } ∧ ∀ k, k ≠ S.data.size →
      S'.get? k = if k = parent then some { p with children := p.children.push S.data.size } else S.get? k := by
  have hlt := get?_lt hp
  have h0 := (get?_eq_some.1 hp).1
  have heq : S.addChild parent func = (S.data.size,
      { data := (S.data.setIfInBounds parent { p with children := p.children.push S.data.size }).push
          { parent, func := func <|> p.func } }) := by
    simp only [addChild, hp]
  refine ⟨_, heq, by simp, ?_, fun k hk => ?_⟩
  · have hsize : S.data.size ≠ 0 := ne_of_gt (lt_of_le_of_lt (zero_le _) hlt)
    unfold get?
    rw [if_neg hsize, Array.getElem?_push, Array.size_setIfInBounds, if_pos rfl]
  · rw [← get?_set h0 hlt]
    unfold get?
    rw [Array.getElem?_push]
    simp [hk]

lemma addChild_same {D : Scopes} (hp : S.get? n = some p) (hold : ∀ k, k ≠ S.data.size → D.get? k =
      if k = n then some { p with children := p.children.push S.data.size } else S.get? k)
    (hk : S.get? k = some sc) : ∃ sc', D.get? k = some sc' ∧ sc'.parent = sc.parent ∧ sc'.level k = sc.level k := by
  rw [hold k (Nat.ne_of_lt (get?_lt hk))]
  split
  · next hkn =>
    subst hkn
    cases mem_unique hp hk
    exact ⟨_, rfl, rfl, rfl⟩
  · exact ⟨sc, hk, rfl, rfl⟩

lemma Sound.addChild {parent : ScopeId} (func) (h : S.Sound w) (hp : S.get? parent = some p) :
    (S.addChild parent func).2.Sound w := by
  obtain ⟨S', hS', hsize, hnew, hold⟩ := addChild_get? func hp
  rw [hS']
  have hget : ∀ k sck, S'.get? k = some sck → (k = S.data.size ∧ sck = { parent, func := func <|> p.func }) ∨
        (k = parent ∧ sck = { p with children := p.children.push S.data.size }) ∨ S.get? k = some sck := by
    intro k sck hk
    by_cases hks : k = S.data.size
    · subst hks
      exact .inl ⟨rfl, mem_unique hk hnew⟩
    · rw [hold k hks] at hk
      split at hk
      · next h => exact .inr (.inl ⟨h, (Option.some.inj hk).symm⟩)
      · exact .inr (.inr hk)
  refine ⟨hsize ▸ lt_succ_of_lt h.size, fun k sck hk => ?_, fun k sck hk => ?_, fun k sck hk sym hsym => ?_,
    fun k sck hk sym hsym => ?_⟩
  all_goals obtain ⟨rfl, rfl⟩ | ⟨rfl, rfl⟩ | hk' := hget k sck hk
  · exact get?_lt hp
  · exact h.parent k p hp
  · exact h.parent k sck hk'
  · exact fun h0 => absurd h0 (get?_eq_some.1 hp).1
  · exact h.root k p hp
  · exact h.root k sck hk'
  · simp at hsym
  · exact h.values k p hp sym hsym
  · exact h.values k sck hk' sym hsym
  · simp at hsym
  · exact h.types k p hp sym hsym
  · exact h.types k sck hk' sym hsym

end Scopes

namespace Act

variable {w : World σ} {S : Site} {Γ : Env} {L : Option (Handle × Handle)}
variable {R : World σ → World σ → Prop} [IsPreorder (World σ) R]

lemma valueSymbol_found (hsc : Scoped w S Γ L) (name) :
    Along Silent w (valueSymbol S.module name true) fun r w' => w' = w ∧
      ∀ sym, r = some sym → ∃ v op t, sym.value = some v ∧ Is w v op t ∧ Γ.find? name = some (op, t) := by
  obtain ⟨M, fn, ls, imports, hin⟩ := hsc
  have hlook := hin.lookup name
  refine .look (module_along S.module) fun M' hM' => ?_
  cases mem_unique hin.module hM'
  exact .pure ⟨rfl, fun sym hsym => by rwa [hsym] at hlook⟩

lemma resolveValue_along (hsc : Scoped w S Γ L) (name) :
    Along Silent w (resolveValue S.module name) fun v w' => w' = w ∧
      ∃ op t, Is w v op t ∧ Γ.find? name = some (op, t) := by
  refine .look (valueSymbol_found hsc name) fun r hr => ?_
  cases r with
  | none => exact fail_along
  | some sym =>
    obtain ⟨v, op, t, hv, his, hfind⟩ := hr sym rfl
    simp only [bind_some, hv]
    exact .pure ⟨rfl, op, t, his, hfind⟩

lemma resolveType_along (hn : Named w S) (name) : Along Silent w (resolveType S.module name) fun T w' => w' = w ∧
      ∃ t, w.store.type? T.handle = some t ∧ t.Plain ∧ S.types name = some t := by
  obtain ⟨M, hM, htypes⟩ := hn
  refine .bind (P := fun r w' => w' = w ∧ r = (M.scopes.lookupType M.current name true
    <|> M.scopes.lookupType importScope name false)) (.bind (module_along S.module) ?_) ?_
  · rintro M' w' - ⟨rfl, hM'⟩
    cases mem_unique hM hM'
    exact .pure ⟨rfl, rfl⟩
  · rintro r w' - ⟨rfl, rfl⟩
    have htype := htypes name
    cases hx : (M.scopes.lookupType M.current name true <|> M.scopes.lookupType importScope name false).bind
        Symbol.type with
    | none => exact fail_along
    | some T => exact .pure ⟨rfl, htype T hx⟩

lemma enclosingFunc_along (hsc : Scoped w S Γ L) : Along Silent w (enclosingFunc S.module) fun r w' =>
    w' = w ∧ ∃ fn ps va, r = some fn ∧ Is w fn (.func S.func) (.func S.ret ps va) := by
  obtain ⟨M, fn, ls, imports, hin⟩ := hsc
  refine .look (module_along S.module) fun M' hM' => ?_
  cases mem_unique hin.module hM'
  obtain ⟨ps, va, hfn⟩ := hin.func
  obtain ⟨sc, -, -, hsc, -, -, -, hf, -⟩ := hin.uncons
  refine .pure ⟨rfl, fn, ps, va, ?_, hfn⟩
  simp only [Scopes.func, hsc, bind_some, hf]

lemma typeNamed_congr (hc : Chain M.scopes M.current ls) (hc' : Chain M'.scopes M'.current ls')
    (hi : M.scopes.get? importScope = some imports) (hi' : M'.scopes.get? importScope = some imports')
    (hls : ls'.findSome? (fun l => l.typeOf? name.composed) = ls.findSome? fun l => l.typeOf? name.composed)
    (himports : imports'.types.order = imports.types.order) : typeNamed M' name = typeNamed M name := by
  have hone : ∀ (S : Scopes) sc, S.get? importScope = some sc →
      S.lookupType importScope name false = sc.types.get? name.composed := by
    intro S sc hsc
    rw [Scopes.lookupType, Scopes.search, hsc]
    simp only
    cases sc.types.get? name.composed <;> rfl
  have hall : ∀ (K : Module) ks, Chain K.scopes K.current ks →
      K.scopes.lookupType K.current name true = ks.findSome? fun l => l.typeOf? name.composed :=
    fun K ks hk => hk.search_eq fun sc _ => sc.types.agree _
  simp only [typeNamed, hall M ls hc, hall M' ls' hc', hone _ _ hi, hone _ _ hi', hls, SymbolTable.get?_eq, himports]

lemma typeNamed_parent (hin : Inside w S Γ L M fn (sc.level M.current :: ls) imports)
    (hrest : Chain M.scopes sc.parent ls) (ht : sc.types.order = #[]) (name) :
    typeNamed { M with current := sc.parent } name = typeNamed M name := by
  have hnone : (sc.level M.current).typeOf? name.composed = none := by
    simp only [Scope.level, ht]
    rfl
  exact typeNamed_congr hin.chain hrest hin.imports hin.imports
    (by rw [List.findSome?_cons, hnone]) rfl

lemma pushScope_step (hM : w.modules[m]? = some M) (hsc : M.scopes.get? M.current = some sc)
    (hc : Chain M.scopes M.current ls) (hcur : M.current < M.scopes.data.size)
    (hi : M.scopes.get? importScope = some imports) (func) : Along Step w (pushScope m func) fun _ w' => ∃ M' imports',
      w'.modules[m]? = some M' ∧ w'.store = w.store ∧ M'.loop = M.loop ∧
      Chain M'.scopes M'.current (⟨M.scopes.data.size, func <|> sc.func, #[], #[]⟩ :: ls) ∧
      M'.scopes.get? importScope = some imports' ∧ imports'.values.order = imports.values.order ∧
      ∀ name, typeNamed M' name = typeNamed M name := by
  refine .look (module_along m) fun M' hM' => ?_
  cases mem_unique hM hM'
  obtain ⟨D, hD, hsize, hnew, hold⟩ := Scopes.addChild_get? func hsc
  simp only [hD]
  have hstep : Step w { w with modules := w.modules.modify m fun i => { i with scopes := D, current := M.scopes.data.size } } := by
    refine step_update (fun K hK => ?_) (fun _ _ _ _ => id)
      (fun K hg hK => ⟨(hg.sound _ K hK).types, (hg.sound _ K hK).values⟩) (fun K hg _ => ?_) fun K w1 hg hs his hK => ?_
    · cases mem_unique hM hK
      intro k sck hk
      obtain ⟨sck', hk', -, hlevel⟩ := Scopes.addChild_same hsc hold hk
      refine ⟨sck', hk', ?_, ?_⟩
      · exact (congrArg (fun l : Level => l.types.toList) hlevel).symm ▸ prefix_rfl
      · exact (congrArg (fun l : Level => l.values.toList) hlevel).symm ▸ prefix_rfl
    · simp only [hsize]
      exact ⟨lt_of_le_of_lt (zero_le _) (hg.current m M hM).2, lt_succ_self _⟩
    · have hsound := ((hg.scopes _ M hM).addChild func hsc).mono (hs ▸ .refl _) his
      rwa [hD] at hsound
  have hsame (k sck) (hk : M.scopes.get? k = some sck) := Scopes.addChild_same hsc hold hk
  have hchain := Chain.cons hnew hcur (hc.congr fun k sck _ => hsame k sck)
  obtain ⟨imports', himp, -, hlev⟩ := hsame importScope imports hi
  refine .bind (update_along hstep ?_) fun _ w1 _ h1 => .pure h1
  refine ⟨{ M with scopes := D, current := M.scopes.data.size }, imports', ?_, rfl, rfl, hchain, himp,
    congrArg Level.values hlev, fun name => ?_⟩
  · rw [Std.HashMap.getElem?_modify_self, hM, map_some]
  · exact typeNamed_congr hc hchain hi himp
      (by rw [List.findSome?_cons]; rfl) (congrArg Level.types hlev)

lemma pushScope_along (hg : Good w) (hsc : Scoped w S Γ L) : Along Step w (pushScope S.module none) fun _ w' =>
    Scoped w' S ([] :: Γ) L ∧ w'.store = w.store := by
  obtain ⟨M, fn, ls, imports, hin⟩ := hsc
  obtain ⟨sc, l, ls', hget, hplt, rfl, hrest, hf, ht, hdeep⟩ := hin.uncons
  have hcur := hin.current_lt hg
  refine (pushScope_step hin.module hget hin.chain hcur hin.imports none).mono
    fun _ w' hstep ⟨M', imports', hmod, hstore, hloop, hchain, himp, hvalues, htypes⟩ => ?_
  rw [hf] at hchain
  refine ⟨⟨M', fn, _, imports', hmod, hchain, himp, ?_, by simp,
    forall_mem_cons.2 ⟨⟨rfl, rfl, lt_trans hdeep hcur⟩, hin.levels⟩, hin.func_mono hstep, fun name T hT => ?_,
    hloop ▸ hin.loop⟩, hstore⟩
  · rw [map_cons, hvalues]
    exact .cons .nil (hin.frames.imp fun _ _ => FrameIs.mono hstep)
  · rw [hstore]
    exact hin.types name T (htypes name ▸ hT)

lemma popScope_step (m) : Along Step w (popScope m) fun _ w' => ∀ M sc, w.modules[m]? = some M →
    M.scopes.get? M.current = some sc →
    w'.modules[m]? = some { M with current := sc.parent } ∧ w'.store = w.store := by
  refine .look (module_along m) fun M hM => ?_
  refine fail_ite fun h0 => update_along ?_ fun M' sc hM' hsc => ?_
  · refine step_update (fun _ _ => .refl _) (fun _ _ _ _ => id) (fun K hg hK => ⟨(hg.sound _ K hK).types, (hg.sound _ K hK).values⟩)
      (fun K hg hK => ?_) fun K w1 hg hs his hK => (hg.scopes _ K hK).mono (hs ▸ .refl _) his
    refine ⟨pos_of_ne_zero h0, ?_⟩
    cases mem_unique hM hK
    cases hsc : M.scopes.get? M.current with
    | none => exact absurd (by simp only [Scopes.parent, hsc, elim_none]) h0
    | some sc =>
      simp only [Scopes.parent, hsc]
      exact lt_trans ((hg.scopes m M hM).parent _ sc hsc) (hg.current m M hM).2
  · cases mem_unique hM hM'
    refine ⟨?_, rfl⟩
    rw [Std.HashMap.getElem?_modify_self, hM, map_some]
    simp only [Scopes.parent, hsc, elim_some]

lemma popScope_along (hsc : Scoped w S (frame :: Γ) L)
    (hΓ : 3 ≤ Γ.length) : Along Step w (popScope S.module) fun _ w' => Scoped w' S Γ L ∧ w'.store = w.store := by
  obtain ⟨M, fn, ls, imports, hin⟩ := hsc
  obtain ⟨sc, l, ls', hget, hplt, rfl, hrest, hf, ht, hdeep⟩ := hin.uncons
  refine (popScope_step S.module).mono ?_
  intro _ w' hstep hpop
  obtain ⟨hmod, hstore⟩ := hpop M sc hin.module hget
  refine ⟨?_, hstore⟩
  have hframes := hin.frames
  rw [map_cons, cons_append] at hframes
  cases hframes with
  | cons _ hframes =>
    refine ⟨{ M with current := sc.parent }, fn, l :: ls', imports, hmod, hrest, hin.imports,
      hframes.imp fun _ _ => FrameIs.mono hstep, ?_, (forall_mem_cons.1 hin.levels).2, hin.func_mono hstep,
      fun name T hT => ?_, hin.loop⟩
    · have hlen := hframes.length_eq
      rw [length_append, length_map, length_singleton] at hlen
      omega
    · rw [hstore]
      exact hin.types name T (typeNamed_parent hin hrest ht name ▸ hT)

section

variable {f : Scopes → Except Fault Scopes} {Q : Unit → World σ → Prop} (hr : ∀ w w', Silent w w' → R w w')
  (h : ∀ M S', w.modules[m]? = some M → f M.scopes = .ok S' →
  R w { w with modules := w.modules.modify m fun i => { i with scopes := S' } } ∧
    Q () { w with modules := w.modules.modify m fun i => { i with scopes := S' } })

include h

lemma rescope_along : Along R w (rescope m f) Q := by
  refine .look (module_along m) fun M hM => ?_
  cases hf : f M.scopes with
  | error e => exact .throw
  | ok S' =>
    obtain ⟨hstep, hq⟩ := h M S' hM hf
    exact update_along hstep hq

include hr in
lemma rescopeTraced_along : Along R w (rescopeTraced m f) Q := by
  refine .bind (attempt_along (rescope_along h)) fun r w' _ hq => ?_
  cases r with
  | ok x => exact .pure (hq x rfl)
  | error e => exact .bind ((report_along m e).weaken (hr w')) fun _ _ _ _ => .throw

end

lemma valueType?_along (v) : Along R w (valueType? v) fun _ w' => w' = w := by
  cases v with
  | none => exact .pure rfl
  | some v =>
    refine .look (module_along v.module) fun M _ => ?_
    exact .pure rfl

lemma addValue_ok {D : Scopes} (h : D.addValue id name t v = .ok D') : ∃ sc, D.get? id = some sc ∧
    sc.values.get? name.composed = none ∧
      D' = { data := D.data.setIfInBounds id { sc with values := (sc.values.add ⟨name.composed, t, v⟩).2 } } := by
  unfold Scopes.addValue at h
  cases hsc : D.get? id with
  | none =>
    rw [hsc] at h
    cases h
  | some sc =>
    rw [hsc] at h
    simp only at h
    split at h
    · next hadd =>
      refine ⟨sc, rfl, ?_, hadd ▸ (Except.ok.inj h).symm⟩
      simpa [hadd] using sc.values.add_fresh ⟨name.composed, t, v⟩
    · cases h

lemma step_addValue (hM : w.modules[m]? = some M) (hv : Is w v op ty) (hfix : k ≤ exportScope → IsFixed op)
    (hD : M.scopes.addValue k name t (some v) = .ok D) :
    Step w { w with modules := w.modules.modify m fun i => { i with scopes := D } } := by
  obtain ⟨sc, hsc, hnone, rfl⟩ := addValue_ok hD
  have horder := SymbolTable.order_add ⟨name.composed, t, some v⟩ hnone
  refine step_update (fun K hK => ?_) (fun _ _ _ _ => id) (fun K hg hK => ⟨(hg.sound _ K hK).types, (hg.sound _ K hK).values⟩)
    (fun K hg hK => ?_) fun K w1 hg hs his hK => ?_
  · cases mem_unique hM hK
    exact Scopes.le_set hsc prefix_rfl (by simp [horder])
  · cases mem_unique hM hK
    simpa only [Array.size_setIfInBounds] using hg.current m M hM
  · refine Scopes.Sound.mono (hs ▸ .refl _) his
      ((hg.scopes m M hM).set hsc rfl (fun sym hsym => ?_) fun sym hsym => .inl hsym)
    rcases Array.mem_push.1 (horder ▸ hsym) with hold | rfl
    · exact .inl hold
    · exact .inr ⟨v, op, ty, rfl, hv, hfix⟩

lemma addValueSymbol_along (hg : Good w) (hsc : Scoped w S Γ L) (hv : Is w v op t) :
    Along Step w (addValueSymbol S.module name (some v)) fun _ w' =>
      Scoped w' S (Γ.bind name op t) L ∧ w'.store = w.store := by
  obtain ⟨M, fn, ls, imports, hin⟩ := hsc
  obtain ⟨sc, l, ls', hget, hplt, rfl, hrest, hf, ht, hdeep⟩ := hin.uncons
  have hcur := hin.current_lt hg
  refine .look (module_along S.module) fun M' hM' => ?_
  cases mem_unique hin.module hM'
  refine .bind (valueType?_along (some v)) ?_
  rintro T w1 - rfl
  refine rescopeTraced_along (fun _ _ q => q.toStep) fun M' D hM' hD => ?_
  cases mem_unique hin.module hM'
  have hstep := step_addValue hin.module hv (fun h => absurd hdeep (Nat.not_lt_of_le h)) hD
  refine ⟨hstep, ?_, rfl⟩
  obtain ⟨sc0, hsc0, hnone, hD⟩ := addValue_ok hD
  cases mem_unique hget hsc0
  have h0 := (Scopes.get?_eq_some.1 hget).1
  have hnew : D.get? M.current = some { sc with values := (sc.values.add ⟨name.composed, T, some v⟩).2 } := by
    rw [hD, Scopes.get?_set h0 hcur, if_pos rfl]
  have hold : ∀ k, k ≠ M.current → D.get? k = M.scopes.get? k := by
    intro k hk
    rw [hD, Scopes.get?_set h0 hcur, if_neg hk]
  have hchain := Chain.cons hnew hplt (hrest.congr fun k sck hk hgk =>
    ⟨sck, (hold k (Nat.ne_of_lt (Nat.lt_of_le_of_lt hk hplt))).trans hgk, rfl, rfl⟩)
  have himp := (hold importScope (Nat.ne_of_lt (Nat.lt_trans (by decide) hdeep))).trans hin.imports
  have hframes := hin.frames
  cases hframes with
  | @cons _ frame _ Γ hframe hframes =>
    refine ⟨{ M with scopes := D }, fn, _, imports, ?_, hchain, himp, ?_, by simp,
      forall_mem_cons.2 ⟨⟨hf, ht, hdeep⟩, (forall_mem_cons.1 hin.levels).2⟩, hin.func_mono hstep,
      fun n T' hT' => ?_, hin.loop⟩
    · rw [Std.HashMap.getElem?_modify_self, hin.module, map_some]
    · refine .cons ?_ (hframes.imp fun _ _ => FrameIs.mono hstep)
      unfold FrameIs
      rw [Scope.level, SymbolTable.order_add ⟨name.composed, T, some v⟩ hnone, Array.toList_push]
      exact rel_append (FrameIs.mono hstep hframe) (.cons ⟨rfl, v, rfl, hv.mono hstep⟩ .nil)
    · refine hin.types n T' (Eq.trans ?_ hT')
      refine (typeNamed_congr hin.chain hchain hin.imports himp ?_ rfl).symm
      rfl

lemma step_loop (m l) : Step w { w with modules := w.modules.modify m fun i => { i with loop := l } } :=
  step_update (fun _ _ => .refl _) (fun _ _ _ _ => id) (fun K hg hK => ⟨(hg.sound _ K hK).types, (hg.sound _ K hK).values⟩)
    (fun K hg hK => hg.current _ K hK) fun K _ hg hs his hK => (hg.scopes _ K hK).mono (hs ▸ .refl _) his

lemma setLoop_along (hsc : Scoped w S Γ L) (l) :
    Along Step w (update S.module fun i => { i with loop := l }) fun _ w' =>
      Scoped w' S Γ (l.map fun t => (t.leave.handle, t.next.handle)) ∧ w'.store = w.store := by
  have hstep := step_loop (w := w) S.module l
  obtain ⟨M, fn, ls, imports, hin⟩ := hsc
  refine update_along hstep ⟨⟨{ M with loop := l }, fn, ls, imports, ?_, hin.chain, hin.imports,
    hin.frames.imp fun _ _ => FrameIs.mono hstep, hin.long, hin.levels, hin.func_mono hstep, hin.types, rfl⟩, rfl⟩
  rw [Std.HashMap.getElem?_modify_self, hin.module, map_some]

lemma loop_along (hsc : Scoped w S Γ L) :
    Along R w (module S.module) fun M w' => w' = w ∧ M.loop.map (fun l => (l.leave.handle, l.next.handle)) = L := by
  obtain ⟨M, fn, ls, imports, hin⟩ := hsc
  refine (module_along S.module).mono ?_
  rintro M' w' - ⟨rfl, hM'⟩
  cases mem_unique hin.module hM'
  exact ⟨rfl, hin.loop⟩

lemma enterFunc_along (hg : Good w) (ht : Top w S Γ)
    (hfn : Is w fn (.func S.func) (.func S.ret ps va)) : Along Step w (pushScope S.module (some fn)) fun _ w' =>
      Scoped w' S ([] :: Γ) none ∧ w'.store = w.store := by
  obtain ⟨M, l, imp, hout⟩ := ht
  obtain ⟨sc, ls', hget, hplt, hl, hnil⟩ := hout.chain.uncons (by simp)
  have hcur := (hg.current _ M hout.module).2
  refine (pushScope_step hout.module hget hout.chain hcur hout.imports (some fn)).mono
    fun _ w' hstep ⟨M', imp', hmod, hstore, hloop, hchain, himp, hvalues, htypes⟩ => ?_
  refine ⟨⟨M', fn, _, imp', hmod, hchain, himp, ?_, by simp,
    forall_mem_singleton.2 ⟨rfl, rfl, (hg.scopes _ M hout.module).size⟩, ⟨ps, va, hfn.mono hstep⟩,
    fun name T hT => ?_, ?_⟩, hstore⟩
  · simp only [hvalues]
    exact .cons .nil (hout.frames.imp fun _ _ => FrameIs.mono hstep)
  · rw [hstore]
    exact hout.types name T (htypes name ▸ hT)
  · rw [hloop, hout.loop, map_none]

lemma leaveFunc_along (hsc : Scoped w S (frame :: Γ) none)
    (hΓ : Γ.length = 2) : Along Step w (popScope S.module) fun _ w' => Top w' S Γ ∧ w'.store = w.store := by
  obtain ⟨M, fn, ls, imports, hin⟩ := hsc
  obtain ⟨sc, l, ls', hget, hplt, rfl, hrest, hf, ht, hdeep⟩ := hin.uncons
  refine (popScope_step S.module).mono ?_
  intro _ w' hstep hpop
  obtain ⟨hmod, hstore⟩ := hpop M sc hin.module hget
  refine ⟨?_, hstore⟩
  have hframes := hin.frames
  rw [map_cons, cons_append] at hframes
  cases hframes with
  | cons _ hframes =>
    have hlen := hframes.length_eq
    rw [length_append, length_map, length_singleton, length_cons] at hlen
    cases eq_nil_of_length_eq_zero (show ls'.length = 0 by omega)
    refine ⟨{ M with current := sc.parent }, l, imports, hmod, hrest, hin.imports,
      hframes.imp fun _ _ => FrameIs.mono hstep, fun name T hT => ?_, ?_⟩
    · rw [hstore]
      exact hin.types name T (typeNamed_parent hin hrest ht name ▸ hT)
    · have hloop := hin.loop
      rwa [map_eq_none_iff] at hloop

end Act

end Arbor.Build
