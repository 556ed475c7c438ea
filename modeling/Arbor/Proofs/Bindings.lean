import Arbor.Proofs.Importing

/-! What a tree of scopes answers, told by its history. A name stands for what was bound to it first in the nearest
scope outwards that binds it. Types and values do not meet, and what is refused leaves no trace. -/

namespace Arbor.Build

open List

def Scope.held (sc : Scope) : Space → List Symbol
  | .types => sc.types.order.toList
  | .values => sc.values.order.toList

namespace Scopes

inductive Edit where
  | child (parent : ScopeId) (func : Option ValueId)
  | type (id : ScopeId) (name : Text) (t : Option TypeId)
  | value (id : ScopeId) (name : Text) (t : Option TypeId) (v : Option ValueId)

def edit (s : Scopes) : Edit → Scopes
  | .child parent func => (s.addChild parent func).2
  | .type id name t => (s.addType id name t).toOption.getD s
  | .value id name t v => (s.addValue id name t v).toOption.getD s

def Orderly (s : Scopes) : List Edit → Prop
  | [] => True
  | e :: es => (∀ parent func, e = .child parent func → parent < s.data.size) ∧ (s.edit e).Orderly es

def Edit.add? : Edit → Option (Space × ScopeId × Symbol)
  | child .. => none
  | type k name t => some (.types, k, { name := name.composed, type := t })
  | value k name t v => some (.values, k, ⟨name.composed, t, v⟩)

def takes (s : Scopes) : Edit → Bool
  | .child .. => true
  | .type k name t => (s.addType k name t).isOk
  | .value k name t v => (s.addValue k name t v).isOk

structure Answers where
  all : List Symbol
  look : Text → Bool → Option Symbol
  first : (Symbol → Bool) → Bool → Option Symbol

def answers (s : Scopes) (k : ScopeId) : Space → Answers
  | .types => ⟨s.types k, s.lookupType k, s.findType k⟩
  | .values => ⟨s.values k, s.lookupValue k, s.findValue k⟩

structure History where
  kids : List (ScopeId × Option ValueId) := []
  log : List (ScopeId × Symbol) := []

namespace History

def born (H : History) : ScopeId → Option (ScopeId × Option ValueId)
  | 0 => none
  | k + 1 => H.kids[k]?

def own (H : History) (k : ScopeId) : List Symbol := (H.log.filter (·.1 = k)).map Prod.snd

def free (H : History) (k : ScopeId) (name : Text) : Bool := (H.born k).isSome && (H.own k).all (·.name ≠ name)

def next (sp : Space) (H : History) (e : Edit) : History :=
  match e, e.add? with
  | .child parent func, _ => { H with kids := H.kids ++ [(parent, func)] }
  | _, some (sp', k, sym) => if sp' = sp ∧ H.free k sym.name then { H with log := H.log ++ [(k, sym)] } else H
  | _, none => H

inductive Path (H : History) : ScopeId → List ScopeId → Prop where
  | out (h : H.born k = none) : Path H k []
  | up (h : H.born k = some b) (hp : Path H b.1 path) : Path H k (k :: path)

def answers (H : History) (k : ScopeId) (path : List ScopeId) : Answers :=
  let first (p : Symbol → Bool) outward := (if outward then path else [k]).findSome? fun j => (H.own j).find? p
  ⟨H.own k, fun name => first (·.name = name.composed), first⟩

end History

def told (s : Scopes) (sp : Space) (k : ScopeId) : Option (ScopeId × Option ValueId × List Symbol) :=
  (s.get? k).map fun sc => (sc.parent, sc.func, sc.held sp)

structure Records (sp : Space) (H : History) (s : Scopes) : Prop where
  size : s.data.size = H.kids.length + 1
  falls : ∀ k b, H.born k = some b → b.1 < k
  told : ∀ k, s.told sp k = (H.born k).map fun b => (b.1, b.2 <|> s.func b.1, H.own k)
  unborn : ∀ k, H.born k = none → H.own k = []
  once : ∀ k, ((H.own k).map Symbol.name).Nodup

variable {s s' : Scopes} {e : Edit} {es : List Edit} {k : ScopeId} {sp : Space} {H : History}

lemma History.next_add (H : History) (sp) (he : e.add? = some (sp', k, sym)) :
    H.next sp e = if sp' = sp ∧ H.free k sym.name then { H with log := H.log ++ [(k, sym)] } else H := by
  cases e <;> cases he <;> rfl

lemma func_told (s : Scopes) (sp k) : s.func k = (s.told sp k).bind (·.2.1) := by
  unfold Scopes.func told
  cases s.get? k <;> rfl

lemma add_cases (s : Scopes) (h : e.add? = some (sp, k, sym)) :
    (s.takes e = true ∧ ∃ sc, s.get? k = some sc ∧ sym.name ∉ (sc.held sp).map Symbol.name ∧
      s.edit e = ⟨s.data.setIfInBounds k (sc.enter (sp, sym))⟩) ∨
    s.takes e = false ∧ s.edit e = s ∧ ∀ sc, s.get? k = some sc → sym.name ∈ (sc.held sp).map Symbol.name := by
  cases e <;> cases h
  all_goals
    simp only [takes, edit, addType, addValue]
    split
    · next hg => exact .inr ⟨rfl, rfl, by simp [hg]⟩
    · next sc hg =>
      split
      · next hs =>
        have hfresh := SymbolTable.add_fresh _ _ ▸ congrArg Prod.fst hs
        exact .inl ⟨rfl, sc, hg, by simp_all [SymbolTable.get?_eq, Scope.held], by rw [Scope.enter, hs]; rfl⟩
      · next hs =>
        have htaken := SymbolTable.add_fresh _ _ ▸ congrArg Prod.fst hs
        exact .inr ⟨rfl, rfl, by simp_all [SymbolTable.get?_eq, Scope.held]⟩

lemma edit_refused (h : s.takes e = false) : s.edit e = s := by
  cases ha : e.add? with
  | none => cases e <;> cases ha; cases h
  | some a =>
    obtain ⟨ht, -⟩ | ⟨-, heq, -⟩ := add_cases s ha
    · cases ht.symm.trans h
    · exact heq

lemma held_enter {sc : Scope} {sym : Symbol} (hnew : sym.name ∉ (sc.held sp').map Symbol.name) (sp) :
    (sc.enter (sp', sym)).held sp = sc.held sp ++ if sp' = sp then [sym] else [] := by
  have hfresh : sc.find sp' sym.name = none := by
    cases sp' <;> simpa [Scope.find, SymbolTable.get?_eq, Scope.held] using hnew
  cases sp <;> cases sp' <;> simp [Scope.enter, Scope.held, SymbolTable.order_add _ hfresh]

lemma told_enter (hsc : s.get? k = some sc) (hnew : sym.name ∉ (sc.held sp').map Symbol.name) (sp j) :
    told ⟨s.data.setIfInBounds k (sc.enter (sp', sym))⟩ sp j =
      (s.told sp j).map fun t => (t.1, t.2.1, t.2.2 ++ if sp' = sp ∧ k = j then [sym] else []) := by
  unfold told
  rw [get?_set (get?_eq_some.1 hsc).1 (get?_lt hsc)]
  split
  · next hj =>
    subst hj
    simp only [hsc, Option.map_some, held_enter hnew, and_true]
    cases sp' <;> rfl
  · next hj => cases s.get? j <;> simp [Ne.symm hj]

lemma func_enter (hsc : s.get? k = some sc) (hnew : sym.name ∉ (sc.held sp').map Symbol.name) :
    func ⟨s.data.setIfInBounds k (sc.enter (sp', sym))⟩ = s.func := by
  funext j
  rw [func_told _ sp', told_enter hsc hnew, func_told _ sp']
  cases s.told sp' j <;> rfl

lemma told_addChild (hs : 0 < s.data.size) (k func sp j) : (s.addChild k func).2.told sp j =
    if j = s.data.size then some (k, func <|> s.func k, []) else s.told sp j := by
  unfold addChild told Scopes.func
  cases hp : s.get? k <;> cases sp <;> simp [get?] at hp ⊢ <;> grind [Scope.held, SymbolTable.order_empty]

namespace Records

lemma scope (h : Records sp H s) (k) : s.get? k = none ∧ H.born k = none ∨ ∃ sc b, s.get? k = some sc ∧
    H.born k = some b ∧ sc.parent = b.1 ∧ sc.func = (b.2 <|> s.func b.1) ∧ sc.held sp = H.own k := by
  have ht := h.told k
  unfold Scopes.told at ht
  cases hg : s.get? k <;> cases hb : H.born k <;> simp_all

lemma takes_eq (h : Records sp H s) (he : e.add? = some (sp, k, sym)) : s.takes e = H.free k sym.name := by
  unfold History.free
  obtain ⟨hg, hb⟩ | ⟨sc, b, hsc, hb, -, -, hheld⟩ := h.scope k <;>
    obtain ⟨ht, sc', hsc', hnew, -⟩ | ⟨ht, -, hold⟩ := add_cases s he <;> simp_all

lemma add (h : Records sp H s) (he : e.add? = some (sp', k, sym)) : Records sp (H.next sp e) (s.edit e) := by
  have hnext := History.next_add H sp he
  obtain ⟨ht, sc, hsc, hnew, heq⟩ | ⟨ht, heq, -⟩ := add_cases s he
  · have hfree (hsp : sp' = sp) : H.free k sym.name := h.takes_eq (hsp ▸ he) ▸ ht
    have hborn : (H.next sp e).born = H.born := by
      rw [hnext]
      split <;> rfl
    have hown (j) : (H.next sp e).own j = H.own j ++ if sp' = sp ∧ k = j then [sym] else [] := by
      rw [hnext]
      by_cases hsp : sp' = sp
      · rw [if_pos ⟨hsp, hfree hsp⟩]
        by_cases hj : k = j <;> simp [hsp, hj, History.own]
      · simp [hsp]
    simp only [History.free] at hfree
    refine ⟨?_, hborn ▸ h.falls, fun j => ?_, fun j hj => ?_, fun j => ?_⟩
    · rw [hnext]
      split <;> simp [heq, h.size]
    · rw [hborn, hown, heq, func_enter hsc hnew, told_enter hsc hnew, h.told, Option.map_map]
      rfl
    · rw [hborn] at hj
      rw [hown, h.unborn j hj, if_neg]
      · rfl
      · rintro ⟨hsp, rfl⟩
        simp [hj, hsp] at hfree
    · rw [hown]
      split
      · next hj =>
        obtain ⟨hsp, rfl⟩ := hj
        rw [map_append, nodup_append]
        exact ⟨h.once k, nodup_singleton _, by grind⟩
      · simpa using h.once j
  · rw [heq, hnext, if_neg]
    · exact h
    · rintro ⟨rfl, hfree⟩
      cases (h.takes_eq he ▸ ht).symm.trans hfree

lemma child (h : Records sp H s) (func) (hk : k < s.data.size) :
    Records sp (H.next sp (.child k func)) (s.addChild k func).2 := by
  have hs : 0 < s.data.size := k.zero_le.trans_lt hk
  have hborn (j) : (H.next sp (.child k func)).born j = if j = s.data.size then some (k, func) else H.born j := by
    rw [h.size]
    cases j with
    | zero => rfl
    | succ j => grind [show H.next sp (.child k func) = { H with kids := H.kids ++ [(k, func)] } from rfl, History.born]
  have hfunc (j) (hj : j < s.data.size) : (s.addChild k func).2.func j = s.func j := by
    rw [func_told _ sp, told_addChild hs, if_neg hj.ne, func_told _ sp]
  -- Only the new scope is told anew: it has the function of its parent unless it was given one.
  refine ⟨?_, fun j b hj => ?_, fun j => ?_, fun j hj => h.unborn j (by grind), h.once⟩
  · rw [History.next, length_append, Nat.add_right_comm, ← h.size]
    unfold addChild
    split <;> simp
  · rw [hborn] at hj
    split at hj
    · next hj' =>
      cases hj
      exact hj' ▸ hk
    · exact h.falls j b hj
  · rw [hborn, told_addChild hs]
    split
    · next hj =>
      have hown := h.unborn j (by simp [hj, h.size, History.born])
      rw [Option.map_some, hfunc k hk, ← hown]
      rfl
    · rw [h.told]
      obtain ⟨-, hb⟩ | ⟨sc, b, hsc, hb, -⟩ := h.scope j
      · rw [hb]
        rfl
      · rw [hb, Option.map_some, Option.map_some, hfunc _ ((h.falls j b hb).trans (get?_lt hsc))]
        rfl

lemma edit (h : Records sp H s) (ho : ∀ parent func, e = .child parent func → parent < s.data.size) :
    Records sp (H.next sp e) (s.edit e) := by
  cases he : e.add? with
  | none =>
    cases e with
    | child parent func => exact h.child func (ho parent func rfl)
    | _ => cases he
  | some a => exact h.add he

lemma edits (h : Records sp H s) (h' : Records sp H s') (ho : s.Orderly es) :
    Records sp (es.foldl (History.next sp) H) (es.foldl Scopes.edit s) ∧
      Records sp (es.foldl (History.next sp) H) ((es.filter (·.add?.all (·.1 = sp))).foldl Scopes.edit s') := by
  induction es generalizing s s' H with
  | nil => exact ⟨h, h'⟩
  | cons e es ih =>
    have hnext := h.edit ho.1
    rw [filter_cons]
    split
    · exact ih hnext (h'.edit (h'.size.trans h.size.symm ▸ ho.1)) ho.2
    · next hne =>
      have hsame : H.next sp e = H := by cases e <;> simp_all [History.next, Edit.add?]
      exact ih hnext (hsame.symm ▸ h') ho.2

lemma exists_path (h : Records sp H s) (k) : ∃ path, H.Path k path := by
  induction k using Nat.strong_induction_on with
  | _ k ih =>
    cases hb : H.born k with
    | none => exact ⟨[], .out hb⟩
    | some b =>
      obtain ⟨path, hp⟩ := ih b.1 (h.falls k b hb)
      exact ⟨k :: path, .up hb hp⟩

lemma func_eq (h : Records sp H s) (hp : H.Path k path) :
    s.func k = path.findSome? fun j => (H.born j).bind Prod.snd := by
  induction hp with
  | out hb =>
    rw [func_told _ sp, h.told, hb]
    rfl
  | @up _ b _ hb _ ih =>
    rw [func_told _ sp, h.told, findSome?_cons, hb, ← ih]
    cases hf : b.2 <;> simp [hf]

lemma search_eq (h : Records sp H s) (hp : H.Path k path) :
    s.search k true (fun sc => (sc.held sp).find? p) = path.findSome? fun j => (H.own j).find? p := by
  induction hp with
  | @out k hb =>
    obtain ⟨hg, -⟩ | ⟨_, _, _, hb', _⟩ := h.scope k
    · rw [search, hg, findSome?_nil]
    · cases hb.symm.trans hb'
  | @up k b path hb _ ih =>
    obtain ⟨-, hb'⟩ | ⟨sc, b', hsc, hb', hparent, -, hheld⟩ := h.scope k <;> cases hb.symm.trans hb'
    rw [search, hsc, findSome?_cons, ← ih, ← hheld, ← hparent]
    cases hfind : (sc.held sp).find? p <;> simp [hfind]

lemma answers_eq (h : Records sp H s) (hp : H.Path k path) : s.answers k sp = H.answers k path := by
  have hheld : (s.get? k).elim [] (·.held sp) = H.own k := by
    obtain ⟨hg, hb⟩ | ⟨sc, b, hsc, -, -, -, hheld⟩ := h.scope k
    · rw [hg, h.unborn k hb]
      rfl
    · rw [hsc, ← hheld]
      rfl
  have hsearch (p outward) : s.search k outward (fun sc => (sc.held sp).find? p) =
      (if outward then path else [k]).findSome? fun j => (H.own j).find? p := by
    cases outward with
    | true => exact h.search_eq hp
    | false =>
      rw [search, if_neg Bool.false_ne_true, findSome?_cons, ← hheld]
      cases s.get? k with
      | none => rfl
      | some sc => cases hfind : (sc.held sp).find? p <;> simp [hfind]
  unfold History.answers
  simp only [← hsearch, ← hheld]
  cases sp <;> simp only [Scope.held, Array.find?_toList, ← SymbolTable.get?_eq] <;> rfl

end Records

lemma records_empty : Records sp {} {} where
  size := rfl
  falls k b hb := by cases k <;> cases hb
  told k := by cases k <;> simp [told, get?, History.born]
  unborn _ _ := rfl
  once _ := .nil

/-- Whatever is added to a tree of scopes, a name stands for what was bound to it first in the nearest scope outwards
that binds it, and the function of a scope is the nearest that was given. What is refused changes nothing, and a tree
that was spared the names of the other kind answers the same. -/
theorem nearest_binding (es : List Edit) (ho : Orderly {} es) (sp : Space) (k : ScopeId) :
    let H : History := es.foldl (History.next sp) {}
    let s := es.foldl edit {}
    let spared := (es.filter (·.add?.all (·.1 = sp))).foldl edit {}
    (∃ path, H.Path k path ∧ s.answers k sp = H.answers k path ∧
      s.func k = path.findSome? fun j => (H.born j).bind Prod.snd) ∧
    ((H.own k).map Symbol.name).Nodup ∧
    (∀ func, (s.addChild k func).1 = H.kids.length + 1) ∧
    (∀ e, s.takes e = false → s.edit e = s) ∧
    (∀ e sym, e.add? = some (sp, k, sym) → s.takes e = H.free k sym.name ∧ spared.takes e = H.free k sym.name) ∧
    spared.answers k sp = s.answers k sp := by
  intro H s spared
  obtain ⟨h, h'⟩ := records_empty.edits records_empty ho
  obtain ⟨path, hp⟩ := h.exists_path k
  refine ⟨⟨path, hp, h.answers_eq hp, h.func_eq hp⟩, h.once k, fun func => ?_, fun _ => edit_refused,
    fun e sym he => ⟨h.takes_eq he, h'.takes_eq he⟩, (h'.answers_eq hp).trans (h.answers_eq hp).symm⟩
  rw [← h.size, addChild]
  split <;> rfl

/-- An outer name is bound and bound again, and the inner scope has a type of that name. -/
theorem nearest_binding_nested :
    let es : List Edit := [.child 0 none, .child 1 (some ⟨0, 7⟩), .value 1 "a" none none, .type 2 "a" none,
      .value 1 "a" none (some ⟨0, 8⟩)]
    Orderly {} es ∧ ∃ path, (es.foldl (History.next .values) {}).Path 2 path ∧
      (es.foldl edit {}).answers 2 .values = (es.foldl (History.next .values) {}).answers 2 path := by
  intro es
  have h : Orderly {} es := by simp [es, Orderly, edit, addChild, get?]
  obtain ⟨path, hp, heq, -⟩ := (nearest_binding es h .values 2).1
  exact ⟨h, path, hp, heq⟩

end Scopes
end Arbor.Build
