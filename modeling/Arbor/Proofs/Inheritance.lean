import Arbor.Proofs.Structs

/-! Extending a struct appends to it: first the base as one member, then what the base has but its own base. What the
struct had before keeps its places, so the base stands first only in a struct that was empty. A member that is refused
ends the extension, and those before it stay. -/

namespace Arbor.Build

open IR Diag Proofs

variable {σ : Type} {w w' : World σ} {T base : TypeId} {mem : Member}

/-- The members `l` stand after those that the struct had, and names are found at their places. Other types are seen
as before. -/
structure Appends (T : TypeId) (l : List Member) (w w' : World σ) : Prop where
  members : ∀ V, w.view? T = some V → ∃ V', w'.view? T = some V' ∧ V'.members.toList = V.members.toList ++ l ∧
    (∀ (name : Text) (k : Nat), V.places[name]? = some k → V'.places[name]? = some k) ∧
    ∀ k mem, l[k]? = some mem → V'.places[mem.name]? = some (V.members.size + k)
  others : ∀ U W, U ≠ T → w.view? U = some W → ∃ W', w'.view? U = some W' ∧ W.Same W'

lemma Unchanged.appends (h : Unchanged w w') : Appends T [] w w' := by
  refine ⟨fun V hV => ?_, fun U W _ hW => h.views U W hW⟩
  obtain ⟨V', hV', hsame⟩ := h.views T V hV
  exact ⟨V', hV', by simp [hsame.members], fun name k hk => (hsame.places name).trans hk, by simp⟩

lemma Gains.appends (h : Gains w T mem w') : Appends T [mem] w w' := by
  obtain ⟨V, hV, hfresh, hview, -⟩ := h.view
  refine ⟨fun V' hV' => ?_, fun U W hU hW => ⟨W, ?_, rfl, rfl, fun _ => rfl⟩⟩
  · cases Option.mem_unique hV hV'
    refine ⟨_, (hview T).trans (if_pos rfl), by simp [TypeView.extended], fun name k hk => ?_, fun k other hk => ?_⟩
    · have hne : mem.name ≠ name := by
        rintro rfl
        cases hfresh.symm.trans hk
      simpa [TypeView.extended, Std.HashMap.getElem?_insert, hne] using hk
    · cases k with
      | zero =>
        cases hk
        simp [TypeView.extended]
      | succ k => cases hk
  · rw [hview, if_neg hU, hW]

lemma Appends.trans (h : Appends T l w w') (k : Appends T l' w' w'') : Appends T (l ++ l') w w'' := by
  refine ⟨fun V hV => ?_, fun U W hU hW => ?_⟩
  · obtain ⟨V1, hV1, hm1, hkept1, hnew1⟩ := h.members V hV
    obtain ⟨V2, hV2, hm2, hkept2, hnew2⟩ := k.members V1 hV1
    have hsize : V1.members.size = V.members.size + l.length := by
      rw [← Array.length_toList, hm1, List.length_append, Array.length_toList]
    refine ⟨V2, hV2, by rw [hm2, hm1, List.append_assoc], fun name i hi => hkept2 name i (hkept1 name i hi), ?_⟩
    intro i mem hi
    by_cases hlt : i < l.length
    · rw [List.getElem?_append_left hlt] at hi
      exact hkept2 _ _ (hnew1 i mem hi)
    · rw [List.getElem?_append_right (Nat.le_of_not_lt hlt)] at hi
      rw [hnew2 _ mem hi]
      congr 1
      omega
  · obtain ⟨W1, hW1, hsame1⟩ := h.others U W hU hW
    obtain ⟨W2, hW2, hsame2⟩ := k.others U W1 hU hW1
    exact ⟨W2, hW2, hsame2.kind.trans hsame1.kind, hsame2.members.trans hsame1.members,
      fun name => (hsame2.places name).trans (hsame1.places name)⟩

def inherited (B : TypeView) : List Member := B.members.toList.filter fun mem => mem.name ≠ Text.ofString "base"

def extension (base : TypeId) (B : TypeView) : List Member := ⟨Text.ofString "base", base, none⟩ :: inherited B

namespace Act

lemma addMember_appends (mem) : Obeys w (addMember T mem.name (some mem.type) mem.value)
    (fun _ w' => Appends T [mem] w w') fun _ w' => Unchanged w w' := by
  refine (addMember_outcomes ..).mono ?_
  rintro ⟨name, type, value⟩ w1 ⟨rfl, htype, rfl, hgains⟩
  cases Option.some.inj htype
  exact hgains.appends

lemma inherit_outcomes (l : List Member) : ∀ w : World σ, Obeys w (l.forM fun mem => do
      if mem.name ≠ Text.ofString "base" then let _ ← addMember T mem.name (some mem.type) mem.value)
    (fun _ w' => Appends T (l.filter fun mem => mem.name ≠ Text.ofString "base") w w')
    fun _ w' => ∃ l', l' <+: (l.filter fun mem => mem.name ≠ Text.ofString "base") ∧ Appends T l' w w' := by
  induction l with
  | nil => exact fun w => .pure (Unchanged.refl w).appends
  | cons mem l ih =>
    intro w
    by_cases hname : mem.name = Text.ofString "base"
    · have hskip : (mem :: l).filter (fun mem => mem.name ≠ Text.ofString "base") =
          l.filter fun mem => mem.name ≠ Text.ofString "base" := by simp [hname]
      rw [hskip]
      refine .bind (P := fun _ w' => w' = w) ?_ ?_
      · exact .ite (fun h => absurd hname h) fun _ => .pure rfl
      · rintro _ w1 rfl
        exact ih w1
    · have hkeep : (mem :: l).filter (fun mem => mem.name ≠ Text.ofString "base") =
          mem :: l.filter fun mem => mem.name ≠ Text.ofString "base" := by simp [hname]
      rw [hkeep]
      refine .bind (P := fun _ w' => Appends T [mem] w w') ?_ fun _ w1 h1 => ?_
      · refine .ite (fun _ => ?_) fun h => absurd hname h
        refine .bind ((addMember_appends mem).weaken fun _ w1 h1 => ?_) fun _ w1 h1 => .pure h1
        exact ⟨[], List.nil_prefix, h1.appends⟩
      · refine ((ih w1).mono fun _ w2 h2 => h1.trans h2).weaken fun _ w2 ⟨l', hl', h2⟩ => ?_
        exact ⟨mem :: l', by simpa using hl', h1.trans h2⟩

/-- What an extension that ends early leaves behind: the members before the one that was refused. -/
def Begun (T base : TypeId) (w w' : World σ) : Prop :=
  ∃ l, Appends T l w w' ∧ (l = [] ∨ ∃ B, w.view? base = some B ∧ l <+: extension base B)

/-- What a whole extension does. The base is found where the members ended before. -/
def Extended (T base : TypeId) (w w' : World σ) : Prop :=
  ∃ V B, w.view? T = some V ∧ w.view? base = some B ∧ Appends T (extension base B) w w' ∧
    memberIndex? T (Text.ofString "base") w' = .ok (some V.members.size) w'

lemma memberIndex?_eq (hV : w.view? T = some V) (name) :
    memberIndex? T name w = .ok V.places[name]? w := by
  have hout := view_outcomes (w := w) T
  unfold Obeys at hout
  unfold memberIndex?
  cases hx : view T w with
  | ok V' w1 =>
    rw [hx] at hout
    obtain ⟨rfl, hV'⟩ := hout
    cases Option.mem_unique hV hV'
    rw [bind_of_ok hx]
    rfl
  | error e w1 =>
    rw [hx] at hout
    cases hout.2.symm.trans hV

lemma extendStruct_outcomes (T base : TypeId) : Obeys w (extendStruct T (some base))
    (fun _ w' => Extended T base w w') fun _ w' => Begun T base w w' := by
  have hstill : ∀ w : World σ, Begun T base w w := fun w => ⟨[], (Unchanged.refl w).appends, .inl rfl⟩
  refine .bind ((view_outcomes T).weaken fun _ w1 h1 => h1.1 ▸ hstill w) ?_
  rintro V w1 ⟨rfl, hV⟩
  refine .ite (fun _ => .raise_bind (hstill w1)) fun _ => ?_
  refine .bind (P := fun l w' => w' = w1 ∧ ∃ B, w1.view? base = some B ∧ l = B.members.toList) ?_ ?_
  · refine .bind ((view_outcomes base).weaken fun _ w2 h2 => h2.1 ▸ hstill w1) ?_
    rintro B w2 ⟨rfl, hB⟩
    exact .pure ⟨rfl, B, hB, rfl⟩
  rintro l w2 ⟨rfl, B, hB, rfl⟩
  refine .bind ((addMember_appends ⟨Text.ofString "base", base, none⟩).weaken fun _ w3 h3 => ⟨[], h3.appends, .inl rfl⟩) ?_
  intro mem w3 h3
  refine ((inherit_outcomes B.members.toList w3).mono fun _ w4 h4 => ?_).weaken ?_
  · have happ : Appends T (extension base B) w2 w4 := h3.trans h4
    obtain ⟨V', hV', -, -, hplaces⟩ := happ.members V hV
    refine ⟨V, B, hV, hB, happ, ?_⟩
    rw [memberIndex?_eq hV', hplaces 0 _ rfl]
    rfl
  · rintro _ w4 ⟨l', hl', h4⟩
    exact ⟨_, h3.trans h4, .inr ⟨B, hB, by simpa [extension, inherited] using hl'⟩⟩

/-- Extending a struct, by its base or by the name of it, appends the base and what it has. If it fails, what had
gone in before the refused member stays. -/
theorem extension_appends (w : World σ) (T : TypeId) :
    (∀ base, Obeys w (extendStruct T (some base)) (fun _ w' => Extended T base w w') fun _ w' => Begun T base w w') ∧
    ∀ name, Obeys w (extendNamed T name)
      (fun _ w' => ∃ sym base, typeSymbol T.module name true w = .ok (some sym) w ∧ sym.type = some base ∧
        Extended T base w w') fun _ w' => ∃ base, Begun T base w w' := by
  refine ⟨extendStruct_outcomes T, fun name => ?_⟩
  have hstill : ∀ w : World σ, ∃ base, Begun T base w w := fun w => ⟨T, [], (Unchanged.refl w).appends, .inl rfl⟩
  unfold extendNamed
  refine .bind ((view_outcomes T).weaken fun _ w1 h1 => h1.1 ▸ hstill w) ?_
  rintro V w1 ⟨rfl, -⟩
  have hsame := Obeys.and .self (.of_along (typeSymbol_along (R := Eq) (w := w1) T.module name true))
  refine .bind (hsame.weaken fun _ w2 h2 => h2.2 ▸ hstill w1) ?_
  rintro sym w2 ⟨hsym, rfl, -⟩
  cases hs : sym.bind Symbol.type with
  | none => exact .throw (hstill w1)
  | some base =>
    obtain ⟨sym, rfl, hbase⟩ := Option.bind_eq_some_iff.1 hs
    refine .bind (P := fun _ w' => w' = w1) ?_ ?_
    · refine .bind ((view_outcomes base).weaken fun _ w3 h3 => h3.1 ▸ hstill w1) ?_
      rintro U w3 ⟨rfl, -⟩
      exact .pure rfl
    rintro k w3 rfl
    refine .ite (fun _ => .raise_bind (hstill _)) fun _ => ?_
    exact ((extendStruct_outcomes T base).mono fun _ w4 h4 => ⟨sym, base, hsym, hbase, h4⟩).weaken
      fun _ w4 h4 => ⟨base, h4⟩

end Act

end Arbor.Build
