import Arbor.Proofs.Code
import Arbor.Proofs.Extents

/-! What a type holds by value. Sizing follows struct fields and array elements and stops at pointers; it comes
to an end on every store, and it fails for no other reason than what it meets on the way. -/

namespace Arbor.IR

open Relation

variable {x : Extent} {i : StructInfo}

namespace Store

variable {s : Store} {inside : List Handle} {t u : Ty} {h : Handle}

/-- A part of a value of the first type is a value of the second. -/
inductive Part (s : Store) : Ty → Ty → Prop where
  | elem (n : Nat) (e : Ty) : Part s (.array n e) e
  | field {h : Handle} {fields : List Ty} {t : Ty} (hb : s.body? h = some fields) (ht : t ∈ fields) :
      Part s (.struct h) t

def Sizeless (s : Store) : Ty → Prop
  | .void | .label => True
  | .array n _ => maxArrayLength < n
  | .struct h => s.body? h = none
  | .int _ | .float _ | .ptr _ | .func .. => False

def ContainsItself (s : Store) (h : Handle) : Prop := TransGen s.Part (.struct h) (.struct h)

structure Finite (s : Store) (t : Ty) : Prop where
  sized : ∀ u, ReflTransGen s.Part t u → ¬s.Sizeless u
  acyclic : ∀ h, ReflTransGen s.Part t (.struct h) → ¬s.ContainsItself h

lemma Finite.part (hf : s.Finite t) (hp : s.Part t u) : s.Finite u :=
  ⟨fun v hv => hf.sized v (.head hp hv), fun h hh => hf.acyclic h (.head hp hh)⟩

lemma forall₂_of_forall_exists {R : α → β → Prop} {as : List α} (h : ∀ a ∈ as, ∃ b, R a b) :
    ∃ bs, List.Forall₂ R as bs := by
  induction as with
  | nil => exact ⟨[], .nil⟩
  | cons a as ih =>
    obtain ⟨b, hb⟩ := h a (by simp)
    obtain ⟨bs, hbs⟩ := ih fun a' ha' => h a' (by simp [ha'])
    exact ⟨b :: bs, .cons hb hbs⟩

lemma Finite.extentIn (hf : s.Finite t) (hopen : ∀ h ∈ inside, ¬ReflTransGen s.Part t (.struct h)) :
    ∃ x, s.extentIn inside t = .ok x := by
  induction inside, t using layout_induction with
  | leaf inside t harray hstruct =>
    cases t with
    | array n e => exact absurd rfl (harray n e)
    | struct h => exact absurd rfl (hstruct h)
    | void | label => exact absurd trivial (hf.sized _ .refl)
    | int _ | float _ | ptr _ | func _ _ _ =>
      rw [Store.extentIn]
      exact ⟨_, rfl⟩
  | array inside n e ih =>
    have hn : n ≤ maxArrayLength := Nat.le_of_not_lt (hf.sized _ .refl)
    obtain ⟨y, hy⟩ := ih (hf.part (.elem n e)) fun h hh hr => hopen h hh (.head (.elem n e) hr)
    exact ⟨_, extentIn_array.2 ⟨hn, y, hy, rfl⟩⟩
  | struct inside h ih =>
    obtain ⟨fields, hb⟩ := Option.ne_none_iff_exists'.1 (hf.sized (.struct h) .refl)
    obtain ⟨i, hi, -⟩ := body?_eq_some.1 hb
    have hnot : h ∉ inside := fun hmem => hopen h hmem .refl
    have hfields : ∀ t ∈ fields, ∃ x, s.extentIn (h :: inside) t = .ok x := by
      intro t ht
      have hp : s.Part (.struct h) t := .field hb ht
      apply ih i hi hnot t (hf.part hp)
      intro k hk hr
      rcases List.mem_cons.1 hk with rfl | hk
      · exact hf.acyclic k .refl (.head' hp hr)
      · exact hopen k hk (.head hp hr)
    obtain ⟨xs, hxs⟩ := forall₂_of_forall_exists hfields
    exact ⟨_, extentIn_struct.2 ⟨fields, xs, hb, hnot, hxs, rfl⟩⟩

lemma extentIn_part (hx : s.extentIn inside t = .ok x) (hp : s.Part t u) :
    ∃ inner y, inside ⊆ inner ∧ (∀ h, t = .struct h → h ∈ inner) ∧ s.extentIn inner u = .ok y := by
  cases hp with
  | elem n e =>
    obtain ⟨-, y, hy, -⟩ := extentIn_array.1 hx
    exact ⟨inside, y, List.Subset.refl _, by simp, hy⟩
  | @field h fields _ hb ht =>
    obtain ⟨fields', xs, hb', -, hxs, -⟩ := extentIn_struct.1 hx
    cases Option.mem_unique hb hb'
    obtain ⟨y, -, hy⟩ := Placement.exists_of_forall₂_of_mem hxs.flip ht
    exact ⟨h :: inside, y, List.subset_cons_self _ _, by simp, hy⟩

lemma extentIn_reach (hx : s.extentIn inside t = .ok x) (hr : ReflTransGen s.Part t u) :
    (∃ y, s.extentIn inside u = .ok y) ∧ ∀ h, u = .struct h → h ∉ inside := by
  -- From the front: each step down may enter a struct, so the list of entered structs varies.
  induction hr using ReflTransGen.head_induction_on generalizing inside x with
  | refl =>
    refine ⟨⟨x, hx⟩, ?_⟩
    rintro h rfl
    obtain ⟨-, -, -, hnot, -⟩ := extentIn_struct.1 hx
    exact hnot
  | head hp _ ih =>
    obtain ⟨inner, y, hsub, -, hy⟩ := extentIn_part hx hp
    obtain ⟨⟨z, hz⟩, hclosed⟩ := ih hy
    exact ⟨⟨z, extentIn_mono hsub hz⟩, fun h hu hmem => hclosed h hu (hsub hmem)⟩

lemma finite_of_extent (hx : s.extent t = .ok x) : s.Finite t := by
  constructor
  · intro u hr hu
    obtain ⟨⟨y, hy⟩, -⟩ := extentIn_reach hx hr
    cases u with
    | void | label =>
      simp only [Store.extentIn] at hy
      cases hy
    | array n e =>
      obtain ⟨hn, -⟩ := extentIn_array.1 hy
      exact absurd hn (Nat.not_le_of_lt hu)
    | struct h =>
      obtain ⟨fields, xs, hb, -⟩ := extentIn_struct.1 hy
      rw [show s.body? h = none from hu] at hb
      cases hb
    | int _ | float _ | ptr _ | func _ _ _ => exact hu
  · intro h hr hself
    obtain ⟨⟨y, hy⟩, -⟩ := extentIn_reach hx hr
    -- The cycle starts with a field, which is sized with the struct open.
    obtain ⟨u, hp, hback⟩ := TransGen.head'_iff.1 hself
    obtain ⟨inner, z, -, hmem, hz⟩ := extentIn_part hy hp
    exact (extentIn_reach hz hback).2 h rfl (hmem h rfl)

lemma extent_ok_iff : (∃ x, s.extent t = .ok x) ↔ s.Finite t :=
  ⟨fun ⟨_, hx⟩ => finite_of_extent hx, fun hf => hf.extentIn (by simp)⟩

def withFields (s : Store) (h : Handle) (i : StructInfo) (fields : List Ty) : Store :=
  s.setStruct h { i with fields := some fields }

lemma body?_withFields (hi : s.struct? h = some i) (fields k) :
    (s.withFields h i fields).body? k = if k = h then some fields else s.body? k := by
  have hlt : h < s.entries.size := lt_size_of_entry_ne fun hr => by simp [struct?, hr] at hi
  have hentry : (s.withFields h i fields).entry k =
      if k = h then .struct { i with fields := some fields } else s.entry k := by
    rw [withFields, setStruct, entry_setIfInBounds]
    simp [hlt]
  rw [body?, body?, struct?, struct?, hentry]
  by_cases hk : k = h
  · simp only [if_pos hk]
    rfl
  · simp only [if_neg hk]

lemma sizeless_withFields (hb : s.body? h = some old) (hi : s.struct? h = some i) (fields) :
    (s.withFields h i fields).Sizeless u ↔ s.Sizeless u := by
  cases u with
  | struct k =>
    show (s.withFields h i fields).body? k = none ↔ s.body? k = none
    rw [body?_withFields hi]
    split
    case isTrue hk => simp [hk, hb]
    case isFalse => rfl
  | _ => rfl

lemma part_withFields (hb : s.body? h = some old) (hi : s.struct? h = some i)
    (hsub : fields ⊆ old) (hp : (s.withFields h i fields).Part t u) : s.Part t u := by
  cases hp with
  | elem n => exact .elem n u
  | @field k new _ hk hu =>
    rw [body?_withFields hi] at hk
    split at hk
    case isTrue heq =>
      cases hk
      exact .field (heq ▸ hb) (hsub hu)
    case isFalse => exact .field hk hu

lemma Finite.withFields (hf : s.Finite t) (hi : s.struct? h = some i)
    (hb : i.fields = some old) (hsub : fields ⊆ old) : (s.withFields h i fields).Finite t := by
  have hbody : s.body? h = some old := body?_eq_some.2 ⟨i, hi, hb⟩
  have hpart : (s.withFields h i fields).Part ≤ s.Part := fun _ _ => part_withFields hbody hi hsub
  constructor
  · intro u hr hu
    exact hf.sized u (ReflTransGen.mono hpart _ _ hr) ((sizeless_withFields hbody hi fields).1 hu)
  · intro k hr hself
    exact hf.acyclic k (ReflTransGen.mono hpart _ _ hr) (TransGen.mono hpart _ _ hself)

/-- Sizing fails exactly where something of the type, not counting what is behind pointers, has no size of its own
or is a struct that holds itself. How often a field is repeated in a body makes no difference to that. -/
theorem extent_fails_iff (s : Store) (t : Ty) : ((∃ e, s.extent t = .error e) ↔
      ∃ u, ReflTransGen s.Part t u ∧ (s.Sizeless u ∨ ∃ h, u = .struct h ∧ s.ContainsItself h)) ∧
    ∀ h i old fields, s.struct? h = some i → i.fields = some old → fields ⊆ old →
      (∃ x, s.extent t = .ok x) → ∃ x, (s.withFields h i fields).extent t = .ok x := by
  constructor
  · have hok : (∃ e, s.extent t = .error e) ↔ ¬∃ x, s.extent t = .ok x := by
      cases s.extent t <;> simp
    rw [hok, extent_ok_iff]
    constructor
    · intro hnot
      by_contra hnone
      refine hnot ⟨fun u hr hu => hnone ⟨u, hr, .inl hu⟩, fun h hr hself => hnone ⟨_, hr, .inr ⟨h, rfl, hself⟩⟩⟩
    · rintro ⟨u, hr, hu | ⟨h, rfl, hself⟩⟩ hf
      · exact hf.sized u hr hu
      · exact hf.acyclic h hr hself
  · intro h i old fields hi hb hsub hx
    exact extent_ok_iff.2 ((extent_ok_iff.1 hx).withFields hi hb hsub)

def cyclicStore : Store where
  entries := #[.reserved,
    .struct { name := "cell", label := "cell", module := 0, fields := some [.i64, .ptr (.struct 1)] },
    .struct { name := "pair", label := "pair", module := 0, fields := some [.struct 1] },
    .struct { name := "loop", label := "loop", module := 0, fields := some [.i8, .array 2 (.struct 3)] }]
  types := {}
  values := {}

lemma cyclicStore_pair : cyclicStore.extent (.struct 2) = .ok ⟨16, 8⟩ := by
  have hcell : cyclicStore.extentIn [2] (.struct 1) = .ok ⟨16, 8⟩ := by
    refine extentIn_struct.2 ⟨[.i64, .ptr (.struct 1)], [⟨8, 8⟩, ⟨8, 8⟩], rfl, by simp, ?_, rfl⟩
    exact .cons (by rw [Store.extentIn]; rfl) (.cons (by rw [Store.extentIn]; rfl) .nil)
  exact extentIn_struct.2 ⟨[.struct 1], [⟨16, 8⟩], rfl, by simp, .cons hcell .nil, rfl⟩

lemma cyclicStore_loop : cyclicStore.ContainsItself 3 := by
  have hbody : cyclicStore.body? 3 = some [.i8, .array 2 (.struct 3)] := rfl
  have hfield : cyclicStore.Part (.struct 3) (.array 2 (.struct 3)) := .field hbody (by simp)
  exact .head hfield (.single (.elem 2 (.struct 3)))

/-- The struct that holds itself has no size; two cells side by side have one as one cell has. -/
theorem extent_fails_iff_cyclic : (∃ e, cyclicStore.extent (.struct 3) = .error e) ∧
    ∃ i, cyclicStore.struct? 2 = some i ∧
      ∃ x, (cyclicStore.withFields 2 i [.struct 1, .struct 1]).extent (.struct 2) = .ok x :=
  ⟨(extent_fails_iff cyclicStore (.struct 3)).1.2 ⟨_, .refl, .inr ⟨3, rfl, cyclicStore_loop⟩⟩,
    _, rfl, (extent_fails_iff cyclicStore (.struct 2)).2 2 _ [.struct 1] [.struct 1, .struct 1] rfl rfl (by simp)
      ⟨_, cyclicStore_pair⟩⟩

end Store
end Arbor.IR
