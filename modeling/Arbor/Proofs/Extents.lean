import Mathlib
import Arbor.IR.Layout

/-! How types are laid out. Alignments are those of machine words and divide sizes; the fields of a struct
stand in order at multiples of their alignments, with no more room between them than that takes. -/

namespace Arbor.IR

open List Placement

variable {x : Extent} {p : Placement}
variable {α : Type} {i : Nat} {fields : List Extent}

lemma alignTo_eq (n) (ha : 0 < a) : alignTo n a = (n + a - 1) / a * a := by
  unfold alignTo
  split
  case isTrue h =>
    have hone : a = 1 := by omega
    subst hone
    simp
  case isFalse h => rfl

lemma dvd_alignTo (n) (ha : 0 < a) : a ∣ alignTo n a := by
  rw [alignTo_eq n ha]
  exact Nat.dvd_mul_left _ _

lemma le_alignTo (n) (ha : 0 < a) : n ≤ alignTo n a := by
  rw [alignTo_eq n ha]
  have hdiv := Nat.div_add_mod (n + a - 1) a
  have hmod := Nat.mod_lt (n + a - 1) ha
  rw [Nat.mul_comm] at hdiv
  omega

lemma alignTo_lt (n) (ha : 0 < a) : alignTo n a < n + a := by
  rw [alignTo_eq n ha]
  have hle := Nat.div_mul_le_self (n + a - 1) a
  omega

/-- Extents as they occur: the alignment is that of a machine word, and the size is a multiple of it. -/
structure Extent.Natural (x : Extent) : Prop where
  word : x.align ∈ [1, 2, 4, 8]
  dvd : x.align ∣ x.size

lemma pos_of_word (h : a ∈ [1, 2, 4, 8]) : 0 < a := by
  simp only [mem_cons, not_mem_nil, or_false] at h
  omega

lemma Width.extent_natural (w : Width) : w.extent.Natural := by
  cases w <;> exact ⟨by decide, by decide⟩

lemma Precision.extent_natural (p : Precision) : p.extent.Natural := by
  cases p <;> exact ⟨by decide, by decide⟩

namespace Placement

def ofFields (fields : List Extent) : Placement := fields.foldl add {}

/-- Fields that stand in order: each at a multiple of its alignment, none reaching into the next, and less room
before a field than its alignment. -/
structure Spaced (offsets : List Nat) (fields : List Extent) : Prop where
  length_eq : offsets.length = fields.length
  first : ∀ o, offsets[0]? = some o → o = 0
  aligned : ∀ (i : Nat) (x : Extent) (o : Nat), fields[i]? = some x → offsets[i]? = some o → x.align ∣ o
  apart : ∀ (i : Nat) (x : Extent) (o o' : Nat), fields[i]? = some x → offsets[i]? = some o →
    offsets[i + 1]? = some o' → o + x.size ≤ o'
  gap : ∀ (i : Nat) (x y : Extent) (o o' : Nat), fields[i]? = some x → fields[i + 1]? = some y →
    offsets[i]? = some o → offsets[i + 1]? = some o' → o' - (o + x.size) < y.align

structure Packed (p : Placement) (fields : List Extent) : Prop extends Spaced p.offsets fields where
  start : fields = [] → p.size = 0
  within : ∀ (i : Nat) (x : Extent) (o : Nat), fields[i]? = some x → p.offsets[i]? = some o → o + x.size ≤ p.size
  ends : ∀ (i : Nat) (x : Extent) (o : Nat), fields[i]? = some x → p.offsets[i]? = some o →
    i + 1 = fields.length → o + x.size = p.size
  align_eq : p.align = (fields.map Extent.align).foldr max 1

/-- Places of all fields, with the extent of the whole: the last field ends within it, and less room is left
behind that field than the alignment. -/
structure Lays (p : Placement) (fields : List Extent) : Prop extends Spaced p.offsets fields where
  within : ∀ (i : Nat) (x : Extent) (o : Nat), fields[i]? = some x → p.offsets[i]? = some o → o + x.size ≤ p.extent.size
  tail : ∀ (x : Extent) (o : Nat), fields.getLast? = some x → p.offsets.getLast? = some o →
    p.extent.size - (o + x.size) < p.extent.align
  empty : fields = [] → p.extent.size = 0
  align_eq : p.extent.align = (fields.map Extent.align).foldr max 1

lemma foldr_max_concat (as : List Nat) (a b) : (as ++ [a]).foldr max b = max (as.foldr max b) a := by
  induction as with
  | nil => simp [Nat.max_comm]
  | cons c as ih => simp only [cons_append, foldr_cons, ih, Nat.max_assoc]

lemma getElem?_concat_cases (h : (l ++ [a])[i]? = some b) : l[i]? = some b ∨ i = l.length ∧ a = b := by
  rcases Nat.lt_or_ge i l.length with hlt | hge
  · rw [List.getElem?_append_left hlt] at h
    exact .inl h
  · rw [List.getElem?_append_right hge] at h
    obtain ⟨hi, hb⟩ := List.getElem?_eq_some_iff.1 h
    simp only [length_singleton] at hi
    exact .inr ⟨by omega, by simpa using hb⟩

lemma lt_of_getElem?_some {l : List α} (h : l[i]? = some a) : i < l.length := (List.getElem?_eq_some_iff.1 h).1

lemma alignTo_zero (ha : 0 < a) : alignTo 0 a = 0 := by
  rw [alignTo_eq 0 ha, Nat.div_eq_of_lt (by omega), Nat.zero_mul]

lemma add_before (hlen : p.offsets.length = fields.length) (hy : (fields ++ [x])[i]? = some y)
    (ho : (p.add x).offsets[i]? = some o) (ho' : (p.add x).offsets[i + 1]? = some o') :
    fields[i]? = some y ∧ p.offsets[i]? = some o := by
  have hi : i < p.offsets.length := by
    have := lt_of_getElem?_some ho'
    simp only [add, length_append, length_singleton] at this
    omega
  rw [List.getElem?_append_left (hlen ▸ hi)] at hy
  rw [add, List.getElem?_append_left hi] at ho
  exact ⟨hy, ho⟩

lemma Packed.spaced_add (h : p.Packed fields) (hx : 0 < x.align) : Spaced (p.add x).offsets (fields ++ [x]) := by
  have hlen : p.offsets.length = fields.length := h.length_eq
  -- An index into the longer lists is an old one, or that of the new field in both.
  refine ⟨by simp [add, hlen], ?_, ?_, ?_, ?_⟩
  · intro o ho
    rcases getElem?_concat_cases ho with ho | ⟨hzero, rfl⟩
    · exact h.first o ho
    · have hnil : fields = [] := length_eq_zero_iff.1 (hlen.symm.trans hzero.symm)
      rw [h.start hnil]
      exact alignTo_zero hx
  · intro i y o hy ho
    rcases getElem?_concat_cases hy with hy | ⟨hi, rfl⟩ <;> rcases getElem?_concat_cases ho with ho | ⟨hj, rfl⟩
    · exact h.aligned i y o hy ho
    · have := lt_of_getElem?_some hy
      omega
    · have := lt_of_getElem?_some ho
      omega
    · exact dvd_alignTo p.size hx
  · intro i y o o' hy ho ho'
    obtain ⟨hy, ho⟩ := add_before hlen hy ho ho'
    rcases getElem?_concat_cases ho' with ho' | ⟨-, rfl⟩
    · exact h.apart i y o o' hy ho ho'
    · exact (h.within i y o hy ho).trans (le_alignTo p.size hx)
  · intro i y z o o' hy hz ho ho'
    obtain ⟨hy, ho⟩ := add_before hlen hy ho ho'
    rcases getElem?_concat_cases hz with hz | ⟨hj, rfl⟩ <;> rcases getElem?_concat_cases ho' with ho' | ⟨hk, rfl⟩
    · exact h.gap i y z o o' hy hz ho ho'
    · have := lt_of_getElem?_some hz
      omega
    · have := lt_of_getElem?_some ho'
      omega
    · rw [h.ends i y o hy ho hj]
      have := alignTo_lt p.size hx
      omega

lemma Packed.add (h : p.Packed fields) (hx : 0 < x.align) : (p.add x).Packed (fields ++ [x]) := by
  have hle := le_alignTo p.size hx
  have hlen : p.offsets.length = fields.length := h.length_eq
  refine ⟨h.spaced_add hx, by simp, ?_, ?_, ?_⟩
  · intro i y o hy ho
    -- Field and offset are both old or both the last; the mixed cases clash in length.
    rcases getElem?_concat_cases hy with hy | ⟨hi, rfl⟩ <;> rcases getElem?_concat_cases ho with ho | ⟨hj, rfl⟩
    · have := h.within i y o hy ho
      show o + y.size ≤ alignTo p.size x.align + x.size
      omega
    · have := lt_of_getElem?_some hy
      omega
    · have := lt_of_getElem?_some ho
      omega
    · exact Nat.le_refl _
  · intro i y o hy ho hi
    simp only [length_append, length_singleton, Nat.add_right_cancel_iff] at hi
    rw [List.getElem?_append_right (Nat.le_of_eq hi.symm), hi, Nat.sub_self] at hy
    rw [Placement.add, List.getElem?_append_right (by omega), hi, hlen, Nat.sub_self] at ho
    cases hy
    cases ho
    rfl
  · rw [map_append, map_singleton, foldr_max_concat, ← h.align_eq]
    rfl

lemma ofFields_packed (fields) (h : ∀ x ∈ fields, x.Natural) : (ofFields fields).Packed fields := by
  induction fields using List.reverseRecOn with
  | nil => exact ⟨⟨rfl, by simp [ofFields], by simp, by simp, by simp⟩, fun _ => rfl, by simp, by simp, rfl⟩
  | append_singleton fields x ih =>
    rw [ofFields, foldl_append]
    exact (ih fun y hy => h y (by simp [hy])).add (pos_of_word (h x (by simp)).word)

lemma word_foldr_max (fields : List Extent) (h : ∀ x ∈ fields, x.Natural) :
    (fields.map Extent.align).foldr max 1 ∈ [1, 2, 4, 8] := by
  induction fields with
  | nil => exact .head _
  | cons x fields ih =>
    have hx := (h x (by simp)).word
    have hrest := ih fun y hy => h y (by simp [hy])
    simp only [map_cons, foldr_cons, mem_cons, not_mem_nil, or_false] at hx hrest ⊢
    omega

lemma ofFields_natural (fields) (h : ∀ x ∈ fields, x.Natural) : (ofFields fields).extent.Natural := by
  have hword : (ofFields fields).align ∈ [1, 2, 4, 8] := by
    rw [(ofFields_packed fields h).align_eq]
    exact word_foldr_max fields h
  exact ⟨hword, dvd_alignTo _ (pos_of_word hword)⟩

lemma ofFields_lays (fields) (h : ∀ x ∈ fields, x.Natural) : (ofFields fields).Lays fields := by
  have hp := ofFields_packed fields h
  have hpos : 0 < (ofFields fields).align := pos_of_word (ofFields_natural fields h).word
  have hlt := alignTo_lt (ofFields fields).size hpos
  refine ⟨hp.toSpaced, ?_, ?_, ?_, hp.align_eq⟩
  · intro i x o hx ho
    exact (hp.within i x o hx ho).trans (le_alignTo (ofFields fields).size hpos)
  · intro x o hx ho
    rw [List.getLast?_eq_getElem?] at hx ho
    have hlast := lt_of_getElem?_some hx
    have hend := hp.ends _ x o hx (hp.length_eq ▸ ho) (by omega)
    show alignTo _ _ - _ < (ofFields fields).align
    omega
  · rintro rfl
    rfl

lemma exists_of_forall₂_of_mem {R : α → β → Prop} {bs : List β}
    (h : Forall₂ R as bs) {b : β} (hb : b ∈ bs) : ∃ a ∈ as, R a b := by
  induction h with
  | nil => cases hb
  | cons hab _ ih =>
    rcases mem_cons.1 hb with rfl | hb
    · exact ⟨_, .head _, hab⟩
    · obtain ⟨a, ha, hR⟩ := ih hb
      exact ⟨a, .tail _ ha, hR⟩

lemma foldlM_add_eq_ok {extent : Ty → Except Refusal Extent} :
    ts.foldlM (fun p t => do pure (p.add (← extent t))) p = .ok q ↔ ∃ xs, Forall₂ (fun t x => extent t = .ok x) ts xs ∧
      q = xs.foldl add p := by
  induction ts generalizing p with
  | nil =>
    constructor
    · rintro ⟨⟩
      exact ⟨[], .nil, rfl⟩
    · rintro ⟨xs, ⟨⟩, rfl⟩
      rfl
  | cons t ts ih =>
    rw [foldlM_cons]
    constructor
    · intro h
      cases hx : extent t with
      | error e =>
        rw [hx] at h
        cases h
      | ok x =>
        rw [hx] at h
        obtain ⟨xs, hxs, rfl⟩ := ih.1 h
        exact ⟨x :: xs, .cons hx hxs, rfl⟩
    · rintro ⟨ys, hys, rfl⟩
      cases hys with
      | @cons _ x _ xs hx hxs =>
        rw [hx]
        exact ih.2 ⟨xs, hxs, rfl⟩

end Placement

namespace Store

variable {s : Store} {inside : List Handle} {h : Handle}

lemma layout_induction {motive : List Handle → Ty → Prop}
    (leaf : ∀ inside t, (∀ n e, t ≠ .array n e) → (∀ h, t ≠ .struct h) → motive inside t)
    (array : ∀ inside n e, motive inside e → motive inside (.array n e))
    (struct : ∀ inside h, (∀ i, s.struct? h = some i → h ∉ inside → ∀ t, motive (h :: inside) t) →
      motive inside (.struct h)) : ∀ inside t, motive inside t := by
  apply extentIn.induct s motive fun inside h => ∀ i, s.struct? h = some i → h ∉ inside → ∀ t, motive (h :: inside) t
  case case1 => exact fun inside w => leaf _ _ (by simp) (by simp)
  case case2 => exact fun inside p => leaf _ _ (by simp) (by simp)
  case case3 => exact fun inside e => leaf _ _ (by simp) (by simp)
  case case4 => exact fun inside r ps v => leaf _ _ (by simp) (by simp)
  case case5 => exact array
  case case6 => exact fun inside h hnone => struct inside h fun i hi => by simp [hnone] at hi
  case case7 => exact fun inside h _ _ _ ih => struct inside h ih
  case case8 => exact fun inside h _ _ _ ih => struct inside h ih
  case case9 => exact fun inside t _ _ _ _ harray hstruct => leaf inside t harray hstruct
  case case10 => exact fun inside h hnone i hi => by simp [hnone] at hi
  case case11 => exact fun inside h i _ hmem _ _ hnot => absurd hmem hnot
  case case12 => exact fun inside h i _ _ ih _ _ _ => ih

lemma extentIn_array : s.extentIn inside (.array n e) = .ok x ↔ n ≤ maxArrayLength ∧ ∃ y, s.extentIn inside e = .ok y ∧
    x = ⟨y.size * n, y.align⟩ := by
  rw [extentIn]
  cases s.extentIn inside e with
  | error r =>
    constructor
    · rintro ⟨⟩
    · rintro ⟨-, y, hy, -⟩
      cases hy
  | ok y =>
    split
    case isTrue hn =>
      constructor
      · rintro ⟨⟩
        exact ⟨hn, y, rfl, rfl⟩
      · rintro ⟨-, z, hz, rfl⟩
        cases hz
        rfl
    case isFalse hn =>
      constructor
      · rintro ⟨⟩
      · rintro ⟨hle, -⟩
        exact absurd hle hn

lemma placementIn_eq_ok : s.placementIn inside h = .ok p ↔ ∃ i xs, s.struct? h = some i ∧ h ∉ inside ∧
      Forall₂ (fun t x => s.extentIn (h :: inside) t = .ok x) (i.fields.getD []) xs ∧ p = .ofFields xs := by
  rw [placementIn]
  split
  case h_1 hnone =>
    constructor
    · rintro ⟨⟩
    · rintro ⟨i, xs, hi, -⟩
      simp [hnone] at hi
  case h_2 i hi =>
    split
    case isTrue hmem =>
      constructor
      · rintro ⟨⟩
      · rintro ⟨i, xs, -, hnot, -⟩
        exact absurd hmem hnot
    case isFalse hmem =>
      rw [foldlM_add_eq_ok]
      constructor
      · rintro ⟨xs, hxs, rfl⟩
        exact ⟨i, xs, hi, hmem, hxs, rfl⟩
      · rintro ⟨j, xs, hj, -, hxs, rfl⟩
        cases Option.mem_unique hi hj
        exact ⟨xs, hxs, rfl⟩

def body? (s : Store) (h : Handle) : Option (List Ty) := (s.struct? h).bind StructInfo.fields

lemma body?_eq_some {fields : List Ty} :
    s.body? h = some fields ↔ ∃ i, s.struct? h = some i ∧ i.fields = some fields := Option.bind_eq_some_iff

lemma extentIn_struct_eq {fields : List Ty} (hb : s.body? h = some fields) :
    s.extentIn inside (.struct h) = (s.placementIn inside h).map Placement.extent := by
  obtain ⟨i, hi, hfields⟩ := body?_eq_some.1 hb
  rw [extentIn]
  simp only [hi, hfields]
  cases s.placementIn inside h <;> rfl

lemma extentIn_struct : s.extentIn inside (.struct h) = .ok x ↔ ∃ fields xs, s.body? h = some fields ∧ h ∉ inside ∧
      Forall₂ (fun t y => s.extentIn (h :: inside) t = .ok y) fields xs ∧ x = (Placement.ofFields xs).extent := by
  cases hb : s.body? h with
  | none =>
    constructor
    · intro hx
      rw [extentIn] at hx
      cases hi : s.struct? h with
      | none => simp only [hi] at hx; cases hx
      | some i =>
        have hnone : i.fields = none := by simpa [body?, hi] using hb
        simp only [hi, hnone] at hx
        cases hx
    · rintro ⟨fields, xs, ⟨⟩, -⟩
  | some fields =>
    rw [extentIn_struct_eq hb]
    obtain ⟨i, hi, hfields⟩ := body?_eq_some.1 hb
    constructor
    · intro hx
      cases hp : s.placementIn inside h with
      | error r => rw [hp] at hx; cases hx
      | ok p =>
        rw [hp] at hx
        cases hx
        obtain ⟨j, xs, hj, hnot, hxs, rfl⟩ := placementIn_eq_ok.1 hp
        cases Option.mem_unique hi hj
        exact ⟨fields, xs, rfl, hnot, by simpa [hfields] using hxs, rfl⟩
    · rintro ⟨fields', xs, heq, hnot, hxs, rfl⟩
      cases heq
      rw [placementIn_eq_ok.2 ⟨i, xs, hi, hnot, by simpa [hfields] using hxs, rfl⟩]
      rfl

lemma extentIn_mono {t : Ty} (hsub : outside ⊆ inside) (hx : s.extentIn inside t = .ok x) :
    s.extentIn outside t = .ok x := by
  induction inside, t using layout_induction generalizing outside x with
  | leaf inside t harray hstruct =>
    cases t with
    | array n e => exact absurd rfl (harray n e)
    | struct h => exact absurd rfl (hstruct h)
    | _ => simpa only [extentIn] using hx
  | array inside n e ih =>
    obtain ⟨hn, y, hy, rfl⟩ := extentIn_array.1 hx
    exact extentIn_array.2 ⟨hn, y, ih hsub hy, rfl⟩
  | struct inside h ih =>
    obtain ⟨fields, xs, hb, hnot, hxs, rfl⟩ := extentIn_struct.1 hx
    obtain ⟨i, hi, -⟩ := body?_eq_some.1 hb
    have hfields := hxs.imp fun t y hy => ih i hi hnot t (cons_subset_cons h hsub) hy
    exact extentIn_struct.2 ⟨fields, xs, hb, fun hmem => hnot (hsub hmem), hfields, rfl⟩

lemma extentIn_natural (hx : s.extentIn inside t = .ok x) : x.Natural := by
  induction inside, t using layout_induction generalizing x with
  | leaf inside t harray hstruct =>
    cases t with
    | int w =>
      rw [extentIn] at hx
      exact Except.ok.inj hx ▸ w.extent_natural
    | float p =>
      rw [extentIn] at hx
      exact Except.ok.inj hx ▸ p.extent_natural
    | ptr _ | func _ _ _ =>
      rw [extentIn] at hx
      exact Except.ok.inj hx ▸ ⟨by decide, by decide⟩
    | array n e => exact absurd rfl (harray n e)
    | struct h => exact absurd rfl (hstruct h)
    | void | label =>
      simp only [extentIn] at hx
      cases hx
  | array inside n e ih =>
    obtain ⟨-, y, hy, rfl⟩ := extentIn_array.1 hx
    exact ⟨(ih hy).word, (ih hy).dvd.mul_right n⟩
  | struct inside h ih =>
    obtain ⟨fields, xs, hb, hnot, hxs, rfl⟩ := extentIn_struct.1 hx
    obtain ⟨i, hi, -⟩ := body?_eq_some.1 hb
    apply ofFields_natural
    intro y hy
    obtain ⟨t, -, ht⟩ := exists_of_forall₂_of_mem hxs hy
    exact ih i hi hnot t ht

/-- Layout is sound: whatever has a size has a word's alignment that divides it, and the fields of a struct stand
apart, aligned and with no more room between and behind them than their alignments ask for. -/
theorem layout_sound (s : Store) : (∀ t x, s.extent t = .ok x → x.Natural) ∧
    ∀ h p, s.placement h = .ok p → ∃ i xs, s.struct? h = some i ∧
      List.Forall₂ (fun t x => s.extent t = .ok x) (i.fields.getD []) xs ∧ p.Lays xs ∧
        (i.fields.isSome → s.extent (.struct h) = .ok p.extent) := by
  refine ⟨fun t x hx => extentIn_natural hx, fun h p hp => ?_⟩
  have hstruct : ∀ {fields : List Ty}, s.body? h = some fields → s.extent (.struct h) = .ok p.extent := by
    intro fields hb
    rw [extent, extentIn_struct_eq hb, show s.placementIn [] h = .ok p from hp]
    rfl
  obtain ⟨i, xs, hi, -, hxs, rfl⟩ := placementIn_eq_ok.1 hp
  -- The struct is open while its fields are sized, which does not matter for what they come to.
  have hfields := hxs.imp fun t x hx => extentIn_mono (List.nil_subset _) hx
  have hnatural : ∀ x ∈ xs, x.Natural := by
    intro x hx
    obtain ⟨t, -, ht⟩ := Placement.exists_of_forall₂_of_mem hxs hx
    exact extentIn_natural ht
  refine ⟨i, xs, hi, hfields, Placement.ofFields_lays xs hnatural, fun hsome => ?_⟩
  obtain ⟨fields, hf⟩ := Option.isSome_iff_exists.1 hsome
  exact hstruct (body?_eq_some.2 ⟨i, hi, hf⟩)

def nestedStore : Store where
  entries := #[.reserved, .struct { name := "inner", label := "inner", module := 0, fields := some [.i8, .i64, .i32] },
    .struct { name := "outer", label := "outer", module := 0,
              fields := some [.i8, .array 2 (.struct 1), .array 3 .i16] }]
  types := {}
  values := {}

lemma nestedStore_inner (inside) (h : 1 ∉ inside) : nestedStore.extentIn inside (.struct 1) = .ok ⟨24, 8⟩ := by
  refine extentIn_struct.2 ⟨[.i8, .i64, .i32], [⟨1, 1⟩, ⟨8, 8⟩, ⟨4, 4⟩], rfl, h, ?_, rfl⟩
  exact .cons (by rw [extentIn]; rfl) (.cons (by rw [extentIn]; rfl) (.cons (by rw [extentIn]; rfl) .nil))

lemma nestedStore_outer : nestedStore.placement 2 = .ok ⟨[0, 8, 56], 62, 8⟩ := by
  refine placementIn_eq_ok.2 ⟨_, [⟨1, 1⟩, ⟨48, 8⟩, ⟨6, 2⟩], rfl, by simp, ?_, rfl⟩
  have hinner := nestedStore_inner [2] (by simp)
  exact .cons (by rw [extentIn]; rfl) (.cons (extentIn_array.2 ⟨by decide, _, hinner, rfl⟩)
    (.cons (extentIn_array.2 ⟨by decide, ⟨2, 2⟩, by rw [extentIn]; rfl, rfl⟩) .nil))

theorem layout_sound_nested : (⟨24, 8⟩ : Extent).Natural ∧ ∃ i xs, nestedStore.struct? 2 = some i ∧
      List.Forall₂ (fun t x => nestedStore.extent t = .ok x) (i.fields.getD []) xs ∧
        (⟨[0, 8, 56], 62, 8⟩ : Placement).Lays xs ∧
          (i.fields.isSome → nestedStore.extent (.struct 2) = .ok ⟨64, 8⟩) :=
  ⟨(layout_sound nestedStore).1 (.struct 1) _ (nestedStore_inner [] (by simp)),
    (layout_sound nestedStore).2 2 _ nestedStore_outer⟩

end Store
end Arbor.IR
