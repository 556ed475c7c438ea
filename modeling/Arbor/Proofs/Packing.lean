import Mathlib
import Arbor.Msgpack.Item

/-! What is written is read back: an item whose numbers and lengths fit their headers is the item at
the start of its bytes, whatever follows them. -/

namespace Arbor.Msgpack

open List Option Nat

def lengthLimit : Nat := 0x100000000

inductive Item.Fits : Item → Prop where
  | nil : Fits .nil
  | bool (b : Bool) : Fits (.bool b)
  | int {bytes n : Nat} (width : bytes = 1 ∨ bytes = 2 ∨ bytes = 8) (bound : n < 256 ^ bytes) : Fits (.int bytes n)
  | float (bits : UInt64) : Fits (.float bits)
  | text {t : Text} (length : t.length < lengthLimit) : Fits (.text t)
  | list {l : List Item} (length : l.length < lengthLimit) (items : ∀ i ∈ l, Fits i) : Fits (.list l)
  | map {l : List (Text × Item)} (length : l.length < lengthLimit) (keys : ∀ e ∈ l, e.1.length < lengthLimit)
      (values : ∀ e ∈ l, Fits e.2) : Fits (.map l)

/-! ## Numbers and lengths -/

@[simp] lemma length_natBytes (n k) : (natBytes n k).length = n := by
  induction n generalizing k with
  | zero => rfl
  | succ n ih => simp [natBytes, ih]

lemma foldl_natBytes (n k) : (natBytes n k).foldl (fun a b => a * 256 + b.toNat) 0 = k % 256 ^ n := by
  induction n generalizing k with
  | zero => simp [natBytes, mod_one]
  | succ n ih =>
    have hlow : (k % 256).toUInt8.toNat = k % 256 := by
      simp
    rw [natBytes, foldl_append, ih, foldl_cons, foldl_nil, pow_succ', mod_mul]
    omega

lemma takeBytes?_append (t rest) : takeBytes? t.length (t ++ rest) = some (t, rest) := by
  induction t with
  | nil => rfl
  | cons b t ih => simp [takeBytes?, ih]

lemma takeNat?_natBytes (h : k < 256 ^ n) (rest) : takeNat? n (natBytes n k ++ rest) = some (k, rest) := by
  have htake := takeBytes?_append (natBytes n k) rest
  rw [length_natBytes] at htake
  simp only [takeNat?, htake, map_some, foldl_natBytes, mod_eq_of_lt h]

lemma toNat_code (h : n < 256) : n.toUInt8.toNat = n := by
  simp [h]

lemma head?_map (h : n < 16) : head? (0x80 + n) = some (.map n) := by
  unfold head?
  rw [if_neg (by omega), if_pos (by omega), Nat.add_sub_cancel_left]

lemma head?_list (h : n < 16) : head? (0x90 + n) = some (.list n) := by
  unfold head?
  rw [if_neg (by omega), if_neg (by omega), if_pos (by omega), Nat.add_sub_cancel_left]

lemma head?_text (h : n < 32) : head? (0xA0 + n) = some (.text n) := by
  unfold head?
  rw [if_neg (by omega), if_neg (by omega), if_neg (by omega), if_pos (by omega), Nat.add_sub_cancel_left]

lemma lengthHeader_cases (base few one two four) (h : n < lengthLimit) :
    (n < few ∧ lengthHeader base few one two four n = [(base + n).toUInt8]) ∨
    (∃ code, one = some code ∧ n < 256 ^ 1 ∧ lengthHeader base few one two four n = code :: natBytes 1 n) ∨
    (n < 256 ^ 2 ∧ lengthHeader base few one two four n = two :: natBytes 2 n) ∨
    (n < 256 ^ 4 ∧ lengthHeader base few one two four n = four :: natBytes 4 n) := by
  have h4 : n < 256 ^ 4 := h
  unfold lengthHeader
  by_cases hfew : n < few
  · exact .inl ⟨hfew, by simp [hfew]⟩
  · refine .inr ?_
    by_cases hwide : n < 0x10000
    · cases one with
      | none => exact .inr (.inl ⟨hwide, by simp [hfew, hwide]⟩)
      | some code =>
        by_cases hone : n < 256
        · exact .inl ⟨code, rfl, hone, by simp [hfew, hone]⟩
        · exact .inr (.inl ⟨hwide, by simp [hfew, hone, hwide]⟩)
    · refine .inr (.inr ⟨h4, ?_⟩)
      cases one with
      | none => simp [hfew, hwide]
      | some code => simp [hfew, hwide, show ¬ n < 256 by omega]

lemma length_lengthHeader_pos (base few one two four n) : 0 < (lengthHeader base few one two four n).length := by
  by_cases hfew : n < few
  · simp [lengthHeader, hfew]
  · by_cases hwide : n < 0x10000
    all_goals
      cases one with
      | none => simp [lengthHeader, hfew, hwide]
      | some code => by_cases hone : n < 256 <;> simp [lengthHeader, hfew, hwide, hone]

/-! ## Items -/

lemma length_write_pos (i) : 0 < (write i).length := by
  cases i with
  | int bytes n =>
    rw [write]
    unfold writeInt
    split <;> simp
  | text t =>
    have := length_lengthHeader_pos 0xA0 32 (some 0xD9) 0xDA 0xDB t.length
    simp [write, writeText]
    omega
  | list l =>
    have := length_lengthHeader_pos 0x90 16 none 0xDC 0xDD l.length
    simp [write]
    omega
  | map l =>
    have := length_lengthHeader_pos 0x80 16 none 0xDE 0xDF l.length
    simp [write]
    omega
  | _ => simp [write]

lemma length_write_le_writeAll (h : i ∈ l) : (write i).length ≤ (writeAll l).length := by
  induction h with
  | head l => simp [writeAll]
  | tail j _ ih =>
    simp only [writeAll, length_append]
    omega

lemma length_write_lt_list (h : i ∈ l) : (write i).length < (write (.list l)).length := by
  have hpos := length_lengthHeader_pos 0x90 16 none 0xDC 0xDD l.length
  have hle := length_write_le_writeAll h
  simp only [write, length_append]
  omega

lemma length_write_lt_map (h : e ∈ l) : (write e.2).length < (write (.map l)).length := by
  have hle : (write e.2).length ≤ (writeEntries l).length := by
    induction h with
    | head | tail =>
      simp only [writeEntries, length_append]
      omega
  have hpos := length_lengthHeader_pos 0x80 16 none 0xDE 0xDF l.length
  simp only [write, length_append]
  omega

lemma readItem_text (h : t.length < lengthLimit) (fuel rest) :
    readItem (fuel + 1) (writeText t ++ rest) = some (.text t, rest) := by
  have htake := takeBytes?_append t rest
  unfold writeText
  rcases lengthHeader_cases 0xA0 32 (some 0xD9) 0xDA 0xDB h with
    ⟨hn, he⟩ | ⟨code, hcode, hn, he⟩ | ⟨hn, he⟩ | ⟨hn, he⟩
  · rw [he]
    simp only [cons_append, readItem, toNat_code (show 0xA0 + t.length < 256 by omega), head?_text hn]
    simp [htake]
  all_goals
    rw [he]
    have hnat := takeNat?_natBytes hn (t ++ rest)
    try cases hcode
    simp [readItem, head?, hnat, htake]

def flat : List (Text × Item) → List Item
  | [] => []
  | (key, i) :: rest => .text key :: i :: flat rest

lemma length_flat (l) : (flat l).length = 2 * l.length := by
  induction l with
  | nil => rfl
  | cons e l ih =>
    simp only [flat, length_cons]
    omega

lemma writeAll_flat (l) : writeAll (flat l) = writeEntries l := by
  induction l with
  | nil => rfl
  | cons e l ih => simp [flat, writeAll, writeEntries, write, ih]

lemma mapOf_flat (l) : mapOf (flat l) = .map l := by
  induction l with
  | nil => rfl
  | cons e l ih => simp [flat, mapOf, ih]

def Readable (i : Item) : Prop := ∀ fuel rest, 2 * (write i).length ≤ fuel + 1 → readItem fuel (write i ++ rest) = some (i, rest)

lemma readItems_writeAll (h : ∀ i ∈ l, Readable i) :
    ∀ fuel rest, 2 * (writeAll l).length ≤ fuel → readItems fuel l.length (writeAll l ++ rest) = some (l, rest) := by
  induction l with
  | nil =>
    intro fuel rest _
    cases fuel <;> simp [readItems, writeAll]
  | cons i l ih =>
    intro fuel rest hfuel
    have hpos := length_write_pos i
    simp only [writeAll, length_append] at hfuel
    obtain ⟨fuel, rfl⟩ : ∃ n, fuel = n + 1 := ⟨fuel - 1, by omega⟩
    have hhead := h i (.head _) fuel (writeAll l ++ rest) (by omega)
    have htail := ih (fun j hj => h j (.tail _ hj)) fuel rest (by omega)
    simp [readItems, writeAll, hhead, htail]

lemma readable_list (length : l.length < lengthLimit) (items : ∀ i ∈ l, Readable i) : Readable (.list l) := by
  intro fuel rest hfuel
  have hpos := length_lengthHeader_pos 0x90 16 none 0xDC 0xDD l.length
  simp only [write, length_append] at hfuel
  obtain ⟨fuel, rfl⟩ : ∃ n, fuel = n + 1 := ⟨fuel - 1, by omega⟩
  have hall := readItems_writeAll items fuel rest (by omega)
  rw [write]
  rcases lengthHeader_cases 0x90 16 none 0xDC 0xDD length with
    ⟨hn, he⟩ | ⟨code, hcode, -⟩ | ⟨hn, he⟩ | ⟨hn, he⟩
  · rw [he]
    simp only [cons_append, readItem, toNat_code (show 0x90 + l.length < 256 by omega), head?_list hn]
    simp [hall]
  · cases hcode
  all_goals
    rw [he]
    have hnat := takeNat?_natBytes hn (writeAll l ++ rest)
    simp [readItem, head?, hnat, hall]

lemma readable_map (length : l.length < lengthLimit)
    (items : ∀ i ∈ flat l, Readable i) : Readable (.map l) := by
  intro fuel rest hfuel
  have hpos := length_lengthHeader_pos 0x80 16 none 0xDE 0xDF l.length
  simp only [write, length_append] at hfuel
  obtain ⟨fuel, rfl⟩ : ∃ n, fuel = n + 1 := ⟨fuel - 1, by omega⟩
  have hall := readItems_writeAll items fuel rest (by rw [writeAll_flat]; omega)
  rw [writeAll_flat, length_flat] at hall
  rw [write]
  rcases lengthHeader_cases 0x80 16 none 0xDE 0xDF length with
    ⟨hn, he⟩ | ⟨code, hcode, -⟩ | ⟨hn, he⟩ | ⟨hn, he⟩
  · rw [he]
    simp only [cons_append, readItem, toNat_code (show 0x80 + l.length < 256 by omega), head?_map hn]
    simp [hall, mapOf_flat]
  · cases hcode
  all_goals
    rw [he]
    have hnat := takeNat?_natBytes hn (writeEntries l ++ rest)
    simp [readItem, head?, hnat, hall, mapOf_flat]

lemma mem_flat (h : i ∈ flat l) : ∃ e ∈ l, i = .text e.1 ∨ i = e.2 := by
  induction l with
  | nil => cases h
  | cons e l ih =>
    simp only [flat, mem_cons] at h
    rcases h with rfl | rfl | h
    · exact ⟨e, .head _, .inl rfl⟩
    · exact ⟨e, .head _, .inr rfl⟩
    · obtain ⟨x, hx, hi⟩ := ih h
      exact ⟨x, .tail _ hx, hi⟩

lemma Item.Fits.readable (h : i.Fits) : Readable i := by
  -- Every item takes a byte, so there is fuel for one step at least.
  have step : ∀ {j : Item}, (∀ fuel rest, readItem (fuel + 1) (write j ++ rest) = some (j, rest)) → Readable j := by
    intro j hj fuel rest hfuel
    have hpos := length_write_pos j
    obtain ⟨fuel, rfl⟩ : ∃ n, fuel = n + 1 := ⟨fuel - 1, by omega⟩
    exact hj fuel rest
  induction h with
  | nil => exact step fun fuel rest => by simp [write, readItem, head?]
  | bool b => exact step fun fuel rest => by cases b <;> simp [write, readItem, head?]
  | int width bound =>
    refine step fun fuel rest => ?_
    have htake := takeNat?_natBytes bound rest
    rcases width with rfl | rfl | rfl
    all_goals simp [write, writeInt, readItem, head?, htake]
  | float bits =>
    have hbound : bits.toNat < 256 ^ 8 := bits.toNat_lt
    exact step fun fuel rest => by simp [write, readItem, head?, takeNat?_natBytes hbound]
  | text length => exact step fun fuel rest => by rw [write, readItem_text length]
  | list length _ ih => exact readable_list length ih
  | map length keys _ ih =>
    refine readable_map length fun i hi => ?_
    obtain ⟨e, he, rfl | rfl⟩ := mem_flat hi
    · exact step fun fuel rest => by rw [write, readItem_text (keys e he)]
    · exact ih e he

lemma read_write (h : i.Fits) (rest) : read (write i ++ rest) = some (i, rest) := by
  refine h.readable _ rest ?_
  simp only [length_append]
  omega

/-! ## What is read is short -/

inductive Item.Small : Item → Prop where
  | nil : Small .nil
  | bool (b : Bool) : Small (.bool b)
  | int (bytes : Nat) (n : Int) : Small (.int bytes n)
  | float (bits : UInt64) : Small (.float bits)
  | text {t : Text} (length : t.length < lengthLimit) : Small (.text t)
  | list {l : List Item} (length : l.length < lengthLimit) (items : ∀ i ∈ l, Small i) : Small (.list l)
  | map {l : List (Text × Item)} (values : ∀ e ∈ l, Small e.2) : Small (.map l)
  | other : Small .other

def Head.Short : Head → Prop
  | .item i => i.Small
  | .text n | .list n => n < lengthLimit
  | .textAfter bytes | .listAfter bytes => bytes ≤ 4
  | _ => True

lemma head?_short (hc : head? code = some h) : h.Short := by
  unfold head? at hc
  split at hc
  · cases hc
    exact .int _ _
  split at hc
  · cases hc
    trivial
  split at hc
  · cases hc
    exact lt_of_le_of_lt (sub_le _ _) (lt_trans ‹_› (by decide))
  split at hc
  · cases hc
    exact lt_of_le_of_lt (sub_le _ _) (lt_trans ‹_› (by decide))
  split at hc
  · cases hc
    exact .int _ _
  split at hc <;> cases hc <;> first | trivial | exact .nil | exact .bool _ | simp [Head.Short]

lemma takeBytes?_length (h : takeBytes? n t = some (s, rest)) : s.length = n := by
  induction n generalizing t s rest with
  | zero =>
    cases h
    rfl
  | succ n ih =>
    cases t with
    | nil => cases h
    | cons b t =>
      simp only [takeBytes?, map_eq_some_iff, Prod.exists] at h
      obtain ⟨s', rest', h', rfl, -⟩ := h
      simp [ih h']

lemma foldl_lt (t : Text) (k) : t.foldl (fun a b => a * 256 + b.toNat) k < (k + 1) * 256 ^ t.length := by
  induction t generalizing k with
  | nil => simp
  | cons b t ih =>
    have hb : b.toNat < 256 := b.toNat_lt
    rw [length_cons, pow_succ']
    calc _ < (k * 256 + b.toNat + 1) * 256 ^ t.length := ih _
      _ ≤ (k + 1) * 256 * 256 ^ t.length := mul_le_mul_right _ (by omega)
      _ = (k + 1) * (256 * 256 ^ t.length) := mul_assoc ..

lemma takeNat?_lt (hb : bytes ≤ 4) (h : takeNat? bytes t = some (n, rest)) : n < lengthLimit := by
  simp only [takeNat?, map_eq_some_iff, Prod.exists] at h
  obtain ⟨s, rest', hs, rfl, -⟩ := h
  have hlt := foldl_lt s 0
  rw [takeBytes?_length hs, Nat.one_mul] at hlt
  exact Nat.lt_of_lt_of_le hlt (Nat.pow_le_pow_right (by decide) hb)

lemma mapOf_small (h : ∀ i ∈ l, i.Small) : (mapOf l).Small := by
  fun_induction mapOf l with
  | case1 key value rest entries he ih =>
    have hrest := ih fun i hi => h i (by simp [hi])
    rw [he] at hrest
    cases hrest with
    | map values =>
      refine .map fun e hmem => ?_
      rcases mem_cons.1 hmem with rfl | hmem
      · exact h _ (by simp)
      · exact values e hmem
  | case2 _ _ _ _ ih | case3 _ _ ih => exact ih fun i hi => h i (by simp [hi])
  | case4 => exact .map nofun
  | case5 => exact .other

lemma readItem_small (fuel) : (∀ t i rest, readItem fuel t = some (i, rest) → i.Small) ∧
    ∀ n t l rest, readItems fuel n t = some (l, rest) → l.length = n ∧ ∀ i ∈ l, i.Small := by
  induction fuel with
  | zero =>
    refine ⟨fun t i rest h => ?_, fun n t l rest h => ?_⟩
    · simp [readItem] at h
    · cases n with
      | zero =>
        simp only [readItems, Option.some.injEq, Prod.mk.injEq] at h
        simp [← h.1]
      | succ n => simp [readItems] at h
  | succ fuel ih =>
    obtain ⟨ihitem, ihitems⟩ := ih
    refine ⟨fun t i rest h => ?_, fun n t l rest h => ?_⟩
    · cases t with
      | nil => simp [readItem] at h
      | cons code t =>
        simp only [readItem, bind_eq_bind, bind_eq_some_iff] at h
        obtain ⟨head, hhead, h⟩ := h
        have hshort := head?_short hhead
        cases head
        case item j =>
          cases h
          exact hshort
        all_goals simp only [bind_eq_some_iff] at h
        case unsigned | signed =>
          obtain ⟨⟨n, t'⟩, -, ⟨⟩⟩ := h
          exact .int _ _
        case single | double =>
          obtain ⟨⟨n, t'⟩, -, ⟨⟩⟩ := h
          exact .float _
        case text length =>
          obtain ⟨⟨s, t'⟩, hs, ⟨⟩⟩ := h
          exact .text (takeBytes?_length hs ▸ hshort)
        case textAfter bytes =>
          obtain ⟨⟨n, t'⟩, hn, ⟨s, t''⟩, hs, ⟨⟩⟩ := h
          exact .text (takeBytes?_length hs ▸ takeNat?_lt hshort hn)
        case list length =>
          obtain ⟨⟨l, t'⟩, hl, ⟨⟩⟩ := h
          obtain ⟨hlen, hall⟩ := ihitems _ _ _ _ hl
          exact .list (hlen ▸ hshort) hall
        case listAfter bytes =>
          obtain ⟨⟨n, t'⟩, hn, ⟨l, t''⟩, hl, ⟨⟩⟩ := h
          obtain ⟨hlen, hall⟩ := ihitems _ _ _ _ hl
          exact .list (hlen ▸ takeNat?_lt hshort hn) hall
        case map length =>
          obtain ⟨⟨l, t'⟩, hl, ⟨⟩⟩ := h
          exact mapOf_small (ihitems _ _ _ _ hl).2
        case mapAfter bytes =>
          obtain ⟨⟨n, t'⟩, -, ⟨l, t''⟩, hl, ⟨⟩⟩ := h
          exact mapOf_small (ihitems _ _ _ _ hl).2
        case extension length =>
          obtain ⟨⟨s, t'⟩, -, ⟨⟩⟩ := h
          exact .other
        case extensionAfter bytes =>
          obtain ⟨⟨n, t'⟩, -, ⟨s, t''⟩, -, ⟨⟩⟩ := h
          exact .other
    · cases n with
      | zero =>
        simp only [readItems, Option.some.injEq, Prod.mk.injEq] at h
        simp [← h.1]
      | succ n =>
        simp only [readItems, bind_eq_bind, bind_eq_some_iff] at h
        obtain ⟨⟨i, t'⟩, hi, ⟨l', t''⟩, hl, h⟩ := h
        cases h
        obtain ⟨hlen, hall⟩ := ihitems _ _ _ _ hl
        refine ⟨by simp [hlen], fun j hj => ?_⟩
        rcases mem_cons.1 hj with rfl | hj
        · exact ihitem _ _ _ hi
        · exact hall j hj

end Arbor.Msgpack
