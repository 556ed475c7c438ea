import Arbor.IR.Store
import Mathlib

/-! What types are found by. A key names the handles of the parts of a type, and its text tells the key, since numbers
are written in digits and nothing else is. So types that are built alike have one handle if every type is found by a key
of its own. -/

namespace Arbor.IR.TypeKey

lemma repr_cons (n : Nat) : ∃ d ds, n.repr.toList = d :: ds ∧ d.isDigit := by
  have hmem := fun c => Nat.isDigit_of_mem_toDigits (b := 10) (n := n) (c := c) (by decide) (by decide)
  rw [← Nat.toList_repr] at hmem
  cases h : n.repr.toList with
  | nil => exact absurd (String.toList_eq_nil_iff.1 h) Nat.repr_ne_empty
  | cons d ds => exact ⟨d, ds, rfl, hmem d (by rw [h]; exact .head _)⟩

lemma repr_append {m n : Nat} {r r' : List Char} (hr : ∀ c ∈ r.head?, c.isDigit = false)
    (hr' : ∀ c ∈ r'.head?, c.isDigit = false) (h : m.repr.toList ++ r = n.repr.toList ++ r') : m = n ∧ r = r' := by
  have hdigits (n : Nat) {r : List Char} (hr : ∀ c ∈ r.head?, c.isDigit = false) :
      (n.repr.toList ++ r).takeWhile Char.isDigit = n.repr.toList := by
    rw [List.takeWhile_append_of_pos, List.append_right_eq_self]
    · cases r with
      | nil => rfl
      | cons c r => rw [List.takeWhile_cons_of_neg (by simp [hr c rfl])]
    · rw [Nat.toList_repr]
      exact fun c => Nat.isDigit_of_mem_toDigits (by decide) (by decide)
  have heq := hdigits m hr
  rw [h, hdigits n hr'] at heq
  rw [heq, List.append_cancel_left_eq] at h
  exact ⟨Nat.repr_injective (String.toList_inj.1 heq.symm), h⟩

lemma toList_closing (v) : (closing v).toList = if v then [',', '.', '.', '.', ')'] else [')'] := by
  cases v <;> simp [closing]

lemma toList_more_nil : (more []).toList = [] := by simp [more]

lemma toList_more_cons (x : Handle) (xs) : (more (x :: xs)).toList = ',' :: (x.repr.toList ++ (more xs).toList) := by
  simp [more]

lemma head_more (xs) (v) : ∀ c ∈ ((more xs).toList ++ (closing v).toList).head?, c.isDigit = false := by
  rw [toList_closing]
  cases xs with
  | nil =>
    rw [toList_more_nil]
    cases v
    all_goals
      rintro _ ⟨⟩
      rfl
  | cons x xs =>
    rw [toList_more_cons]
    rintro _ ⟨⟩
    rfl

lemma closing_ne_repr (v) (y : Nat) (r) : (closing v).toList ≠ y.repr.toList ++ r := by
  obtain ⟨d, ds, hd, hdigit⟩ := repr_cons y
  rw [toList_closing, hd, List.cons_append]
  intro h
  cases v
  all_goals
    rw [← (List.cons.inj h).1] at hdigit
    cases hdigit

lemma closing_ne_more (v y ys w) : (closing v).toList ≠ (more (y :: ys)).toList ++ (closing w).toList := by
  obtain ⟨d, ds, hd, hdigit⟩ := repr_cons y
  rw [toList_closing, toList_more_cons, hd]
  intro h
  cases v with
  | false => cases h
  | true =>
    rw [← (List.cons.inj (List.cons.inj h).2).1] at hdigit
    cases hdigit

lemma more_inj : ∀ {xs ys : List Handle} {v w : Bool}, (more xs).toList ++ (closing v).toList =
    (more ys).toList ++ (closing w).toList → xs = ys ∧ v = w
  | [], [], v, w, h => by
    rw [List.append_cancel_left_eq, toList_closing, toList_closing] at h
    revert v w
    decide
  | [], y :: ys, v, w, h => by
    rw [toList_more_nil, List.nil_append] at h
    exact absurd h (closing_ne_more v y ys w)
  | x :: xs, [], v, w, h => by
    rw [toList_more_nil, List.nil_append] at h
    exact absurd h.symm (closing_ne_more w x xs v)
  | x :: xs, y :: ys, v, w, h => by
    rw [toList_more_cons, toList_more_cons, List.cons_append, List.cons_append, List.append_assoc, List.append_assoc] at h
    obtain ⟨rfl, hrest⟩ := repr_append (head_more xs v) (head_more ys w) (List.cons.inj h).2
    obtain ⟨rfl, rfl⟩ := more_inj hrest
    exact ⟨rfl, rfl⟩

/-- The first two characters tell the kinds of keys apart. -/
def mark : TypeKey → List Char
  | .void => ['v', 'o']
  | .label => ['l', 'a']
  | .int .w1 => ['b', 'o']
  | .int .w8 => ['i', '8']
  | .int .w16 => ['i', '1']
  | .int .w32 => ['i', '3']
  | .int .w64 => ['i', '6']
  | .float .single => ['f', '3']
  | .float .double => ['f', '6']
  | .ptr _ => ['p', 't']
  | .func .. => ['f', 'n']
  | .array .. => ['a', 'r']

lemma take_text (k : TypeKey) : k.text.toList.take 2 = k.mark := by
  rcases k with _ | _ | ⟨_ | _ | _ | _ | _⟩ | ⟨_ | _⟩ | _ | _ | _ <;> simp [text, mark]

lemma listed_inj : ∀ {xs ys : List Handle} {v w : Bool}, (listed xs).toList ++ (closing v).toList =
    (listed ys).toList ++ (closing w).toList → xs = ys ∧ v = w
  | [], [], v, w, h => @more_inj [] [] v w h
  | [], y :: ys, v, w, h => by
    rw [show listed (y :: ys) = y.repr ++ more ys from rfl, String.toList_append, List.append_assoc] at h
    exact absurd h (closing_ne_repr v y _)
  | x :: xs, [], v, w, h => by
    rw [show listed (x :: xs) = x.repr ++ more xs from rfl, String.toList_append, List.append_assoc] at h
    exact absurd h.symm (closing_ne_repr w x _)
  | x :: xs, y :: ys, v, w, h => by
    simp only [listed, String.toList_append, List.append_assoc] at h
    obtain ⟨rfl, hrest⟩ := repr_append (head_more xs v) (head_more ys w) h
    obtain ⟨rfl, rfl⟩ := more_inj hrest
    exact ⟨rfl, rfl⟩

lemma text_injective {k l : TypeKey} (h : k.text = l.text) : k = l := by
  have hmark : k.mark = l.mark := by rw [← take_text, ← take_text, h]
  replace h := congrArg String.toList h
  rcases k with _ | _ | ⟨_ | _ | _ | _ | _⟩ | ⟨_ | _⟩ | e | ⟨r, ps, v⟩ | ⟨n, e⟩ <;>
    rcases l with _ | _ | ⟨_ | _ | _ | _ | _⟩ | ⟨_ | _⟩ | e' | ⟨r', ps', v'⟩ | ⟨n', e'⟩ <;> first | rfl | cases hmark
  all_goals simp only [text, String.toList_append, List.append_assoc, List.append_cancel_left_eq] at h
  case ptr.ptr => rw [Nat.repr_injective (String.toList_inj.1 h)]
  all_goals obtain ⟨rfl, hrest⟩ := repr_append (by simp) (by simp) h
  case func.func =>
    obtain ⟨rfl, rfl⟩ := listed_inj (List.append_cancel_left hrest)
    rfl
  case array.array => rw [Nat.repr_injective (String.toList_inj.1 (List.append_cancel_left hrest))]

end Arbor.IR.TypeKey

namespace Arbor.IR.Store

variable {s s' : Store} {t u : Ty} {key : TypeKey} {h k : Handle}

/-- The handles in the key stand for the parts of the type. -/
inductive Keyed (s : Store) : Ty → TypeKey → Prop where
  | void : Keyed s .void .void
  | label : Keyed s .label .label
  | int (w : Width) : Keyed s (.int w) (.int w)
  | float (p : Precision) : Keyed s (.float p) (.float p)
  | ptr {x : Handle} {e : Ty} (h : s.type? x = some e) : Keyed s (.ptr e) (.ptr x)
  | func {x : Handle} {r : Ty} {xs : List Handle} {ps : List Ty} (h : s.type? x = some r)
      (hs : xs.map s.type? = ps.map some) (v : Bool) : Keyed s (.func r ps v) (.func x xs v)
  | array (n : Nat) {x : Handle} {e : Ty} (h : s.type? x = some e) : Keyed s (.array n e) (.array n x)

lemma Keyed.unique (ht : s.Keyed t key) (hu : s.Keyed u key) : t = u := by
  cases ht <;> cases hu
  case ptr.ptr he _ he' | array.array he _ he' => rw [Option.mem_unique he he']
  case func.func hr hps _ _ _ hr' hps' =>
    rw [Option.mem_unique hr hr', List.map_injective_iff.2 (Option.some_injective _) (hps.symm.trans hps')]
  all_goals rfl

lemma types_mono (hmono : ∀ x u, s.type? x = some u → s'.type? x = some u) : ∀ {xs : List Handle} {ps : List Ty},
    xs.map s.type? = ps.map some → xs.map s'.type? = ps.map some
  | [], _, h => h
  | _ :: _, [], h => by cases h
  | x :: xs, p :: ps, h => by
    obtain ⟨hx, hxs⟩ := List.cons.inj h
    rw [List.map_cons, List.map_cons, hmono x p hx, types_mono hmono hxs]

lemma Keyed.mono (ht : s.Keyed t key) (hmono : ∀ x u, s.type? x = some u → s'.type? x = some u) : s'.Keyed t key := by
  cases ht with
  | ptr he => exact .ptr (hmono _ _ he)
  | array n he => exact .array n (hmono _ _ he)
  | func hr hps v => exact .func (hmono _ _ hr) (types_mono hmono hps) v
  | _ => constructor

/-- The type is found at the handle. -/
def Found (s : Store) (t : Ty) (h : Handle) : Prop := ∃ key, s.Keyed t key ∧ s.types[key.text]? = some h

lemma Found.mono (hf : s.Found t h) (hmono : ∀ x u, s.type? x = some u → s'.type? x = some u)
    (htypes : ∀ (key : String) x, s.types[key]? = some x → s'.types[key]? = some x) : s'.Found t h :=
  hf.imp fun _ hk => ⟨hk.1.mono hmono, htypes _ _ hk.2⟩

lemma Found.ne_struct (hf : s.Found t h) (k) : t ≠ .struct k := by
  obtain ⟨key, hk, -⟩ := hf
  cases hk <;> exact nofun

def primitiveHandles : List ((TypeKey × Ty) × Handle) := primitives.zipIdx 1

lemma initial_types_iff (key : TypeKey) (h) : initial.types[key.text]? = some h ↔ ∃ t, ((key, t), h) ∈ primitiveHandles := by
  have hkeys : primitiveHandles.Pairwise fun a b => a.1.1 ≠ b.1.1 := by decide
  have hdistinct : (primitiveHandles.map fun p => (p.1.1.text, p.2)).Pairwise fun a b => (a.1 == b.1) = false :=
    List.pairwise_map.2 (hkeys.imp fun hne => beq_false_of_ne fun heq => hne (TypeKey.text_injective heq))
  have hmem {t : Ty} {k : Handle} (h : ((key, t), k) ∈ primitiveHandles) : initial.types[key.text]? = some k :=
    Std.HashMap.getElem?_ofList_of_mem (beq_self_eq_true _) hdistinct (List.mem_map.2 ⟨_, h, rfl⟩)
  refine ⟨fun hh => ?_, fun ⟨t, ht⟩ => hmem ht⟩
  by_cases hc : ((primitiveHandles.map fun p => (p.1.1.text, p.2)).map Prod.fst).contains key.text = true
  · rw [List.contains_iff_mem, List.map_map, List.mem_map] at hc
    obtain ⟨⟨⟨l, t⟩, k⟩, hp, heq⟩ := hc
    cases TypeKey.text_injective heq
    rw [hmem hp] at hh
    cases hh
    exact ⟨t, hp⟩
  · rw [show initial.types[key.text]? = none from
      Std.HashMap.getElem?_ofList_of_contains_eq_false (Bool.eq_false_iff.2 hc)] at hh
    cases hh

lemma getElem?_insert_text (types : Std.HashMap String Handle) (key l : TypeKey) (h) :
    (types.insert key.text h)[l.text]? = if key = l then some h else types[l.text]? := by
  rw [Std.HashMap.getElem?_insert]
  by_cases hl : key = l
  · simp [hl]
  · rw [if_neg hl, if_neg]
    exact fun heq => hl (TypeKey.text_injective (beq_iff_eq.1 heq))

lemma getElem?_insert_of_new {types : Std.HashMap String Handle} {l l' : String} (hnew : types[l]? = none)
    (hk : types[l']? = some k) : (types.insert l h)[l']? = some k := by
  rw [Std.HashMap.getElem?_insert, if_neg, hk]
  intro heq
  rw [beq_iff_eq.1 heq, hk] at hnew
  cases hnew

lemma type?_of_entry (he : s.entry h = .type t) : s.type? h = some t := by rw [type?, he]

lemma entry_of_type? (ht : s.type? h = some t) : s.entry h = .type t ∨ t = .struct h := by
  unfold type? at ht
  cases he : s.entry h with
  | type u =>
    rw [he] at ht
    cases ht
    exact .inl rfl
  | struct i =>
    rw [he] at ht
    cases ht
    exact .inr rfl
  | _ =>
    rw [he] at ht
    cases ht

lemma key_of_type? (hfound : ∀ h t, s.entry h = .type t → s.Found t h) (ht : s.type? h = some t) (hne : t ≠ .struct h) :
    s.Found t h := hfound h t ((entry_of_type? ht).resolve_right hne)

mutual

lemma handle_unique (hfound : ∀ h t, s.entry h = .type t → s.Found t h) : ∀ {t : Ty} {h k : Handle},
    s.type? h = some t → s.type? k = some t → h = k
  | .ptr _, _, _, ht, hu | .array _ _, _, _, ht, hu => by
    obtain ⟨_, hx, hh⟩ := key_of_type? hfound ht nofun
    obtain ⟨_, hy, hk⟩ := key_of_type? hfound hu nofun
    cases hx
    cases hy
    rename_i hx _ hy
    rw [handle_unique hfound hx hy] at hh
    exact Option.mem_unique hh hk
  | .func _ _ _, _, _, ht, hu => by
    obtain ⟨_, hx, hh⟩ := key_of_type? hfound ht nofun
    obtain ⟨_, hy, hk⟩ := key_of_type? hfound hu nofun
    cases hx with
    | func hx hxs =>
      cases hy with
      | func hy hys =>
        rw [handle_unique hfound hx hy, handles_unique hfound hxs hys] at hh
        exact Option.mem_unique hh hk
  | .struct i, h, k, ht, hu => by
    have hself {h : Handle} (ht : s.type? h = some (.struct i)) : Ty.struct i = .struct h :=
      (entry_of_type? ht).resolve_left fun he => (hfound h _ he).ne_struct i rfl
    exact Ty.struct.inj ((hself ht).symm.trans (hself hu))
  | .void, _, _, ht, hu | .label, _, _, ht, hu | .int _, _, _, ht, hu | .float _, _, _, ht, hu => by
    obtain ⟨_, hx, hh⟩ := key_of_type? hfound ht nofun
    obtain ⟨_, hy, hk⟩ := key_of_type? hfound hu nofun
    cases hx
    cases hy
    exact Option.mem_unique hh hk

lemma handles_unique (hfound : ∀ h t, s.entry h = .type t → s.Found t h) : ∀ {ts : List Ty} {xs ys : List Handle},
    xs.map s.type? = ts.map some → ys.map s.type? = ts.map some → xs = ys
  | [], _, _, hx, hy => by rw [List.map_eq_nil_iff.1 hx, List.map_eq_nil_iff.1 hy]
  | t :: ts, [], _, hx, _ => by cases hx
  | t :: ts, _ :: _, [], _, hy => by cases hy
  | t :: ts, x :: xs, y :: ys, hx, hy => by
    obtain ⟨hx, hxs⟩ := List.cons.inj hx
    obtain ⟨hy, hys⟩ := List.cons.inj hy
    rw [handle_unique hfound hx hy, handles_unique hfound hxs hys]

end

end Arbor.IR.Store
