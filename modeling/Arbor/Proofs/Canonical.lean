import Arbor.Proofs.Commands

/-! Type handles are canonical. The entry of a type is found by the handles of its parts, and these are found in the
same way; so going from a handle to its type and back adds nothing and ends at the handle. -/

namespace Arbor.IR

open Proofs Store

namespace Emit

variable {s : Store} {h : Handle} {t : Ty}

mutual

lemma internType_known (hs : s.Coherent) : ∀ {t : Ty} {h : Handle}, s.type? h = some t → internType t s = .ok h s
  | .ptr _, _, ht | .array _ _, _, ht => by
    obtain ⟨_, hk, hh⟩ := key_of_type? hs.found ht nofun
    cases hk
    rename_i hx
    rw [internType, bind_of_ok (internType_known hs hx), internKey_known hh]
  | .func _ _ _, _, ht => by
    obtain ⟨_, hk, hh⟩ := key_of_type? hs.found ht nofun
    cases hk with
    | func hx hxs =>
      rw [internType, bind_of_ok (internType_known hs hx), bind_of_ok (internTypes_known hs hxs), internKey_known hh]
  | .struct k, h, ht => by
    obtain ⟨i, hi⟩ := (hs.admits_of_type? ht).holds k (by simp [Ty.structs])
    rw [hs.type?_inj ht (by rw [type?, hi])]
    rfl
  | .void, _, ht | .label, _, ht | .int _, _, ht | .float _, _, ht => by
    obtain ⟨_, hk, hh⟩ := key_of_type? hs.found ht nofun
    cases hk
    exact internKey_known hh

lemma internTypes_known (hs : s.Coherent) : ∀ {ts : List Ty} {xs : List Handle}, xs.map s.type? = ts.map some →
    internTypes ts s = .ok xs s
  | [], _, hxs => by
    rw [List.map_eq_nil_iff.1 hxs]
    rfl
  | _ :: _, [], hxs => by cases hxs
  | t :: ts, x :: xs, hxs => by
    obtain ⟨hx, hxs⟩ := List.cons.inj hxs
    rw [internTypes, bind_of_ok (internType_known hs hx), bind_of_ok (internTypes_known hs hxs)]
    rfl

end

lemma typeOf_known (ht : s.type? h = some t) : typeOf h s = .ok t s := by
  simp only [typeOf, get_bind_apply, ht]
  rfl

lemma pointer_known (hs : s.Coherent) (helem : s.type? elem = some t) (ht : s.type? h = some (.ptr t)) :
    pointer elem s = .ok h s := by
  obtain ⟨-, hvoid, hlabel⟩ := (hs.admits_of_type? ht).formed
  obtain ⟨_, hk, hh⟩ := key_of_type? hs.found ht nofun
  rw [pointer, bind_of_ok (typeOf_known helem)]
  cases hk with
  | ptr hx =>
    rw [hs.type?_inj hx helem] at hh
    cases t with
    | void => exact absurd rfl hvoid
    | label => exact absurd rfl hlabel
    | _ => exact internKey_known hh

lemma func_known (hs : s.Coherent) {ret : Handle} {params : List Handle} {ps : List Ty} (hret : s.type? ret = some r)
    (hparams : params.map s.type? = ps.map some) (ht : s.type? h = some (.func r ps v)) :
    func ret params v s = .ok h s := by
  obtain ⟨_, hk, hh⟩ := key_of_type? hs.found ht nofun
  rw [func, get_bind_apply, hret]
  cases hk with
  | func hx hxs =>
    rw [hs.type?_inj hx hret, handles_unique hs.found hxs hparams] at hh
    dsimp only
    rw [get_bind_apply, hh]
    rfl

end Emit

namespace Store

variable {s : Store} {h : Handle} {t : Ty}

lemma tyName_ptr (he : e ≠ .int .w8) : s.tyName (.ptr e) = s.tyName e ++ "*" := by
  rw [tyName]
  exact he

mutual

lemma Evolves.tyName_eq (g : Evolves B s s') : ∀ {t : Ty}, s.Holds t → s'.tyName t = s.tyName t
  | .ptr e, ht => by
    -- A pointer to a byte has a name of its own.
    by_cases he : e = .int .w8
    · subst he
      rfl
    · rw [tyName_ptr he, tyName_ptr he, g.tyName_eq (t := e) ht]
  | .func r ps v, ht => by
    have hr := g.tyName_eq fun k hk => ht k (List.mem_append_left _ hk)
    have hps := g.tyNames_eq ps fun p hp k hk => ht k (List.mem_append_right _ (Ty.mem_structsAll.2 ⟨p, hp, hk⟩))
    simp only [tyName, hr, hps]
  | .array n e, ht => by simp only [tyName, g.tyName_eq (t := e) ht]
  | .struct k, ht => by
    obtain ⟨i, hi⟩ := ht k (by simp [Ty.structs])
    obtain ⟨i', hi', hname, -⟩ := g.struct hi
    simp only [tyName, struct?_eq_some.2 hi, struct?_eq_some.2 hi', hname]
  | .void, _ => rfl
  | .label, _ => rfl
  | .int w, _ => by cases w <;> rfl
  | .float p, _ => by cases p <;> rfl

lemma Evolves.tyNames_eq (g : Evolves B s s') : ∀ (ts), (∀ t ∈ ts, s.Holds t) → s'.tyNames ts = s.tyNames ts
  | [], _ => rfl
  | t :: ts, hts => by
    rw [tyNames, tyNames, g.tyName_eq (hts t (by simp)), g.tyNames_eq ts fun u hu => hts u (by simp [hu])]

end

/-- Types and handles go together one to one, and whoever asks for a type that has a handle gets that handle
from a store that stays as it is. -/
structure Canonical (s : Store) : Prop where
  back : ∀ h t, s.type? h = some t → Emit.internType t s = .ok h s
  same_iff : ∀ h k t u, s.type? h = some t → s.type? k = some u → (t = u ↔ h = k)
  pointer : ∀ elem h t, s.type? elem = some t → s.type? h = some (.ptr t) → Emit.pointer elem s = .ok h s
  func : ∀ ret params r ps v h, s.type? ret = some r → params.map s.type? = ps.map some →
    s.type? h = some (.func r ps v) → Emit.func ret params v s = .ok h s
  valueType : ∀ value v h, s.operand? value = some v → s.type? h = some (s.ownTy v) → Emit.valueType value s = .ok h s
  bytes : s.typeName 2 = "i8" ∧ s.typeName 10 = "bytes" ∧ Emit.pointer 2 s = .ok 10 s

/-- What a handle that stands for a type keeps standing for; the body of a struct may be replaced in between. -/
structure Denotes (s s' : Store) (h : Handle) (rewritten : Prop) : Prop where
  type : s'.type? h = s.type? h
  kind : s'.typeKind h = s.typeKind h
  name : s'.typeName h = s.typeName h
  struct : ∀ i, s.struct? h = some i → ∃ i', s'.struct? h = some i' ∧ i'.name = i.name ∧ i'.label = i.label ∧
    i'.module = i.module ∧ (¬rewritten → i'.fields = i.fields)

lemma Coherent.canonical (hs : s.Coherent) (hi8 : s.type? 2 = some .i8) (hbytes : s.type? 10 = some .bytes) :
    s.Canonical where
  back _ _ ht := Emit.internType_known hs ht
  same_iff _ _ _ _ ht hu := (hs.type?_eq_iff ht hu).symm
  pointer _ _ _ helem ht := Emit.pointer_known hs helem ht
  func _ _ _ _ _ _ hret hparams ht := Emit.func_known hs hret hparams ht
  valueType _ _ _ hv ht := by rw [← Emit.internType_known hs ht, Emit.valueType_eq hv]
  bytes := ⟨by simp only [typeName, hi8, tyName], by simp only [typeName, hbytes, tyName],
    Emit.pointer_known hs hi8 hbytes⟩

lemma Evolves.denotes (g : Evolves B s s') (hs : s.Coherent) (ht : s.type? h = some t) : s.Denotes s' h (B h) where
  type := by rw [ht, g.type? ht]
  kind := by simp only [typeKind, ht, g.type? ht]
  name := by simp only [typeName, ht, g.type? ht, g.tyName_eq (hs.admits_of_type? ht).holds]
  struct i hi := by
    obtain ⟨i', hi', hsame⟩ := g.struct (struct?_eq_some.1 hi)
    exact ⟨i', struct?_eq_some.2 hi', hsame⟩

end Store

/-- After any session every type has one handle. What the handle stands for is the same after whatever is
done next, but for the body of a struct that is set. -/
theorem types_canonical (cs : List Command) :
    (Command.run .initial cs).Canonical ∧ ∀ ds h t, (Command.run .initial cs).type? h = some t →
      (Command.run .initial cs).Denotes (Command.run .initial (cs ++ ds)) h (∃ fields, .setStructBody h fields ∈ ds) := by
  have hs := Command.run_coherent cs
  have m := Command.run_moves cs initial_coherent
  refine ⟨hs.canonical (m.type? (type?_primitive ((.int .w8, .i8), 2) (by decide)))
    (m.type? (type?_primitive ((.ptr 2, .bytes), 10) (by decide))), fun ds h t ht => ?_⟩
  rw [Command.run_append]
  have g := (Command.run_moves ds hs).toEvolves.mono (C := fun h => ∃ fields, .setStructBody h fields ∈ ds) ?_
  · exact g.denotes hs ht
  · rintro x ⟨c, hc, hx⟩
    cases c with
    | setStructBody type fields => exact ⟨fields, hx ▸ hc⟩
    | _ => exact hx.elim

end Arbor.IR
