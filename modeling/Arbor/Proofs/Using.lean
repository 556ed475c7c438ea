import Arbor.Proofs.Adoption

/-! What a module sees of another one that it uses: every exported struct with the members it has
there. -/

namespace Arbor.Build

open IR Diag Proofs Relation Std

def IsFault (e : Failure) : Prop := ∃ f, e = .fault f

namespace Act

variable {σ : Type} {α β : Type}

lemma fail_ends (hK : w.modules[m]? = some K) : Delivers IsFault w (fail m code message) Q := by
  refine .bind (P := fun _ _ => True) (.bind (module_known hK) fun _ _ _ => trivial) fun _ _ _ => .throw ⟨_, rfl⟩

lemma rescope_ends (h : Copying s d m D M w) (hne : d ≠ m) (f) :
    Delivers IsFault w (rescope m f) fun _ w' => ∃ scopes, Copying s d m D { M with scopes } w' := by
  refine .bind (module_known h.own) ?_
  rintro M w' ⟨rfl, rfl⟩
  cases hf : f M.scopes with
  | error e => exact .throw ⟨e, rfl⟩
  | ok scopes => exact ⟨scopes, h.update hne (fun i => { i with scopes }) h.kinds⟩

def Imported (s : Store) (d m : Handle) (D M : Module) (p : Module → Prop) (w : World σ) : Prop :=
  ∃ M', Copying s d m D M' w ∧ (∀ x, FillsAt D M M' x) ∧ p M'

section

variable (hne : d ≠ m) (hs : s.WF) (hD : SelfContained s d D) (hforward : Forward D) (source : Text) (syms : List Symbol)

include hne hs hD hforward source syms

lemma importTypes_ends : ∀ {w : World σ} {M : Module}, Copying s d m D M w →
      (∀ sym ∈ syms, ∀ T, sym.type = some T → T.module = d ∧ T.handle ∈ D.types) →
      Delivers IsFault w (importTypes m source syms) fun _ => Imported s d m D M fun M' =>
        ∀ sym ∈ syms, ∀ T, sym.type = some T → M.membersOf T.handle = [] → Faithful D M' T.handle := by
  induction syms with
  | nil => exact fun h _ => .pure ⟨_, h, fun _ => .of_eq rfl, by simp⟩
  | cons sym rest ih =>
    intro w M h hsyms
    refine .bind (P := fun _ w' => w' = w) (.bind (module_known h.own) fun _ _ hw => .pure hw.1) ?_
    rintro found w' rfl
    refine .ite (fun _ => .bind (P := fun _ _ => False) (fail_ends h.own) fun _ _ hfalse => hfalse.elim) fun _ => ?_
    have hown : Delivers IsFault w' (sym.type.mapM (ownType m)) fun _ => Imported s d m D M fun M' =>
        ∀ T, sym.type = some T → M.membersOf T.handle = [] → Faithful D M' T.handle := by
      cases hT : sym.type with
      | none => exact .pure ⟨M, h, fun _ => .of_eq rfl, nofun⟩
      | some T =>
        obtain ⟨hTd, hseen⟩ := hsyms sym (by simp) T hT
        refine .map ((ownType_ends h hne hs hD hforward hTd hseen).mono ?_)
        rintro _ w1 ⟨-, M1, h₁, hfills, -, hfull⟩
        refine ⟨M1, h₁, hfills.structs, fun T' hT' => ?_⟩
        cases hT'
        exact hfull
    refine .bind hown fun t w1 ⟨M1, h₁, hfills1, hfull1⟩ => ?_
    refine .bind (rescope_ends h₁ hne _) fun _ w2 ⟨scopes, h₂⟩ => ?_
    refine (ih h₂ fun sym' hsym' => hsyms sym' (by simp [hsym'])).mono fun _ w3 ⟨M3, h₃, hfills3, hfull3⟩ => ?_
    have hsame : ∀ x, FillsAt D M1 { M1 with scopes } x := fun x => .of_eq rfl
    have hfills3 : ∀ x, FillsAt D M1 M3 x := fun x => (hsame x).trans (hfills3 x)
    refine ⟨M3, h₃, fun x => (hfills1 x).trans (hfills3 x), fun sym' hsym' T hT hempty => ?_⟩
    rcases List.mem_cons.1 hsym' with rfl | hrest
    · exact (hfull1 T hT hempty).mono (hfills3 _)
    · rcases (hfills1 T.handle).filled hempty with hempty1 | hf
      · exact hfull3 sym' hrest T hT hempty1
      · exact hf.mono (hfills3 _)

lemma importValues_ends : ∀ {w : World σ} {M : Module}, Copying s d m D M w →
      (∀ sym ∈ syms, ∀ v, sym.value = some v → v.module = d ∧
        ∃ T, D.values[v.handle]? = some (some T) ∧ T.module = d ∧ T.handle ∈ D.types) →
      Delivers IsFault w (importValues m source syms) fun _ => Imported s d m D M fun _ => True := by
  induction syms with
  | nil => exact fun h _ => .pure ⟨_, h, fun _ => .of_eq rfl, trivial⟩
  | cons sym rest ih =>
    intro w M h hsyms
    refine .bind (P := fun _ w' => w' = w) (.bind (module_known h.own) fun _ _ hw => .pure hw.1) ?_
    rintro found w' rfl
    refine .ite (fun _ => .bind (P := fun _ _ => False) (fail_ends h.own) fun _ _ hfalse => hfalse.elim) fun _ => ?_
    have hown : Delivers IsFault w' (ownValue m sym.value) fun r w1 => (∀ v, r = some v → v.module = m) ∧
        Imported s d m D M (fun _ => True) w1 := by
      cases hv : sym.value with
      | none =>
        refine .pure ⟨fun v hv => ?_, M, h, fun _ => .of_eq rfl, trivial⟩
        cases hv
      | some v =>
        obtain ⟨hvd, T, hT, hTd, hseen⟩ := hsyms sym (by simp) v hv
        obtain ⟨op, hop, -⟩ := hD.sound.values v.handle _ hT
        have hcopies : Copies IsFault s d m D ((s.entries.size + 1) * (s.entries.size + 1)) (ownType (σ := σ) m) :=
          fun w1 M1 T1 h₁ hd1 hseen1 _ => ownType_ends h₁ hne hs hD hforward hd1 hseen1
        refine (adoptWith_ends hcopies h hne hvd (hs.ne_of_operand? hop) hT hTd hseen (nesting_lt ..)).mono ?_
        rintro r w1 ⟨rfl, M1, h₁, hfills⟩
        refine ⟨fun v' hv' => ?_, M1, h₁, hfills.structs, trivial⟩
        cases hv'
        rfl
    refine .bind hown fun v w1 ⟨hvm, M1, h₁, hfills1, _⟩ => ?_
    refine .bind (P := fun _ w' => w' = w1) ?_ ?_
    · cases v with
      | none => exact .pure rfl
      | some v =>
        have hlive : w1.modules[v.module]? = some M1 := (hvm v rfl).symm ▸ h₁.own
        exact .bind (module_known hlive) fun _ _ hw => .pure hw.1
    · rintro T w2 rfl
      refine .bind (rescope_ends h₁ hne _) fun _ w3 ⟨scopes, h₃⟩ => ?_
      refine (ih h₃ fun sym' hsym' => hsyms sym' (by simp [hsym'])).mono fun _ w4 ⟨M4, h4, hfills4, _⟩ => ?_
      have hsame : ∀ x, FillsAt D M1 { M1 with scopes } x := fun x => .of_eq rfl
      exact ⟨M4, h4, fun x => ((hfills1 x).trans (hsame x)).trans (hfills4 x), trivial⟩

end

lemma import_ends (h : Copying s d m D M w) (hne : d ≠ m) (hs : s.WF) (hD : SelfContained s d D) (hforward : Forward D)
    (source)
    (htypes : ∀ sym ∈ D.scopes.types exportScope, ∀ T, sym.type = some T → T.module = d ∧ T.handle ∈ D.types)
    (hvalues : ∀ sym ∈ D.scopes.values exportScope, ∀ v, sym.value = some v → v.module = d ∧
      ∃ T, D.values[v.handle]? = some (some T) ∧ T.module = d ∧ T.handle ∈ D.types) : Delivers IsFault w (do
        importTypes m source ((← module d).scopes.types exportScope)
        importValues m source ((← module d).scopes.values exportScope))
      fun _ => Imported s d m D M fun M' => ∀ sym ∈ D.scopes.types exportScope, ∀ T, sym.type = some T →
        M.membersOf T.handle = [] → Faithful D M' T.handle := by
  refine .bind (module_known h.source) ?_
  rintro D w1 ⟨rfl, rfl⟩
  refine .bind (importTypes_ends hne hs hD hforward source _ h htypes) fun _ w2 ⟨M2, h₂, hfills2, hfull⟩ => ?_
  refine .bind (module_known h₂.source) ?_
  rintro D w3 ⟨rfl, rfl⟩
  refine (importValues_ends hne hs hD hforward source _ h₂ hvalues).mono fun _ w4 ⟨M4, h4, hfills4, _⟩ => ?_
  refine ⟨M4, h4, fun x => (hfills2 x).trans (hfills4 x), fun sym hsym T hT hempty => ?_⟩
  exact (hfull sym hsym T hT hempty).mono (hfills4 _)

end Act

/-- A module that is about to use a loaded one. The latter knows all it refers to, and no struct of it is
reached again from its own first member; what the former has seen of the exported structs is whole. -/
structure Use (σ : Type) where
  world : World σ
  name : Text
  {user used : Handle}
  {M D : Module}
  wf : world.store.WF
  loaded : world.registry.lookup name = some used
  own : world.modules[user]? = some M
  source : world.modules[used]? = some D
  sound : M.Sound world.store
  closed : SelfContained world.store used D
  forward : Forward D
  types : ∀ sym ∈ D.scopes.types exportScope, ∀ T, sym.type = some T → T.module = used ∧ T.handle ∈ D.types
  values : ∀ sym ∈ D.scopes.values exportScope, ∀ v, sym.value = some v → v.module = used ∧
    ∃ T, D.values[v.handle]? = some (some T) ∧ T.module = used ∧ T.handle ∈ D.types
  whole : ∀ sym ∈ D.scopes.types exportScope, ∀ T, sym.type = some T → M.membersOf T.handle = [] ∨ Faithful D M T.handle

/-- Using a module ends, and every struct that it exports is then seen as it is there. -/
theorem useModule_faithful {σ : Type} (u : Use σ) :
    Delivers IsFault u.world (Act.useModule u.user u.name) fun _ w' => ∃ M', w'.modules[u.user]? = some M' ∧
      w'.modules[u.used]? = some u.D ∧
      ∀ sym ∈ u.D.scopes.types exportScope, ∀ T, sym.type = some T → Faithful u.D M' T.handle := by
  have hkinds : ∀ (x : Handle) (V : TypeView), u.M.types[x]? = some V → V.kind = u.world.store.typeKind x := by
    intro x V hV
    obtain ⟨t, ht, hk, -⟩ := u.sound.types x V hV
    rw [hk, Emit.typeKind_of_type? ht]
  have hstart : Copying u.world.store u.used u.user u.D u.M u.world := ⟨rfl, u.source, u.own, hkinds⟩
  unfold Act.useModule
  refine .bind (Act.module_known u.own) ?_
  rintro _ w₁ ⟨rfl, rfl⟩
  refine .bind (P := fun found w' => found = some u.used ∧ w' = u.world) ⟨u.loaded, rfl⟩ ?_
  rintro _ w₁ ⟨rfl, rfl⟩
  have hfail : ∀ {code message} {k : PUnit → Act σ Unit} {Q : Unit → World σ → Prop},
      Delivers IsFault u.world (Act.fail u.user code message >>= k) Q :=
    .bind (P := fun _ _ => False) (Act.fail_ends u.own) fun _ _ hfalse => hfalse.elim
  refine .ite (fun _ => hfail) fun _ => .ite (fun _ => hfail) fun hne => ?_
  have hdeps := hstart.update hne (fun i => { i with deps := i.deps ++ [u.name] }) hkinds
  refine .bind (P := fun _ => Copying u.world.store u.used u.user u.D { u.M with deps := u.M.deps ++ [u.name] })
    hdeps fun _ w₂ h₂ => ?_
  refine .bind (P := fun _ => Copying u.world.store u.used u.user u.D { u.M with deps := u.M.deps ++ [u.name] })
    ⟨h₂.store, h₂.source, h₂.own, h₂.kinds⟩ fun span w₃ h₃ => ?_
  refine Act.ensuring_obeys (Act.import_ends h₃ hne u.wf u.closed u.forward u.name u.types u.values) (fun _ w' he => he) ?_
  rintro _ w₄ ⟨M', h', hfills, hfull⟩
  refine ⟨M', h'.own, h'.source, fun sym hsym T hT => ?_⟩
  rcases u.whole sym hsym T hT with hempty | hf
  · exact hfull sym hsym T hT hempty
  · exact Faithful.mono (M := { u.M with deps := u.M.deps ++ [u.name] }) hf (hfills _)

def listStore : Store where
  entries := #[.reserved, .type .i32, .struct { name := [78], label := [78], module := 4 },
    .type (.ptr (.struct 2)), .module { name := [97] }, .module { name := [98] }]
  types := (HashMap.emptyWithCapacity.insert (TypeKey.int .w32).text 1).insert (TypeKey.ptr 2).text 3
  values := {}

lemma listStore_types (key : TypeKey) (h) :
    listStore.types[key.text]? = some h ↔ key = .ptr 2 ∧ h = 3 ∨ key = .int .w32 ∧ h = 1 := by
  simp only [listStore, Store.getElem?_insert_text]
  by_cases hp : TypeKey.ptr 2 = key
  · subst hp
    simp [eq_comm]
  · by_cases hi : TypeKey.int .w32 = key
    · subst hi
      simp [eq_comm]
    · simp [hp, hi, Ne.symm hp, Ne.symm hi]

lemma listStore_wf : listStore.WF where
  reserved := rfl
  size_pos := by decide
  entries h := by
    have hmodule : ∀ k name, listStore.EntryOk k (.module { name }) := fun k name =>
      ⟨fun g hg => by simp at hg, fun q hq => by simp at hq⟩
    rcases h with _ | _ | _ | _ | _ | _ | h
    · trivial
    · exact ⟨⟨_, .int .w32, (listStore_types _ _).2 (.inr ⟨rfl, rfl⟩)⟩, by simp [Store.Holds, Ty.structs]⟩
    · trivial
    · refine ⟨⟨_, .ptr (x := 2) rfl, (listStore_types _ _).2 (.inl ⟨rfl, rfl⟩)⟩, fun k hk => ?_⟩
      cases List.mem_singleton.1 hk
      exact ⟨_, rfl⟩
    · exact hmodule _ _
    · exact hmodule _ _
    · trivial
  types key h hh := by
    rcases (listStore_types key h).1 hh with ⟨rfl, rfl⟩ | ⟨rfl, rfl⟩
    · exact ⟨_, rfl, .ptr rfl⟩
    · exact ⟨_, rfl, .int .w32⟩
  values v h hv := by simp [listStore] at hv
  violations v hv := by simp [listStore] at hv

def listMembers : Array Member := #[{ name := [118], type := ⟨4, 1⟩ }, { name := [110], type := ⟨4, 3⟩ }]

def listModule : Module where
  name := [97]
  scopes := { data := #[{}, {}, {}, { types := (SymbolTable.empty.add { name := [78], type := some ⟨4, 2⟩ }).2 }] }
  types := ((HashMap.emptyWithCapacity.insert 1 { name := [], kind := .i32 }).insert 2
    { name := [78], kind := .struct, members := listMembers }).insert 3
    { name := [], kind := .pointer, elem := some ⟨4, 2⟩ }

lemma listModule_exports : listModule.scopes.types exportScope = [{ name := [78], type := some ⟨4, 2⟩ }] :=
  congrArg Array.toList (SymbolTable.order_add _ (SymbolTable.get?_empty _))

lemma listModule_types (x) : listModule.types[x]? =
    if x = 3 then some { name := [], kind := .pointer, elem := some ⟨4, 2⟩ }
    else if x = 2 then some { name := [78], kind := .struct, members := listMembers }
    else if x = 1 then some { name := [], kind := .i32 } else none := by
  simp only [listModule, HashMap.getElem?_insert, beq_iff_eq, HashMap.getElem?_emptyWithCapacity, eq_comm (b := x)]

lemma listModule_members (x) : listModule.membersOf x = if x = 2 then listMembers.toList else [] := by
  rw [Module.membersOf, listModule_types]
  by_cases h3 : x = 3
  · simp [h3]
  · by_cases h2 : x = 2
    · simp [h2]
    · by_cases h1 : x = 1 <;> simp [h1, h2, h3]

lemma listModule_seen (hx : x = 1 ∨ x = 2 ∨ x = 3) : x ∈ listModule.types := by
  rw [← HashMap.isSome_getElem?_iff_mem, listModule_types]
  rcases hx with rfl | rfl | rfl <;> rfl

lemma listModule_closed : SelfContained listStore 4 listModule where
  sound := by
    refine ⟨fun x V hV => ?_, fun v T hT => by simp [listModule] at hT⟩
    rw [listModule_types] at hV
    split_ifs at hV with h3 h2 h1
    · cases hV
      subst h3
      exact ⟨.ptr (.struct 2), rfl, rfl, fun e he => ⟨.struct 2, rfl, by cases he; rfl⟩⟩
    · cases hV
      subst h2
      exact ⟨.struct 2, rfl, rfl, nofun⟩
    · cases hV
      subst h1
      exact ⟨.i32, rfl, rfl, nofun⟩
  elem x V e hV he := by
    rw [listModule_types] at hV
    split_ifs at hV <;> cases hV <;> cases he
    exact ⟨rfl, listModule_seen (by simp)⟩
  member x a ha := by
    rw [listModule_members] at ha
    split_ifs at ha
    · rcases List.mem_pair.1 ha with rfl | rfl
      · exact ⟨rfl, listModule_seen (by simp)⟩
      · exact ⟨rfl, listModule_seen (by simp)⟩
    · cases ha
  value x a ha v hv := by
    rw [listModule_members] at ha
    split_ifs at ha
    · rcases List.mem_pair.1 ha with rfl | rfl <;> cases hv
    · cases ha
  struct x hx := by
    rw [listModule_members] at hx
    split_ifs at hx with h2
    · subst h2
      rfl
    · exact absurd rfl hx
  names x := by
    rw [listModule_members]
    split_ifs
    · decide
    · exact List.nodup_nil

lemma listModule_forward : Forward listModule := by
  intro x a y hfirst htouch hreach
  rw [listModule_members] at hfirst
  split_ifs at hfirst with h2
  on_goal 2 => cases hfirst
  cases hfirst
  have hy : y = 1 := by
    rcases htouch with rfl | ⟨v, T, hv, -⟩
    · rfl
    · cases hv
  have hend : ∀ z, ¬Leads listModule 1 z := by
    rintro z (⟨V, e, hV, he, -⟩ | ⟨b, hb, -⟩)
    · rw [listModule_types] at hV
      cases hV
      cases he
    · rw [listModule_members] at hb
      cases hb
  subst hy
  rcases hreach.cases_head with rfl | ⟨z, hz, -⟩
  · cases h2
  · exact hend z hz

def listUse : Use Unit where
  world := { store := listStore, registry := [([97], 4)], user := (),
             modules := (HashMap.emptyWithCapacity.insert 4 listModule).insert 5 { name := [98], scopes := {} } }
  name := [97]
  user := 5
  used := 4
  M := { name := [98], scopes := {} }
  D := listModule
  wf := listStore_wf
  loaded := rfl
  own := by simp
  source := by rw [HashMap.getElem?_insert, if_neg (by decide), HashMap.getElem?_insert_self]
  sound := ⟨fun x V hV => by simp at hV, fun v T hT => by simp at hT⟩
  closed := listModule_closed
  forward := listModule_forward
  types sym hsym T hT := by
    rw [listModule_exports] at hsym
    cases List.mem_singleton.1 hsym
    cases hT
    exact ⟨rfl, listModule_seen (by simp)⟩
  values sym hsym := by cases hsym
  whole sym _ T _ := .inl (by simp [Module.membersOf])

theorem useModule_faithful_list : Forward listUse.D ∧ Leads listUse.D 2 3 ∧ Leads listUse.D 3 2 ∧
    Delivers IsFault listUse.world (Act.useModule 5 [97]) fun _ w' => ∃ M', w'.modules[5]? = some M' ∧
      w'.modules[4]? = some listModule ∧
      ∀ sym ∈ listModule.scopes.types exportScope, ∀ T, sym.type = some T → Faithful listModule M' T.handle :=
  ⟨listModule_forward, .inr ⟨{ name := [110], type := ⟨4, 3⟩ }, by simp [listUse, listModule_members, listMembers], .inl rfl⟩,
    .inl ⟨_, _, listModule_types 3, rfl, rfl⟩, useModule_faithful listUse⟩

end Arbor.Build
