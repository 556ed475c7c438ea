import Arbor.Build.Context
import Arbor.Proofs.Emission

/-! What a load leaves of the registry, whatever its build function does: it may make modules,
register some, run other loads, look at everything and hand back any module, with or without a
fault. A module that was registered stays so, in its place and in use, unless a failed load was
handed that module; and a failed load leaves its name registered exactly if the build registered
under it something that it did not hand back. -/

namespace Arbor.Build

open IR Diag Proofs
open List (prefix_refl append_nil)

variable {σ α : Type} {w : World σ}

def World.dropped? (w : World σ) (m : Handle) : Option Bool := (w.store.module? m).map ModuleInfo.dropped

/-- Of the modules that were there, exactly those in `lost` were taken out of the registry and
dropped; the others are registered in their old order, before anything new. -/
structure After (lost : List Handle) (w w' : World σ) : Prop where
  registry : (w.registry.filter fun e => e.2 ∉ lost) <+: w'.registry
  dropped : ∀ m b, w.dropped? m = some b → w'.dropped? m = some (b || m ∈ lost)

namespace After

lemma of_eq (hr : w.registry <+: w₁.registry) (hs : w₁.store = w.store) : After [] w w₁ where
  registry := by simpa using hr
  dropped m b h := by simpa [World.dropped?, hs] using h

lemma refl (w : World σ) : After [] w w := .of_eq (prefix_refl _) rfl

lemma trans (h : After lost w w₁) (h' : After more w₁ w₂) : After (lost ++ more) w w₂ where
  registry := by
    have hfilter := List.IsPrefix.filter (fun e => decide (e.2 ∉ more)) h.registry
    rw [List.filter_filter] at hfilter
    have hsplit : (w.registry.filter fun e => e.2 ∉ lost ++ more) =
        w.registry.filter fun e => decide (e.2 ∉ more) && decide (e.2 ∉ lost) :=
      List.filter_congr fun e _ => by simp [Bool.and_comm]
    exact hsplit ▸ hfilter.trans h'.registry
  dropped m b hb := by
    rw [h'.dropped m _ (h.dropped m b hb)]
    simp [Bool.or_assoc]

lemma before (h : After [] w w₁) (h' : After lost w₁ w₂) : After lost w w₂ := h.trans h'

lemma next (h : After lost w w₁) (h' : After [] w₁ w₂) : After lost w w₂ := by
  simpa using h.trans h'

end After

/-- A build function: what it does between start and end, seen from the registry. `work` is anything
that loses no module. -/
inductive Script (σ : Type) where
  | finish (b : Act.Built)
  | observe (next : World σ → Script σ)
  | work (a : { a : Act σ Unit // ∀ w, After [] w (endState (a w)) })
      (next : Except Fault Unit → Script σ)
  | create (name : Text) (next : Except Fault Handle → Script σ)
  | register (m : Handle) (next : Except Fault Unit → Script σ)
  | load (name : Text) (build : Script σ) (next : Except Fault Handle → Script σ)

def World.begun (name : Text) (w : World σ) : World σ :=
  let (span, trace) := w.trace.beginSpan .module name "load" 0
  { w with trace, loading := span.id }

/-- What a load takes out of the registry itself: the module handed back, if the load fails. -/
def handedBack (name : Text) (build : Act σ Act.Built) (w : World σ) : List Handle :=
  match build (w.begun name), Act.loadModule name build w with
  | .ok b _, .error (.fault _) _ => b.module.toList
  | _, _ => []

def lostIn (name : Text) (build : Act σ Act.Built) (inner : World σ → List Handle) (w : World σ) :
    List Handle :=
  if (w.registry.lookup name).isSome then [] else inner (w.begun name) ++ handedBack name build w

namespace Script

def act : Script σ → Act σ Act.Built
  | finish b => pure b
  | observe next => do (next (← get)).act
  | work a next => do (next (← Act.attempt a.1)).act
  | create name next => do (next (← Act.attempt (Act.newModule name))).act
  | register m next => do (next (← Act.attempt (Act.addModule m))).act
  | load name build next => do (next (← Act.attempt (Act.loadModule name build.act))).act

def lost : Script σ → World σ → List Handle
  | finish _, _ => []
  | observe next, w => (next w).lost w
  | work a next, w => following (Act.attempt a.1 w) fun r => (next r).lost
  | create name next, w => following (Act.attempt (Act.newModule name) w) fun r => (next r).lost
  | register m next, w => following (Act.attempt (Act.addModule m) w) fun r => (next r).lost
  | load name build next, w =>
    lostIn name build.act build.lost w ++
      following (Act.attempt (Act.loadModule name build.act) w) fun r => (next r).lost
where
  following {α : Type} (r : EStateM.Result Failure (World σ) α) (rest : α → World σ → List Handle) :
      List Handle :=
    match r with
    | .ok x w => rest x w
    | .error _ _ => []

end Script

lemma Act.endState_attempt (a : Act σ α) : endState (attempt a w) = endState (a w) := by
  simp only [Act.attempt, Proofs.tryCatch_apply, bind, EStateM.bind]
  cases a w with
  | ok x w₁ => rfl
  | error e w₁ => cases e <;> rfl

namespace After

variable {β : Type}

lemma bind {a : Act σ α} {f : α → Act σ β} {lost : List Handle} {rest : α → World σ → List Handle}
    (h : After lost w (endState (a w)))
    (k : ∀ x w₁, a w = .ok x w₁ → After (rest x w₁) w₁ (endState (f x w₁))) :
    After (lost ++ Script.lost.following (a w) rest) w (endState ((a >>= f) w)) := by
  change After _ w (endState (EStateM.bind a f w))
  unfold EStateM.bind
  cases hx : a w with
  | error e w₁ =>
    rw [hx] at h
    rw [Script.lost.following, append_nil]
    exact h
  | ok x w₁ =>
    rw [hx] at h
    exact h.trans (k x w₁ hx)

lemma before_bind {a : Act σ α} {f : α → Act σ β}
    (h : After [] w (endState (a w))) (k : ∀ x w₁, a w = .ok x w₁ → After (rest x w₁) w₁ (endState (f x w₁))) :
    After (Script.lost.following (a w) rest) w (endState ((a >>= f) w)) := h.bind k

end After

namespace Act

lemma dropModule_dropped (s m) : ∃ s', Emit.dropModule m s = .ok () s' ∧
    ∀ k b, (s.module? k).map ModuleInfo.dropped = some b →
      (s'.module? k).map ModuleInfo.dropped = some (b || k ∈ [m]) := by
  unfold Emit.dropModule
  simp only [bind, EStateM.bind, Proofs.get_apply]
  cases hm : s.module? m with
  | none =>
    refine ⟨s, rfl, fun k b hb => ?_⟩
    have hne : k ≠ m := fun h => by simp [h, hm] at hb
    simpa [hne] using hb
  | some info =>
    dsimp only
    by_cases hd : info.dropped
    · rw [if_pos hd]
      refine ⟨s, rfl, fun k b hb => ?_⟩
      by_cases hk : k = m
      · subst hk
        simp [hm, hd]
      · simpa [hk] using hb
    · rw [if_neg hd]
      refine ⟨_, rfl, fun k b hb => ?_⟩
      have hentry := Store.entry_setIfInBounds s m (.module { info with dropped := true }) k
      by_cases hk : k = m
      · subst hk
        have hlt := Store.lt_size_of_entry_ne (by rw [Store.module?_eq_some.1 hm]; simp)
        rw [if_pos ⟨rfl, hlt⟩] at hentry
        exact (congrArg (Option.map ModuleInfo.dropped) (Store.module?_eq_some.2 hentry)).trans (by simp)
      · rw [if_neg fun h => hk h.1] at hentry
        obtain ⟨i, hi, hb⟩ := Option.map_eq_some_iff.1 hb
        have hsame := Store.module?_eq_some.2 (hentry.trans (Store.module?_eq_some.1 hi))
        exact (congrArg (Option.map ModuleInfo.dropped) hsame).trans (by simp [hk, hb])

lemma newModule_after (name) : After [] w (endState (newModule name w)) := by
  unfold newModule Emit.makeModule
  by_cases hname : name.isEmpty
  · rw [if_pos hname]
    exact .refl w
  · rw [if_neg hname]
    have hkeep : (w.registry.filter fun e => e.2 ∉ []) = w.registry := by simp
    refine ⟨hkeep.symm ▸ prefix_refl w.registry, fun m b hb => ?_⟩
    obtain ⟨info, hinfo, hdropped⟩ := Option.map_eq_some_iff.1 hb
    have hold := Emit.module?_push (.module { name }) hinfo
    change ((w.store.push (.module { name })).2.module? m).map _ = _
    rw [hold, Option.map_some, hdropped]
    simp

lemma addModule_after (m) : After [] w (endState (addModule m w)) := by
  unfold addModule moduleName module need
  cases hm : w.modules[m]? with
  | none =>
    simp only [bind, EStateM.bind, Proofs.get_apply, hm]
    exact .refl w
  | some M =>
    simp only [bind, EStateM.bind, Proofs.get_apply, hm, pure, EStateM.pure, loaded?]
    cases w.registry.lookup M.name with
    | some k => exact .refl w
    | none => exact .of_eq (List.prefix_append ..) rfl

lemma discard_after (m) : ∃ w', discard m w = .ok () w' ∧ After [m] w w' ∧
    w'.registry = w.registry.filter fun e => e.2 ∉ [m] := by
  obtain ⟨s, hs, hdropped⟩ := dropModule_dropped w.store m
  have hregistry : (w.registry.filter fun e => e.2 ≠ m) = w.registry.filter fun e => e.2 ∉ [m] := by simp
  refine ⟨{ w with registry := w.registry.filter fun e => e.2 ≠ m, store := s }, ?_, ⟨?_, hdropped⟩, hregistry⟩
  · simp only [discard, emit, bind, EStateM.bind, modify, modifyGet, MonadStateOf.modifyGet, EStateM.modifyGet, hs,
      pure, EStateM.pure]
  · exact hregistry ▸ prefix_refl _

end Act

/-- How a load ends once its build function has yielded `b`: the module is registered, or what was
handed back is taken out, or something was not there and the load stops. -/
inductive Concludes (name : Text) (b : Act.Built) (w : World σ) :
    EStateM.Result Failure (World σ) Handle → Prop
  | loaded {m : Handle} {w' : World σ} (hregistry : w.registry <+: w'.registry) (hm : (name, m) ∈ w'.registry)
      (hstore : w'.store = w.store) : Concludes name b w (.ok m w')
  | failed {f : Fault} {w' : World σ} (hafter : After b.module.toList w w')
      (hregistry : w'.registry = w.registry.filter fun e => e.2 ∉ b.module.toList) :
      Concludes name b w (.error (.fault f) w')
  | stopped {e : Failure} (he : ∀ f, e ≠ .fault f) : Concludes name b w (.error e w)

inductive Accepts (name : Text) (w : World σ) : EStateM.Result Failure (World σ) Handle → Prop
  | loaded {m : Handle} {w' : World σ} (hregistry : w.registry <+: w'.registry) (hm : (name, m) ∈ w'.registry)
      (hstore : w'.store = w.store) : Accepts name w (.ok m w')
  | refused {e : Failure} : Accepts name w (.error e w)

lemma World.mem_of_lookup {m : Handle} (h : w.registry.lookup name = some m) :
    (name, m) ∈ w.registry := by
  obtain ⟨before, rest, hsplit, -⟩ := List.lookup_eq_some_iff.1 h
  rw [hsplit]
  simp

lemma Act.accept_accepts (name m) : Accepts name w (Act.accept name m w) := by
  unfold accept
  cases m with
  | none => exact .refused
  | some m =>
    unfold moduleName module need
    cases hM : w.modules[m]? with
    | none =>
      simp only [bind, EStateM.bind, Proofs.get_apply, hM]
      exact .refused
    | some M =>
      simp only [bind, EStateM.bind, Proofs.get_apply, hM, pure, EStateM.pure]
      by_cases hname : M.name = name
      · rw [if_neg (by simpa using hname)]
        change Accepts name w ((if w.registry.lookup name ≠ some m then addModule m >>= fun _ => pure m else pure m) w)
        by_cases hlookup : w.registry.lookup name = some m
        · rw [if_neg (by simpa using hlookup)]
          exact .loaded (prefix_refl _) (World.mem_of_lookup hlookup) rfl
        · rw [if_pos hlookup]
          unfold addModule moduleName module need
          simp only [bind, EStateM.bind, Proofs.get_apply, hM, pure, EStateM.pure, loaded?, hname]
          cases w.registry.lookup name with
          | some k => exact .refused
          | none => exact .loaded (List.prefix_append ..) (by simp) rfl
      · rw [if_pos hname]
        exact .refused

namespace Act

lemma loadModule_refused {m : Handle} (build) (h : w.registry.lookup name = some m) :
    loadModule name build w = .error (.fault (alreadyLoaded name)) w := by
  simp only [loadModule, loaded?, bind, EStateM.bind, Proofs.get_apply, h]
  rfl

lemma abandon_concludes (name span outer b f) : Concludes name b w (abandon name span outer b.module f w) := by
  unfold abandon
  obtain ⟨made, fault⟩ := b
  cases made with
  | none => exact .failed (.of_eq (prefix_refl _) rfl) (by simp)
  | some m =>
    obtain ⟨w₁, heq, hafter, hregistry⟩ := discard_after (w := w) m
    simp only [bind, EStateM.bind, heq]
    exact .failed (hafter.next (.of_eq (prefix_refl _) rfl)) hregistry

lemma conclude_concludes (name span outer b) : Concludes name b w (conclude name span outer b w) := by
  unfold conclude
  cases hfault : b.fault with
  | some f => exact abandon_concludes name span outer b f
  | none =>
    simp only [attempt, Proofs.tryCatch_apply, bind, EStateM.bind]
    have haccepts := accept_accepts (w := w) name b.module
    cases haccept : accept name b.module w with
    | ok m w₁ =>
      rw [haccept] at haccepts
      cases haccepts with
      | loaded hregistry hm hstore => exact .loaded hregistry hm hstore
    | error e w₁ =>
      rw [haccept] at haccepts
      cases haccepts with
      | refused =>
        cases e with
        | fault f => exact abandon_concludes name span outer b f
        | missing => exact .stopped nofun
        | endless => exact .stopped nofun

lemma loadModule_fresh (build) (hfresh : w.registry.lookup name = none) :
    ∃ span, loadModule name build w = (build >>= conclude name span w.loading) (w.begun name) := by
  apply Exists.intro
  change (if (w.registry.lookup name).isSome = true then _ else _ : Act σ Handle) w = _
  rw [hfresh]
  rfl

lemma loadModule_stopped {e : Failure} (hfresh : w.registry.lookup name = none)
    (hb : build (w.begun name) = .error e w₁) : loadModule name build w = .error e w₁ := by
  obtain ⟨span, heq⟩ := loadModule_fresh build hfresh
  rw [heq]
  simp only [bind, EStateM.bind, hb]

lemma loadModule_concludes {b : Built}
    (hfresh : w.registry.lookup name = none) (hb : build (w.begun name) = .ok b w₁) :
    Concludes name b w₁ (loadModule name build w) := by
  obtain ⟨span, heq⟩ := loadModule_fresh build hfresh
  rw [heq]
  simp only [bind, EStateM.bind, hb]
  exact conclude_concludes name span w.loading b

end Act

lemma Act.loadModule_after {inner : World σ → List Handle}
    (h : After (inner (w.begun name)) (w.begun name) (endState (build (w.begun name)))) :
    After (lostIn name build inner w) w (endState (loadModule name build w)) := by
  unfold lostIn
  cases hlookup : w.registry.lookup name with
  | some m =>
    rw [loadModule_refused build hlookup]
    exact .refl w
  | none =>
    have hbegun : After [] w (w.begun name) := .of_eq (prefix_refl _) rfl
    refine hbegun.before ?_
    unfold handedBack
    cases hb : build (w.begun name) with
    | error e w₁ =>
      rw [loadModule_stopped hlookup hb, append_nil]
      rwa [hb] at h
    | ok b w₁ =>
      rw [hb] at h
      have hend := loadModule_concludes hlookup hb
      cases hload : loadModule name build w with
      | ok m w₂ =>
        rw [hload] at hend
        cases hend with
        | loaded hregistry _ hstore => exact h.trans (.of_eq hregistry hstore)
      | error e w₂ =>
        rw [hload] at hend
        cases hend with
        | failed hafter _ => exact h.trans hafter
        | stopped he =>
          cases e with
          | fault f => exact absurd rfl (he f)
          | missing | endless => exact (append_nil _).symm ▸ h

lemma Script.after_act (s : Script σ) : ∀ w, After (s.lost w) w (endState (s.act w)) := by
  induction s with
  | finish b => exact .refl
  | observe next ih => exact fun w => ih w w
  | work a next ih => exact fun w => .before_bind (by rw [Act.endState_attempt]; exact a.2 w) fun r w₁ _ => ih r w₁
  | create name next ih =>
    exact fun w => .before_bind (by rw [Act.endState_attempt]; exact Act.newModule_after name) fun r w₁ _ => ih r w₁
  | register m next ih =>
    exact fun w => .before_bind (by rw [Act.endState_attempt]; exact Act.addModule_after m) fun r w₁ _ => ih r w₁
  | load name build next ihBuild ih =>
    exact fun w => .bind (by rw [Act.endState_attempt]; exact Act.loadModule_after (ihBuild _)) fun r w₁ _ => ih r w₁

/-- A load loses exactly the modules that failed loads were handed, itself included: every other
module stays registered in its place and in use. Afterwards its name is registered if it was before,
if the load succeeded, or if the build registered under it a module that the load was not handed. -/
theorem loadModule_registry (name : Text) (s : Script σ) (w : World σ) :
    After (lostIn name s.act s.lost w) w (endState (Act.loadModule name s.act w)) ∧
    ((∃ m, (name, m) ∈ (endState (Act.loadModule name s.act w)).registry) ↔
      (∃ m, (name, m) ∈ w.registry) ∨ (∃ m w', Act.loadModule name s.act w = .ok m w') ∨
      ∃ m, (name, m) ∈ (endState (s.act (w.begun name))).registry ∧ m ∉ handedBack name s.act w) := by
  refine ⟨Act.loadModule_after (s.after_act _), ?_⟩
  cases hlookup : w.registry.lookup name with
  | some m =>
    rw [Act.loadModule_refused s.act hlookup]
    exact ⟨fun h => .inl h, fun _ => ⟨m, (World.mem_of_lookup hlookup)⟩⟩
  | none =>
    have hnew : ¬∃ m, (name, m) ∈ w.registry := fun ⟨m, hm⟩ => by
      simpa using List.lookup_eq_none_iff.1 hlookup _ hm
    unfold handedBack
    cases hb : s.act (w.begun name) with
    | error e w₁ =>
      rw [Act.loadModule_stopped hlookup hb]
      simp [hnew, endState]
    | ok b w₁ =>
      have hend := Act.loadModule_concludes hlookup hb
      cases hload : Act.loadModule name s.act w with
      | ok m w₂ =>
        rw [hload] at hend
        cases hend with
        | loaded _ hm _ => exact ⟨fun _ => .inr (.inl ⟨m, w₂, rfl⟩), fun _ => ⟨m, hm⟩⟩
      | error e w₂ =>
        rw [hload] at hend
        cases hend with
        | failed _ hregistry => simp [hnew, endState, hregistry]
        | stopped he =>
          cases e with
          | fault f => exact absurd rfl (he f)
          | missing | endless => simp [hnew, endState]

end Arbor.Build
