import Arbor.Project.Run
import Arbor.Proofs.Planning
import Arbor.Proofs.World

/-! Building a plan, whatever loading and verifying do. Runs are watched by tools that note every
load: a module is loaded at most once, after everything it needs is loaded and verified, and it
ends up built exactly if nothing stands against it and its own load and verification succeed. -/

namespace Arbor.Build

open Proofs List

variable {σ τ ρ α β : Type}
def World.handTo (w : World σ) (user : τ) : World τ := { w with user }

def Act.beside (a : Act σ α) : Act (σ × ρ) α := fun w =>
  match a (w.handTo w.user.1) with
  | .ok x w' => .ok x (w'.handTo (w'.user, w.user.2))
  | .error e w' => .error e (w'.handTo (w'.user, w.user.2))

def Act.note (f : ρ → ρ) : Act (σ × ρ) Unit := modify fun w => w.handTo (w.user.1, f w.user.2)

end Arbor.Build

namespace Arbor.Proofs.Obeys

open Build

variable {σ ρ α β : Type}

lemma of_beside {w : World (σ × ρ)} {a : Act σ α} {P : α → Prop} {E : Failure → Prop}
    (h : ∀ w : World σ, Obeys w a (fun x _ => P x) fun e _ => E e) :
    Obeys w a.beside (fun x _ => P x) fun e _ => E e := by
  have h := h (w.handTo w.user.1)
  unfold Obeys Act.beside at *
  cases hx : a (w.handTo w.user.1) with
  | ok x w' => rwa [hx] at h
  | error e w' => rwa [hx] at h

lemma beside {w : World (σ × ρ)} (a : Act σ α) :
    Obeys w a.beside (fun _ w' => w'.user.2 = w.user.2) fun _ w' => w'.user.2 = w.user.2 := by
  unfold Obeys Act.beside
  cases a (w.handTo w.user.1) <;> rfl

lemma raise_bind {w : World σ} {f : Diag.Fault} {k : α → Act σ β} (h : E (.fault f) w) :
    Obeys w (Act.raise f >>= k) Q E := h

lemma note {w : World (σ × ρ)} {f : ρ → ρ} : Obeys w (Act.note f) (fun _ w' => w'.user.2 = f w.user.2) E := rfl

end Arbor.Proofs.Obeys

namespace Arbor.Project

open Build IR Diag Proofs Option List

/-- One call of the loader: the module asked for, what the loader yielded, and whether that was
verified. -/
structure Attempt where
  name : Text
  loaded : Option Handle := none
  verified : Bool := false
deriving DecidableEq

namespace Attempt

def latest (f : Attempt → Attempt) : List Attempt → List Attempt
  | [] => []
  | a :: rest => f a :: rest

end Attempt

variable {σ : Type}

def Tools.recorded (t : Tools σ) : Tools (σ × List Attempt) where
  notify e := (t.notify e).beside
  cancelled := t.cancelled.beside
  load m := do
    Act.note (⟨m.name, none, false⟩ :: ·)
    let h ← (t.load m).beside
    Act.note (Attempt.latest fun a => { a with loaded := some h })
    pure h
  verify h := do
    (t.verify h).beside
    Act.note (Attempt.latest fun a => { a with verified := a.loaded = some h })

def Harmless (e : Failure) : Prop := ∃ f, e = .fault f ∧ f.isCancelled = false

/-- Tools that never end a run: nothing is cancelled, and what fails to load or verify fails by itself. -/
structure Tools.Steady (t : Tools σ) : Prop where
  notify : ∀ e w, Obeys w (t.notify e) (fun _ _ => True) fun _ _ => False
  cancelled : ∀ w, Obeys w t.cancelled (fun b _ => b = false) fun _ _ => False
  load : ∀ m w, Obeys w (t.load m) (fun _ _ => True) fun e _ => Harmless e
  verify : ∀ h w, Obeys w (t.verify h) (fun _ _ => True) fun e _ => Harmless e

def Failed (name : Text) (log log' : List Attempt) : Prop :=
  ∃ a : Attempt, a.name = name ∧ a.verified = false ∧ log' = a :: log

variable {t : Tools σ} {p : Plan} {id : ModuleId} {place : Nat} {j : Job} {w : World (σ × List Attempt)}

lemma tell_recorded (phase) (status) : Obeys w (t.recorded.tell j phase status)
    (fun _ w' => w'.user.2 = w.user.2) fun _ w' => w'.user.2 = w.user.2 := .beside _

lemma tellFailed_recorded (phase) (f) : Obeys w (t.recorded.tellFailed j phase f)
    (fun _ w' => w'.user.2 = w.user.2) fun _ w' => w'.user.2 = w.user.2 := .beside _

lemma load_recorded (tree) : Obeys w (t.recorded.load tree)
    (fun m w' => w'.user.2 = ⟨tree.name, some m, false⟩ :: w.user.2)
    fun _ w' => Failed tree.name w.user.2 w'.user.2 := by
  refine .bind .note fun _ w1 h1 => ?_
  refine .bind ((Obeys.beside _).weaken fun _ w2 h2 => ⟨_, rfl, rfl, h2.trans h1⟩) fun m w2 h2 => ?_
  refine .bind .note fun _ w3 h3 => .pure ?_
  rw [h3, h2, h1]
  rfl

lemma verify_recorded (ha : a.loaded = some m) (hlog : w.user.2 = a :: log) : Obeys w (t.recorded.verify m)
    (fun _ w' => w'.user.2 = { a with verified := true } :: log) fun _ w' => w'.user.2 = a :: log := by
  refine .bind ((Obeys.beside _).weaken fun _ w1 h1 => h1.trans hlog) fun _ w1 h1 => ?_
  refine Eq.trans (b := Attempt.latest _ w1.user.2) rfl ?_
  rw [h1, hlog, Attempt.latest, ha]
  simp

lemma make_recorded (htree : j.tree = some tree) : Obeys w (t.recorded.make j)
    (fun m w' => w'.user.2 = ⟨tree.name, some m, true⟩ :: w.user.2) fun _ w' => Failed tree.name w.user.2 w'.user.2 := by
  unfold Tools.make
  rw [htree]
  refine .bind (P := fun x w' => x = tree ∧ w' = w) ⟨rfl, rfl⟩ ?_
  rintro x w ⟨rfl, rfl⟩
  refine .bind (load_recorded x) fun m w2 h2 => ?_
  refine .bind ((tell_recorded ..).weaken fun _ w3 h3 => ⟨_, rfl, rfl, h3.trans h2⟩) fun _ w3 h3 => ?_
  refine .bind ((Act.attempt_obeys (verify_recorded rfl (h3.trans h2))).weaken fun _ w4 h4 => ⟨_, rfl, rfl, h4.1⟩) fun r w4 h4 => ?_
  obtain ⟨u, rfl, h4⟩ | ⟨f, rfl, h4⟩ := h4
  · exact .pure h4
  · refine .bind ((tellFailed_recorded ..).weaken fun _ w5 h5 => ⟨_, rfl, rfl, h5.trans h4⟩) fun _ w5 h5 => ?_
    exact .throw ⟨_, rfl, rfl, h5.trans h4⟩

lemma construct_recorded : Obeys w (Plan.construct t.recorded p id place j) (fun p' w' => ∃ tree,
    j.tree = some tree ∧ ((∃ m, p' = p.update place (fun j => { j with built := some m }) ∧
      w'.user.2 = ⟨tree.name, some m, true⟩ :: w.user.2) ∨
    ∃ f, p' = p.fail id place j f ∧ Failed tree.name w.user.2 w'.user.2)) fun _ _ => True := by
  have free : ∀ {α : Type} {w : World (σ × List Attempt)} {a : Act (σ × List Attempt) α}
      {P : α → World (σ × List Attempt) → Prop} {E : Failure → World (σ × List Attempt) → Prop},
      Obeys w a P E → Obeys w a P fun _ _ => True := fun h => h.weaken fun _ _ _ => trivial
  refine .bind (free (tell_recorded ..)) fun _ w1 h1 => ?_
  cases htree : j.tree with
  | none =>
    have hstuck : t.recorded.make j w1 = .error .missing w1 := by
      unfold Tools.make
      rw [htree]
      rfl
    have hmake : Obeys w1 (t.recorded.make j) (fun _ _ => False) fun e _ => e = .missing := by
      unfold Obeys
      rw [hstuck]
    refine .bind (free (Act.attempt_obeys hmake)) fun r w2 h2 => ?_
    obtain ⟨_, -, hf⟩ | ⟨_, -, hf⟩ := h2
    · exact hf.elim
    · cases hf
  | some tree =>
    refine .bind (free (Act.attempt_obeys (make_recorded htree))) fun r w2 h2 => ?_
    rw [h1] at h2
    obtain ⟨m, rfl, h2⟩ | ⟨f, rfl, h2⟩ := h2
    · refine .bind (free (tell_recorded ..)) fun _ w3 h3 => ?_
      exact .pure ⟨tree, rfl, .inl ⟨m, rfl, h3.trans h2⟩⟩
    · by_cases hc : f.isCancelled
      · simp only [hc]
        exact trivial
      · simp only [hc]
        refine .bind (free (tellFailed_recorded ..)) fun _ w3 h3 => ?_
        exact .pure ⟨tree, rfl, .inr ⟨f, rfl, h3 ▸ h2⟩⟩

lemma Tools.Steady.recorded (h : t.Steady) : t.recorded.Steady where
  notify e _ := .of_beside (h.notify e)
  cancelled _ := .of_beside h.cancelled
  load m _ := .bind .note fun _ _ _ => .bind (.of_beside (h.load m)) fun _ _ _ => .bind .note fun _ _ _ => .pure trivial
  verify m _ := .bind (.of_beside (h.verify m)) fun _ _ _ => Obeys.note.mono fun _ _ _ => trivial

section Steady

variable {w : World σ}

lemma Tools.Steady.tell (hs : t.Steady) (phase status) :
    Obeys w (t.tell j phase status) (fun _ _ => True) fun _ _ => False := hs.notify _ _

lemma Tools.Steady.tellFailed (hs : t.Steady) (phase f) :
    Obeys w (t.tellFailed j phase f) (fun _ _ => True) fun _ _ => False := hs.notify _ _

lemma make_steady (hs : t.Steady) (htree : j.tree.isSome) :
    Obeys w (t.make j) (fun _ _ => True) fun e _ => Harmless e := by
  obtain ⟨tree, htree⟩ := isSome_iff_exists.1 htree
  unfold Tools.make
  rw [htree]
  refine .bind (P := fun x _ => x = tree) rfl ?_
  rintro x w1 rfl
  refine .bind (hs.load x w1) fun m w2 _ => ?_
  refine .bind ((hs.tell ..).weaken fun _ _ => False.elim) fun _ w3 _ => ?_
  refine .bind ((Act.attempt_obeys (hs.verify m w3)).weaken fun _ _ h => h.1) fun r w4 h4 => ?_
  obtain ⟨u, rfl, -⟩ | ⟨f, rfl, hf⟩ := h4
  · exact .pure trivial
  · exact .bind ((hs.tellFailed ..).weaken fun _ _ => False.elim) fun _ w5 _ => .throw hf

lemma construct_steady (hs : t.Steady) (htree : j.tree.isSome) :
    Obeys w (Plan.construct t p id place j) (fun _ _ => True) fun _ _ => False := by
  refine .bind (hs.tell ..) fun _ w1 _ => ?_
  refine .bind ((Act.attempt_obeys (make_steady hs htree)).weaken ?_) fun r w2 h2 => ?_
  · rintro _ _ ⟨⟨f, rfl, -⟩, hfault⟩
    exact hfault f rfl
  · obtain ⟨m, rfl, -⟩ | ⟨_, rfl, f, ⟨⟩, hf⟩ := h2
    · exact .bind (hs.tell ..) fun _ w3 _ => .pure trivial
    · simp only [hf]
      exact .bind (hs.tellFailed ..) fun _ w3 _ => .pure trivial

end Steady

/-! ### One module's turn -/

namespace Plan

def CanBuild (p : Plan) (id : ModuleId) : Prop :=
  (slotOf p.slots id).broken = false ∧ ∀ dep, p.graph.Imports id dep → (slotOf p.slots dep).broken = false

structure Turned (id : ModuleId) (place : Nat) (p p' : Plan) (log log' : List Attempt) : Prop where
  graph : p'.graph = p.graph
  schedule : p'.schedule = p.schedule
  size : p'.slots.size = p.slots.size
  change :
    ((¬p.CanBuild id ∧ log' = log ∨ p.CanBuild id ∧ ∃ j tree, p.jobs[place]? = some j ∧ j.tree = some tree ∧
          Failed tree.name log log') ∧
        p'.jobs.map Job.core = p.jobs.map Job.core ∧
        ∀ i, (slotOf p'.slots i).broken = ((slotOf p.slots i).broken || i = id)) ∨
    (p.CanBuild id ∧ ∃ j tree m, p.jobs[place]? = some j ∧ j.tree = some tree ∧
      log' = ⟨tree.name, some m, true⟩ :: log ∧
      p'.jobs.map Job.core = (p.jobs.map Job.core).modify place (fun j => { j with built := some m }) ∧
      ∀ i, (slotOf p'.slots i).broken = (slotOf p.slots i).broken)

lemma step_of_canBuild {τ : Type} (t : Tools τ) (hplace : p.graph.place? id = some place) (hcan : p.CanBuild id) :
    step t p id = (do
      t.checkpoint
      construct t p id place (p.jobs.getD place default)) := by
  have hb : ¬(slotOf p.slots id).broken := by simp [hcan.1]
  have hdep : p.graph.brokenDep? p.slots id = none := find?_eq_none.2 fun dep hdep => by simp [hcan.2 dep hdep]
  unfold step
  rw [hplace]
  rw [Graph.propagate, if_neg hb, hdep]
  dsimp only
  rw [if_neg hb]

lemma step_of_not_canBuild (hid : id < p.slots.size) (hplace : p.graph.place? id = some place)
    (hcan : ¬p.CanBuild id) : ∃ q : Plan, q.graph = p.graph ∧ q.schedule = p.schedule ∧
      q.slots.size = p.slots.size ∧ q.jobs.map Job.core = p.jobs.map Job.core ∧
      (∀ i, (slotOf q.slots i).broken = ((slotOf p.slots i).broken || i = id)) ∧
      ∀ {τ : Type} (t : Tools τ), step t p id = (do
        t.checkpoint
        t.tell (q.jobs.getD place default) .build .skipped
        pure (q.update place fun j => { j with broken := true })) := by
  by_cases hb : (slotOf p.slots id).broken
  · refine ⟨p, rfl, rfl, rfl, rfl, fun i => ?_, fun t => ?_⟩
    · by_cases hi : i = id <;> simp [hi, hb]
    · unfold step
      rw [hplace]
      rw [Graph.propagate, if_pos hb]
      dsimp only
      rw [if_pos hb]
  · cases hdep : p.graph.brokenDep? p.slots id with
    | none =>
      refine absurd ⟨by simpa using hb, fun dep hdep' => ?_⟩ hcan
      simpa using find?_eq_none.1 hdep dep hdep'
    | some dep =>
      have hbreak : ∀ i, (slotOf (p.graph.breakFor p.slots id dep) i).broken =
          ((slotOf p.slots i).broken || i = id) := fun i => by
        rw [Graph.breakFor, slotOf_modify hid]
        by_cases hi : i = id <;> simp [hi]
      refine ⟨{ p with slots := p.graph.breakFor p.slots id dep }.report
        ⟨place, p.graph.dependencyFault p.slots id dep⟩, rfl, rfl, ?_, (alike_report _ _).cores, hbreak, fun t => ?_⟩
      · simp [Plan.report, Plan.update, Graph.breakFor]
      · unfold step
        rw [hplace]
        dsimp only
        rw [Graph.propagate, if_neg hb, hdep]
        dsimp only
        rw [if_pos (by simp [hbreak])]

lemma step_steady {w : World σ} (hs : t.Steady) (hid : id < p.slots.size) (hplace : p.graph.place? id = some place)
    (htree : (slotOf p.slots id).broken = false → (p.jobs.getD place default).tree.isSome) :
    Obeys w (step t p id) (fun _ _ => True) fun _ _ => False := by
  have hcheck : Obeys w t.checkpoint (fun _ _ => True) fun _ _ => False := by
    refine .bind (hs.cancelled w) ?_
    rintro _ w1 rfl
    exact .pure trivial
  by_cases hcan : p.CanBuild id
  · rw [step_of_canBuild _ hplace hcan]
    exact .bind hcheck fun _ _ _ => construct_steady hs (htree hcan.1)
  · obtain ⟨q, -, -, -, -, -, hstep⟩ := step_of_not_canBuild hid hplace hcan
    rw [hstep]
    exact .bind hcheck fun _ _ _ => .bind (hs.notify _ _) fun _ _ _ => .pure trivial

lemma step_recorded (hid : id < p.slots.size) (hplace : p.graph.place? id = some place)
    (hjob : place < p.jobs.length) :
    Obeys w (step t.recorded p id) (fun p' w' => Turned id place p p' w.user.2 w'.user.2) fun _ _ => True := by
  have hcheck : Obeys w t.recorded.checkpoint (fun _ w' => w'.user.2 = w.user.2) fun _ _ => True := by
    refine .bind ((Obeys.beside _).weaken fun _ _ _ => trivial) fun b w1 h1 => ?_
    cases b with
    | true => exact .throw trivial
    | false => exact .pure h1
  by_cases hcan : p.CanBuild id
  · have hj : p.jobs[place]? = some (p.jobs.getD place default) := by
      rw [getD_eq_getElem _ _ hjob, getElem?_eq_getElem hjob]
    rw [step_of_canBuild _ hplace hcan]
    refine .bind hcheck fun _ w1 h1 => construct_recorded.mono fun p' w2 h2 => ?_
    rw [← h1]
    obtain ⟨tree, htree, ⟨m, rfl, hlog⟩ | ⟨f, rfl, hlog⟩⟩ := h2
    · refine ⟨rfl, rfl, rfl, .inr ⟨hcan, _, tree, m, hj, htree, hlog, ?_, fun _ => rfl⟩⟩
      refine ext_getElem? fun i => ?_
      simp only [update, getElem?_map, getElem?_modify]
      by_cases hi : place = i <;> cases p.jobs[i]? <;> simp [hi, Job.core]
    · refine ⟨rfl, rfl, by simp [fail, update], .inl ⟨.inr ⟨hcan, _, tree, hj, htree, hlog⟩, ?_, fun i => ?_⟩⟩
      · exact map_modify_core (by exact fun j => rfl) p.jobs place
      · change (slotOf (p.slots.modify id _) i).broken = _
        rw [slotOf_modify hid]
        by_cases hi : i = id <;> simp [hi]
  · obtain ⟨q, hgraph, hschedule, hsize, hcores, hbroken, hstep⟩ := step_of_not_canBuild hid hplace hcan
    rw [hstep]
    refine .bind hcheck fun _ w1 h1 => ?_
    refine .bind ((tell_recorded ..).weaken fun _ _ _ => trivial) fun _ w2 h2 => .pure ?_
    refine ⟨hgraph, hschedule, hsize, .inl ⟨.inl ⟨hcan, h2.trans h1⟩, ?_, hbroken⟩⟩
    exact (map_modify_core (by exact fun j => rfl) q.jobs place).trans hcores

/-! ### A whole run -/

def IsBuilt (p : Plan) (id : ModuleId) : Prop :=
  ∃ place j, p.graph.place? id = some place ∧ p.jobs[place]? = some j ∧ j.built.isSome

def Succeeded (log : List Attempt) (x : Text) : Prop := ∃ a ∈ log, a.name = x ∧ a.verified

structure Laid (p : Plan) : Prop where
  sound : p.graph.Sound
  schedule : p.schedule = p.graph.schedule
  size : p.slots.size = p.graph.names.length
  job : ∀ id, p.graph.isPresent id → ∃ place j, p.graph.place? id = some place ∧ p.jobs[place]? = some j ∧
    ∀ tree, j.tree = some tree → tree.name = p.graph.nameOf id
  place_inj : ∀ {id id' place}, p.graph.place? id = some place → p.graph.place? id' = some place → id = id'
  name_inj : ∀ {id id'}, p.graph.isPresent id → p.graph.isPresent id' → p.graph.nameOf id = p.graph.nameOf id' → id = id'
  unbuilt : ∀ j ∈ p.jobs, j.built = none
  supplied : ∀ {id place j}, id ∈ p.schedule.order → (slotOf p.slots id).broken = false →
    p.graph.place? id = some place → p.jobs[place]? = some j → j.tree.isSome

def bareOf (j : Job) : Job := { j.core with built := none }

def Placed (p : Plan) : Prop :=
  ∀ place j, p.jobs[place]? = some j → j.built.isSome → ∃ id, p.graph.place? id = some place

/-- Where a run stands when the modules in `done` had their turn. The record holds the modules that were
tried, each after what it imports. A module that had its turn is broken unless it is built, and it is
built if it was whole at the start, what it imports is built and its attempt succeeded. -/
structure Reached (p0 : Plan) (done : List ModuleId) (p : Plan) (log : List Attempt) : Prop where
  graph : p.graph = p0.graph
  schedule : p.schedule = p0.schedule
  size : p.slots.size = p0.slots.size
  bare : p.jobs.map bareOf = p0.jobs.map bareOf
  placed : p.Placed
  waiting : ∀ id ∉ done, (slotOf p.slots id).broken = (slotOf p0.slots id).broken
  broken : ∀ id ∈ done, (slotOf p.slots id).broken = false ↔ p.IsBuilt id
  built_done : ∀ id, p.IsBuilt id → id ∈ done
  built_iff : ∀ id ∈ done, p.IsBuilt id ↔ (slotOf p0.slots id).broken = false ∧
    (∀ dep, p0.graph.Imports id dep → p.IsBuilt dep) ∧ Succeeded log (p0.graph.nameOf id)
  tried : ∀ a ∈ log, ∃ id ∈ done, p0.graph.nameOf id = a.name
  tried_iff : ∀ id ∈ done, (∃ a ∈ log, a.name = p0.graph.nameOf id) ↔
    (slotOf p0.slots id).broken = false ∧ ∀ dep, p0.graph.Imports id dep → p.IsBuilt dep
  once : (log.map Attempt.name).Nodup
  after : ∀ later a earlier, log = later ++ a :: earlier → ∀ id, p0.graph.isPresent id → p0.graph.nameOf id = a.name →
    ∀ dep, p0.graph.Imports id dep → Succeeded earlier (p0.graph.nameOf dep)

lemma Laid.reached (h : p.Laid) : Reached p [] p [] where
  graph := rfl
  schedule := rfl
  size := rfl
  bare := rfl
  placed place j hj hb := by
    rw [h.unbuilt j (mem_of_getElem? hj)] at hb
    cases hb
  waiting _ _ := rfl
  broken _ h := by cases h
  built_done id hid := by
    obtain ⟨place, j, -, hj, hb⟩ := hid
    rw [h.unbuilt j (mem_of_getElem? hj)] at hb
    cases hb
  built_iff _ h := by cases h
  tried _ h := by cases h
  tried_iff _ h := by cases h
  once := .nil
  after later a earlier h := by simp at h

section Turn

variable {p0 p' : Plan} {done : List ModuleId} {log : List Attempt}

lemma isBuilt_iff_core : p.IsBuilt id ↔ ∃ place c, p.graph.place? id = some place ∧
    (p.jobs.map Job.core)[place]? = some c ∧ c.built.isSome := by
  constructor
  · rintro ⟨place, j, hplace, hj, hb⟩
    exact ⟨place, j.core, hplace, by simp [hj], hb⟩
  · rintro ⟨place, c, hplace, hc, hb⟩
    rw [getElem?_map] at hc
    obtain ⟨j, hj, rfl⟩ := map_eq_some_iff.1 hc
    exact ⟨place, j, hplace, hj, hb⟩

lemma placed_of_cores (hgraph : p'.graph = p.graph) (hcores : p'.jobs.map Job.core = p.jobs.map Job.core)
    (h : p.Placed) : p'.Placed := by
  intro place j hj hb
  have hcore := congrArg (·[place]?) hcores
  simp only [getElem?_map, hj] at hcore
  obtain ⟨j', hj', heq⟩ := map_eq_some_iff.1 hcore.symm
  obtain ⟨id, hid⟩ := h place j' hj' ((congrArg (·.built.isSome) heq :).trans hb)
  exact ⟨id, hgraph ▸ hid⟩

structure Before (p0 : Plan) (done : List ModuleId) (id : ModuleId) : Prop where
  present : ∀ i ∈ done, p0.graph.isPresent i
  closed : ∀ i ∈ done, ∀ dep, p0.graph.Imports i dep → dep ∈ done
  here : p0.graph.isPresent id
  new : id ∉ done
  deps : ∀ dep, p0.graph.Imports id dep → dep ∈ done

lemma Reached.not_succeeded (hl : p0.Laid) (h : Reached p0 done p log) (hb : Before p0 done id) :
    ∀ a ∈ log, a.name ≠ p0.graph.nameOf id := by
  intro a ha heq
  obtain ⟨i, hi, hname⟩ := h.tried a ha
  exact hb.new (hl.name_inj (hb.present i hi) hb.here (hname.trans heq) ▸ hi)

structure Settles (p0 p : Plan) (id : ModuleId) (new : List Attempt) (p' : Plan) : Prop where
  graph : p'.graph = p.graph
  schedule : p'.schedule = p.schedule
  size : p'.slots.size = p.slots.size
  bare : p'.jobs.map bareOf = p.jobs.map bareOf
  placed : p'.Placed
  made : new = [] ∧ ¬p.CanBuild id ∨ ∃ a, new = [a] ∧ a.name = p0.graph.nameOf id ∧ p.CanBuild id
  built : ∀ i, p'.IsBuilt i ↔ p.IsBuilt i ∨ i = id ∧ ∃ a ∈ new, a.verified
  broken : ∀ i, (slotOf p'.slots i).broken = false ↔
    (slotOf p.slots i).broken = false ∧ (i = id → ∃ a ∈ new, a.verified)

namespace Settles

variable (hl : p0.Laid) (h : Reached p0 done p log) (hb : Before p0 done id) (ht : Settles p0 p id new p')

include ht

lemma name : ∀ a ∈ new, a.name = p0.graph.nameOf id := by
  obtain ⟨rfl, -⟩ | ⟨a, rfl, ha, -⟩ := ht.made
  · simp
  · simpa using ha

lemma canBuild : ∀ a ∈ new, p.CanBuild id := by
  obtain ⟨rfl, -⟩ | ⟨a, rfl, -, hcan⟩ := ht.made
  · simp
  · exact fun _ _ => hcan

include hb

lemma built_old (hi : i ∈ done) : p'.IsBuilt i ↔ p.IsBuilt i := by
  have hne : i ≠ id := fun heq => hb.new (heq ▸ hi)
  simp [ht.built, hne]

lemma deps_old (hi : i ∈ done) :
    (∀ dep, p0.graph.Imports i dep → p'.IsBuilt dep) ↔ ∀ dep, p0.graph.Imports i dep → p.IsBuilt dep :=
  forall₂_congr fun dep hdep => ht.built_old hb (hb.closed i hi dep hdep)

include hl in
lemma logged (hi : i ∈ done) (P : Attempt → Prop) : (∃ a ∈ new ++ log, a.name = p0.graph.nameOf i ∧ P a) ↔
      ∃ a ∈ log, a.name = p0.graph.nameOf i ∧ P a := by
  constructor
  · rintro ⟨a, ha, heq, hP⟩
    refine ⟨a, (mem_append.1 ha).resolve_left fun hmem => ?_, heq, hP⟩
    exact hb.new (hl.name_inj (hb.present i hi) hb.here (heq.symm.trans (ht.name a hmem)) ▸ hi)
  · rintro ⟨a, ha, hP⟩
    exact ⟨a, mem_append_right _ ha, hP⟩

include h

lemma canBuild_iff : p.CanBuild id ↔ (slotOf p0.slots id).broken = false ∧ ∀ dep, p0.graph.Imports id dep → p'.IsBuilt dep := by
  rw [CanBuild, h.waiting id hb.new, h.graph]
  refine and_congr_right fun _ => forall₂_congr fun dep hdep => ?_
  rw [h.broken dep (hb.deps dep hdep), ht.built_old hb (hb.deps dep hdep)]

lemma broken_iff (hi : i ∈ done ++ [id]) : (slotOf p'.slots i).broken = false ↔ p'.IsBuilt i := by
  rw [ht.built, ht.broken]
  rcases mem_append.1 hi with hi | hi
  · have hne : i ≠ id := fun heq => hb.new (heq ▸ hi)
    simp [hne, h.broken i hi]
  · cases mem_singleton.1 hi
    refine ⟨fun hx => .inr ⟨rfl, hx.2 rfl⟩, fun hx => ?_⟩
    obtain ⟨-, a, ha, hverified⟩ := hx.resolve_left fun hbuilt => hb.new (h.built_done _ hbuilt)
    exact ⟨(ht.canBuild a ha).1, fun _ => ⟨a, ha, hverified⟩⟩

include hl

lemma logged_self (P : Attempt → Prop) : (∃ a ∈ new ++ log, a.name = p0.graph.nameOf id ∧ P a) ↔ ∃ a ∈ new, P a := by
  constructor
  · rintro ⟨a, ha, heq, hP⟩
    exact ⟨a, (mem_append.1 ha).resolve_right fun hlog => h.not_succeeded hl hb a hlog heq, hP⟩
  · rintro ⟨a, ha, hP⟩
    exact ⟨a, mem_append_left _ ha, ht.name a ha, hP⟩

lemma built_iff (hi : i ∈ done ++ [id]) : p'.IsBuilt i ↔ (slotOf p0.slots i).broken = false ∧
      (∀ dep, p0.graph.Imports i dep → p'.IsBuilt dep) ∧ Succeeded (new ++ log) (p0.graph.nameOf i) := by
  rcases mem_append.1 hi with hi | hi
  · rw [ht.built_old hb hi, h.built_iff i hi, ht.deps_old hb hi, Succeeded, Succeeded, ht.logged hl hb hi]
  · cases mem_singleton.1 hi
    have hnot : ¬p.IsBuilt id := fun hbuilt => hb.new (h.built_done id hbuilt)
    rw [ht.built, or_iff_right hnot, and_iff_right rfl, ← and_assoc, ← ht.canBuild_iff h hb, Succeeded,
      ht.logged_self hl h hb]
    exact ⟨fun ⟨a, ha, hok⟩ => ⟨ht.canBuild a ha, a, ha, hok⟩, fun hx => hx.2⟩

lemma tried_iff (hi : i ∈ done ++ [id]) : (∃ a ∈ new ++ log, a.name = p0.graph.nameOf i) ↔
      (slotOf p0.slots i).broken = false ∧ ∀ dep, p0.graph.Imports i dep → p'.IsBuilt dep := by
  rcases mem_append.1 hi with hi | hi
  · rw [ht.deps_old hb hi, ← h.tried_iff i hi]
    simpa using ht.logged hl hb hi fun _ => True
  · cases mem_singleton.1 hi
    have hself := ht.logged_self hl h hb fun _ => True
    simp only [and_true] at hself
    rw [← ht.canBuild_iff h hb, hself]
    obtain ⟨rfl, hno⟩ | ⟨a, rfl, -, hcan⟩ := ht.made
    · simp [hno]
    · simp [hcan]

lemma once : ((new ++ log).map Attempt.name).Nodup := by
  rw [map_append, nodup_append']
  refine ⟨?_, h.once, fun x hx hx' => ?_⟩
  · obtain ⟨rfl, -⟩ | ⟨a, rfl, -⟩ := ht.made <;> simp
  · obtain ⟨a, ha, rfl⟩ := mem_map.1 hx
    obtain ⟨b, hb', heq⟩ := mem_map.1 hx'
    exact h.not_succeeded hl hb b hb' (heq.trans (ht.name a ha))

lemma after : ∀ later a earlier, new ++ log = later ++ a :: earlier → ∀ i, p0.graph.isPresent i → p0.graph.nameOf i = a.name →
      ∀ dep, p0.graph.Imports i dep → Succeeded earlier (p0.graph.nameOf dep) := by
  obtain ⟨rfl, -⟩ | ⟨b, rfl, hname, hcan⟩ := ht.made
  · exact h.after
  · intro later a earlier heq i hi hia dep hdep
    cases later with
    | nil =>
      obtain ⟨rfl, rfl⟩ := cons.inj heq
      cases hl.name_inj hi hb.here (hia.trans hname)
      have hmem := hb.deps dep hdep
      have hbuilt := (ht.built_old hb hmem).1 (((ht.canBuild_iff h hb).1 hcan).2 dep hdep)
      exact ((h.built_iff dep hmem).1 hbuilt).2.2
    | cons c later => exact h.after later a earlier (cons.inj heq).2 i hi hia dep hdep

end Settles

lemma Reached.turn (hl : p0.Laid) (h : Reached p0 done p log) (hb : Before p0 done id)
    (t : Settles p0 p id new p') : Reached p0 (done ++ [id]) p' (new ++ log) where
  graph := t.graph.trans h.graph
  schedule := t.schedule.trans h.schedule
  size := t.size.trans h.size
  bare := t.bare.trans h.bare
  placed := t.placed
  waiting i hi := by
    rw [mem_append, mem_singleton, not_or] at hi
    rw [← h.waiting i hi.1, Bool.eq_iff_iff, ← not_iff_not, Bool.not_eq_true, t.broken]
    simp [hi.2]
  broken _ hi := t.broken_iff h hb hi
  built_done i hi := by
    rcases (t.built i).1 hi with hi | ⟨rfl, -⟩
    · exact mem_append_left _ (h.built_done i hi)
    · simp
  built_iff _ hi := t.built_iff hl h hb hi
  tried a ha := by
    rcases mem_append.1 ha with ha | ha
    · exact ⟨id, by simp, (t.name a ha).symm⟩
    · obtain ⟨i, hi, heq⟩ := h.tried a ha
      exact ⟨i, mem_append_left _ hi, heq⟩
  tried_iff _ hi := t.tried_iff hl h hb hi
  once := t.once hl h hb
  after := t.after hl h hb

lemma bare_of_cores (h : (p'.jobs.map Job.core).map bareOf = (p.jobs.map Job.core).map bareOf) :
    p'.jobs.map bareOf = p.jobs.map bareOf := by
  have hmap : ∀ jobs : List Job, (jobs.map Job.core).map bareOf = jobs.map bareOf := fun jobs => by
    rw [List.map_map]
    rfl
  rwa [hmap, hmap] at h

lemma Reached.tree_name (hl : p0.Laid) (h : Reached p0 done p log) (hid : p0.graph.isPresent id)
    (hplace : p0.graph.place? id = some place) (hj : p.jobs[place]? = some j)
    (htree : j.tree = some tree) : tree.name = p0.graph.nameOf id := by
  obtain ⟨place', j0, hplace', hj0, hname⟩ := hl.job id hid
  cases hplace.symm.trans hplace'
  have hbare := congrArg (·[place]?) h.bare
  simp only [getElem?_map, hj, hj0, map_some, Option.some.injEq] at hbare
  exact hname tree ((congrArg Job.tree hbare).symm.trans htree)

lemma Turned.reached (hl : p0.Laid) (h : Reached p0 done p log) (hb : Before p0 done id)
    (hplace : p0.graph.place? id = some place) (ht : Turned id place p p' log log') :
    Reached p0 (done ++ [id]) p' log' := by
  rcases ht.change with ⟨hlog, hcores, hbroken⟩ | ⟨hcan, j, tree, m, hj, htree, rfl, hcores, hbroken⟩
  · have hbuilt : ∀ i, p'.IsBuilt i ↔ p.IsBuilt i := fun i => by
      rw [isBuilt_iff_core, isBuilt_iff_core, ht.graph, hcores]
    have hbare := bare_of_cores (congrArg (map bareOf) hcores)
    have hplaced := placed_of_cores ht.graph hcores h.placed
    rcases hlog with ⟨hcan, rfl⟩ | ⟨hcan, j, tree, hj, htree, a, ha, hfailed, rfl⟩
    · exact h.turn hl hb ⟨ht.graph, ht.schedule, ht.size, hbare, hplaced, .inl ⟨rfl, hcan⟩,
        fun i => by simp [hbuilt], fun i => by simp [hbroken]⟩
    · have hname := ha.trans (h.tree_name hl hb.here hplace hj htree)
      exact h.turn hl hb ⟨ht.graph, ht.schedule, ht.size, hbare, hplaced, .inr ⟨a, rfl, hname, hcan⟩,
        fun i => by simp [hbuilt, hfailed], fun i => by simp [hbroken, hfailed]⟩
  · have hname := h.tree_name hl hb.here hplace hj htree
    have hbare : p'.jobs.map bareOf = p.jobs.map bareOf := by
      refine bare_of_cores ?_
      rw [hcores]
      refine ext_getElem? fun i => ?_
      simp only [getElem?_map, getElem?_modify]
      by_cases hi : place = i <;> cases p.jobs[i]? <;> simp [hi, bareOf, Job.core]
    have hbuilt : ∀ i, p'.IsBuilt i ↔ p.IsBuilt i ∨ i = id := by
      intro i
      rw [isBuilt_iff_core, isBuilt_iff_core, ht.graph, h.graph, hcores]
      constructor
      · rintro ⟨there, c, hat, hc, hb⟩
        by_cases heq : place = there
        · exact .inr (hl.place_inj hat (heq ▸ hplace))
        · exact .inl ⟨there, c, hat, by simpa [heq] using hc, hb⟩
      · rintro (⟨there, c, hat, hc, hb⟩ | rfl)
        · by_cases heq : place = there
          · exact ⟨there, { c with built := some m }, hat, by simp [heq, hc], rfl⟩
          · exact ⟨there, c, hat, by simp [heq, hc], hb⟩
        · exact ⟨place, { j.core with built := some m }, hplace, by simp [hj], rfl⟩
    have hplaced : p'.Placed := by
      intro there j' hj' hb
      by_cases heq : place = there
      · exact ⟨id, by rw [ht.graph, h.graph, ← heq, hplace]⟩
      · have hcore := congrArg (·[there]?) hcores
        simp only [getElem?_map, getElem?_modify, heq, hj', if_false] at hcore
        obtain ⟨i, hi, hsame⟩ := map_eq_some_iff.1 (map_id_apply.symm.trans hcore.symm)
        obtain ⟨at', hat⟩ := h.placed there i hi ((congrArg (·.built.isSome) hsame :).trans hb)
        exact ⟨at', ht.graph ▸ hat⟩
    exact h.turn hl hb ⟨ht.graph, ht.schedule, ht.size, hbare, hplaced,
      .inr ⟨_, rfl, hname, hcan⟩, fun i => by simp [hbuilt], fun i => by simp [hbroken]⟩

lemma run_recorded (hl : p0.Laid) (hw : w.user.2 = []) : Obeys w (p0.run t.recorded)
    (fun p' w' => Reached p0 p0.schedule.order p' w'.user.2) fun _ _ => ¬t.Steady := by
  have hturns : ∀ (rest done : List ModuleId) p (w : World (σ × List Attempt)),
      p0.schedule.order = done ++ rest → Reached p0 done p w.user.2 →
      Obeys w (rest.foldlM (step t.recorded) p) (fun p' w' => Reached p0 p0.schedule.order p' w'.user.2)
        fun _ _ => ¬t.Steady := by
    intro rest
    induction rest with
    | nil =>
      intro done p w horder h
      rw [append_nil] at horder
      exact .pure (horder ▸ h)
    | cons id rest ih =>
      intro done p w horder h
      have hg := hl.sound
      rw [hl.schedule] at horder
      have hpresent : ∀ i ∈ done ++ id :: rest, p0.graph.isPresent i := fun i hi =>
        ((Graph.mem_order hg).1 (horder ▸ hi)).1
      have hid := hpresent id (by simp)
      obtain ⟨place, j, hplace, hj, -⟩ := hl.job id hid
      have hlen : place < p.jobs.length := by
        have hsame := congrArg List.length h.bare
        simp only [length_map] at hsame
        rw [hsame]
        exact (List.getElem?_eq_some_iff.1 hj).1
      have hslot : id < p.slots.size := by
        rw [h.size, hl.size]
        exact hg.lt id hid
      have hnodup := (nodup_append'.1 (Graph.order_append_stuck_nodup hg)).1
      rw [horder] at hnodup
      have hnew : id ∉ done := fun hmem => (nodup_append'.1 hnodup).2.2 hmem (by simp)
      have htree : (slotOf p.slots id).broken = false → (p.jobs.getD place default).tree.isSome := by
        intro hwhole
        rw [h.waiting id hnew] at hwhole
        have hbare := congrArg (·[place]?) h.bare
        simp only [List.getElem?_map, List.getElem?_eq_getElem hlen, hj, map_some, Option.some.injEq] at hbare
        have htree : p.jobs[place].tree = j.tree := (congrArg Job.tree hbare :)
        rw [getD_eq_getElem _ _ hlen, htree]
        exact hl.supplied (by rw [hl.schedule, horder]; simp) hwhole hplace hj
      have hstep := step_recorded (t := t) (w := w) hslot (h.graph ▸ hplace) hlen
      have hsteady : Obeys w (step t.recorded p id)
          (fun p' w' => Turned id place p p' w.user.2 w'.user.2) fun _ _ => ¬t.Steady := by
        by_cases hs : t.Steady
        · have hgo := step_steady (w := w) hs.recorded hslot (h.graph ▸ hplace) htree
          exact ((hstep.and hgo).mono fun _ _ h => h.1).weaken fun _ _ h => h.2.elim
        · exact hstep.weaken fun _ _ _ => hs
      refine .bind hsteady fun p1 w1 ht => ?_
      refine ih (done ++ [id]) p1 w1 (by rw [hl.schedule, horder]; simp) ?_
      refine ht.reached hl h ⟨fun i hi => hpresent i (by simp [hi]), fun i hi dep hdep => ?_, hid, hnew,
        fun dep hdep => Graph.order_before hg horder hdep⟩ hplace
      obtain ⟨before, after, rfl⟩ := append_of_mem hi
      rw [append_assoc] at horder
      exact mem_append_left _ (Graph.order_before hg horder hdep)
  exact hturns p0.schedule.order [] p0 w rfl (hw ▸ hl.reached)

end Turn

end Plan

lemma Graph.nameOf_inj {nodes : List Node} (hid : id < (Graph.namesOf nodes).length) (hid' : id' < (Graph.namesOf nodes).length)
    (h : (Graph.ofNodes nodes).nameOf id = (Graph.ofNodes nodes).nameOf id') : id = id' := by
  rw [← Graph.idxOf_nameOf hid, h, Graph.idxOf_nameOf hid']

namespace Sources

variable {s : Sources}

lemma findIdx?_nodes (x) : s.nodes.findIdx? (fun n => n.name = x) = s.decoded.findIdx? fun d => d.name = x := by
  rw [nodes, findIdx?_map]
  congr 1
  funext d
  simp

lemma core (s : Sources) (place : Nat) :
    (s.plan.jobs[place]?).map Job.core = (s.decoded[place]?).map fun d => (d.job s.known).1.core := by
  have hcores := congrArg (·[place]?) s.alike.cores
  simpa only [getElem?_map, Option.map_map, Function.comp_def] using hcores

lemma laid (s : Sources) : s.plan.Laid := by
  have h := s.alike
  have hgraph : s.plan.graph = Graph.ofNodes s.nodes := h.graph
  have hsound := Graph.sound_ofNodes s.nodes
  refine ⟨?_, ?_, ?_, ?_, ?_, ?_, ?_, ?_⟩
  · exact hgraph ▸ hsound
  · rw [h.schedule, hgraph]
  · rw [h.slots, hgraph, Graph.reportCycles_size]
    simp [Graph.slots, Graph.ids]
  · rw [hgraph]
    intro id hid
    obtain ⟨place, hplace⟩ := isSome_iff_exists.1 hid
    obtain ⟨-, hfirst⟩ := Graph.place?_spec hplace
    rw [findIdx?_nodes, findIdx?_eq_some_iff_getElem] at hfirst
    obtain ⟨hlt, hname, -⟩ := hfirst
    have hcore := s.core place
    rw [getElem?_eq_getElem hlt] at hcore
    obtain ⟨j, hj, hjob⟩ := map_eq_some_iff.1 hcore
    refine ⟨place, j, hplace, hj, fun tree htree => ?_⟩
    have htree' := (congrArg Job.tree hjob).symm.trans htree
    exact (job_tree_name htree').trans (by simpa using hname)
  · rw [hgraph]
    intro id id' place hplace hplace'
    obtain ⟨hid, hfirst⟩ := Graph.place?_spec hplace
    obtain ⟨hid', hfirst'⟩ := Graph.place?_spec hplace'
    rw [findIdx?_eq_some_iff_getElem] at hfirst hfirst'
    obtain ⟨_, hname, -⟩ := hfirst
    obtain ⟨_, hname', -⟩ := hfirst'
    exact Graph.nameOf_inj hid hid' ((by simpa using hname : _ = _).symm.trans (by simpa using hname'))
  · rw [hgraph]
    exact fun hid hid' => Graph.nameOf_inj (hsound.lt _ hid) (hsound.lt _ hid')
  · intro j hj
    obtain ⟨place, hplace⟩ := mem_iff_getElem?.1 hj
    have hcore := s.core place
    rw [hplace] at hcore
    obtain ⟨d, -, hd⟩ := map_eq_some_iff.1 hcore.symm
    exact (congrArg Job.built hd).symm.trans job_built
  · intro id place j horder hwhole hplace hj
    rw [h.slots] at hwhole
    rw [h.schedule] at horder
    rw [hgraph] at hplace
    obtain ⟨-, hfirst⟩ := Graph.place?_spec hplace
    rw [findIdx?_nodes, findIdx?_eq_some_iff_getElem] at hfirst
    obtain ⟨hlt, hname, -⟩ := hfirst
    have hcore := s.core place
    rw [getElem?_eq_getElem hlt, hj, map_some, map_some, Option.some.injEq] at hcore
    have hnode : (Graph.ofNodes (s.nodes)).node? id =
        some (s.decoded[place].job s.known).2 := by
      rw [Graph.node?, hplace]
      simp [Graph.ofNodes, nodes, hlt]
    obtain ⟨m, hm, -⟩ := node_broken.1 ((Graph.slot_of_order horder hnode).1 hwhole).1
    have htree : j.tree = (s.decoded[place].job s.known).1.tree := (congrArg Job.tree hcore :)
    rw [htree]
    simp [Decoded.job, hm]

end Sources

end Arbor.Project
