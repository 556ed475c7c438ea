import Arbor.Proofs.Building

/-! What comes out of a run, said in the names of modules and in terms of the files read. Watching a
run does not change it, so what holds of a watched run holds of the run itself. -/

namespace Arbor.Build

variable {σ ρ α β : Type}

def World.alone (w : World (σ × ρ)) : World σ := w.handTo w.user.1

def Act.Shadows (b : Act (σ × ρ) α) (a : Act σ α) : Prop := ∀ w : World (σ × ρ),
  a w.alone = match b w with
    | .ok x w' => .ok x w'.alone
    | .error e w' => .error e w'.alone

lemma Act.exists_of_bind {a : Act σ α} {f : α → Act σ β} {w w' : World σ} {y : β}
    (h : (a >>= f) w = .ok y w') : ∃ x w1, a w = .ok x w1 ∧ f x w1 = .ok y w' := by
  simp only [Bind.bind, EStateM.bind] at h
  cases hx : a w with
  | ok x w1 =>
    rw [hx] at h
    exact ⟨x, w1, rfl, h⟩
  | error e w1 =>
    rw [hx] at h
    cases h

namespace Act.Shadows

lemma pure (x : α) : Shadows (pure x : Act (σ × ρ) α) (pure x) := fun _ => rfl

lemma throw (e) : Shadows (throw e : Act (σ × ρ) α) (throw e) := fun _ => rfl

lemma note (h) : Shadows (Act.note h : Act (σ × ρ) Unit) (Pure.pure ()) := fun _ => rfl

lemma beside (a) : Shadows (a.beside : Act (σ × ρ) α) a := by
  intro w
  unfold Act.beside World.alone
  cases a (w.handTo w.user.1) <;> rfl

lemma bind (h : Shadows b a) (hf : ∀ x, Shadows (g x) (f x)) : Shadows (b >>= g) (a >>= f) := by
  intro w
  simp only [Bind.bind, EStateM.bind, h w]
  cases b w with
  | ok x w' => exact hf x w'
  | error e w' => rfl

lemma attempt (h : Shadows b a) : Shadows (Act.attempt b) (Act.attempt a) := by
  intro w
  simp only [Act.attempt, Proofs.tryCatch_apply, Bind.bind, EStateM.bind, h w]
  cases b w with
  | ok x w' => rfl
  | error e w' => cases e <;> rfl

lemma foldlM {f : α → ι → Act σ α} {g : α → ι → Act (σ × ρ) α} (h : ∀ x i, Shadows (g x i) (f x i)) (l : List ι)
    (x) : Shadows (l.foldlM g x) (l.foldlM f x) := by
  induction l generalizing x with
  | nil => exact .pure x
  | cons i l ih => exact .bind (h x i) ih

end Act.Shadows

end Arbor.Build

namespace Arbor.Project

open Build Diag IR Proofs Relation List Plan

variable {σ : Type}

section Watching

variable {ρ : Type} {t : Tools σ} {t' : Tools (σ × ρ)} {p : Plan} {id : ModuleId} {place : Nat} {j : Job}

structure Tools.Shadows (t' : Tools (σ × ρ)) (t : Tools σ) : Prop where
  notify : ∀ e, Act.Shadows (t'.notify e) (t.notify e)
  cancelled : Act.Shadows t'.cancelled t.cancelled
  load : ∀ m, Act.Shadows (t'.load m) (t.load m)
  verify : ∀ h, Act.Shadows (t'.verify h) (t.verify h)

lemma recorded_shadows (t : Tools σ) : t.recorded.Shadows t where
  notify _ := .beside _
  cancelled := .beside _
  load m := by
    have h : Act.Shadows (t.recorded.load m) (pure () >>= fun _ => t.load m >>= fun h => pure () >>= fun _ => pure h) :=
      .bind (.note _) fun _ => .bind (.beside _) fun h => .bind (.note _) fun _ => .pure h
    simpa using h
  verify h := by
    have h : Act.Shadows (t.recorded.verify h) (t.verify h >>= fun _ => pure ()) := .bind (.beside _) fun _ => .note _
    simpa using h

lemma checkpoint_shadows (h : t'.Shadows t) : Act.Shadows t'.checkpoint t.checkpoint := by
  refine .bind h.cancelled fun b => ?_
  cases b with
  | true => exact .throw _
  | false => exact .pure ()

lemma make_shadows (h : t'.Shadows t) : Act.Shadows (t'.make j) (t.make j) := by
  have hneed : Act.Shadows (Act.need j.tree : Act (σ × ρ) _) (Act.need j.tree) := by
    cases j.tree with
    | none => exact .throw _
    | some tree => exact .pure tree
  refine .bind hneed fun tree => .bind (h.load tree) fun m => .bind (h.notify _) fun _ => ?_
  refine .bind (.attempt (h.verify m)) fun r => ?_
  cases r with
  | ok u => exact .pure m
  | error f => exact .bind (h.notify _) fun _ => .throw _

lemma construct_shadows (h : t'.Shadows t) : Act.Shadows (construct t' p id place j) (construct t p id place j) := by
  refine .bind (h.notify _) fun _ => .bind (.attempt (make_shadows h)) fun r => ?_
  cases r with
  | ok m => exact .bind (h.notify _) fun _ => .pure _
  | error f =>
    by_cases hc : f.isCancelled
    · simp only [hc]
      exact .throw _
    · simp only [hc]
      exact .bind (h.notify _) fun _ => .pure _

lemma step_shadows (h : t'.Shadows t) (p : Plan) (id) : Act.Shadows (p.step t' id) (p.step t id) := by
  refine .bind (checkpoint_shadows h) fun _ => ?_
  cases p.graph.place? id with
  | none => exact .pure p
  | some place =>
    dsimp only
    split
    · exact .bind (h.notify _) fun _ => .pure _
    · exact construct_shadows h

lemma run_shadows (h : t'.Shadows t) (p : Plan) : Act.Shadows (p.run t') (p.run t) := .foldlM (step_shadows h) _ p

end Watching

/-! ### Modules by name -/

def Decoded.imports (d : Decoded) : List Tree.Import := (d.module.map fun m => m.imports.items.filterMap id).getD []

/-- Nothing that was read stands against the module of the file at a place: the file is the first to
declare its module, it was decoded, every relative import leads to a path, every import that has a name
and is not loaded already names another file's module, and no chain of needs runs into a cycle. -/
structure Fit (s : Sources) (place : Nat) (d : Decoded) : Prop where
  first : s.decoded.findIdx? (fun e => e.name = d.name) = some place
  named : d.name ≠ []
  read : d.module.isSome
  resolved : ∀ i ∈ d.imports, (s.known.asks d.path i).isSome
  known : ∀ y ∈ s.known.needs d.path d.imports, y ≠ [] → y ≠ d.name ∧ ∃ e ∈ s.decoded, e.name = y
  acyclic : ¬∃ on, ReflTransGen (Needs s.nodes) d.name on ∧ TransGen (Needs s.nodes) on on

section Names

variable {s : Sources} {d : Decoded} {id : ModuleId} {place : Nat}

lemma declared_nodes : Declared s.nodes x ↔ x ≠ [] ∧ ∃ d ∈ s.decoded, d.name = x := by
  simp [Declared, Sources.nodes]

lemma Sources.graph_eq (s : Sources) : s.plan.graph = Graph.ofNodes s.nodes := s.alike.graph

lemma Graph.mem_order_iff {nodes : List Node} : id ∈ (ofNodes nodes).schedule.order ↔ (ofNodes nodes).isPresent id ∧
    ¬∃ on, ReflTransGen (Needs nodes) ((ofNodes nodes).nameOf id) on ∧ TransGen (Needs nodes) on on := by
  have hg := sound_ofNodes nodes
  have hdisjoint := (nodup_append'.1 (order_append_stuck_nodup hg)).2.2
  constructor
  · intro h
    have hid := ((mem_order hg).1 h).1
    refine ⟨hid, fun hcycle => hdisjoint h ((mem_stuck_iff_cycle hg).2 ⟨hid, ?_⟩)⟩
    exact (cycle_nameOf (hg.lt id hid)).1 hcycle
  · rintro ⟨hid, hcycle⟩
    refine (mem_append.1 ((mem_order_append_stuck hg).2 hid)).resolve_right fun h => hcycle ?_
    exact (cycle_nameOf (hg.lt id hid)).2 ((mem_stuck_iff_cycle hg).1 h).2

lemma place?_nodes (h : (Graph.ofNodes s.nodes).place? id = some place) :
    s.decoded.findIdx? (fun d => d.name = (Graph.ofNodes s.nodes).nameOf id) = some place := by
  rw [← Sources.findIdx?_nodes]
  exact (Graph.place?_spec h).2

lemma name_of_place? (h : (Graph.ofNodes s.nodes).place? id = some place)
    (hd : s.decoded[place]? = some d) : (Graph.ofNodes s.nodes).nameOf id = d.name := by
  have hfirst := place?_nodes h
  rw [List.findIdx?_eq_some_iff_getElem] at hfirst
  obtain ⟨hlt, hname, -⟩ := hfirst
  obtain ⟨-, rfl⟩ := List.getElem?_eq_some_iff.1 hd
  exact (of_decide_eq_true hname).symm

lemma ordered_iff (hd : s.decoded[place]? = some d) :
    (s.decoded.findIdx? (fun e => e.name = d.name) = some place ∧ d.name ≠ [] ∧
      ¬∃ on, ReflTransGen (Needs s.nodes) d.name on ∧ TransGen (Needs s.nodes) on on) ↔
    ∃ id ∈ (Graph.ofNodes s.nodes).schedule.order, (Graph.ofNodes s.nodes).place? id = some place := by
  constructor
  · rintro ⟨hfirst, hnamed, hacyclic⟩
    have hthere : Declared s.nodes d.name :=
      declared_nodes.2 ⟨hnamed, d, mem_of_getElem? hd, rfl⟩
    have hmem := Graph.Declared.mem_namesOf hthere
    have hname := Graph.nameOf_idxOf hmem
    refine ⟨_, Graph.mem_order_iff.2 ⟨Graph.isPresent_idxOf hthere, hname.symm ▸ hacyclic⟩, ?_⟩
    rw [Graph.place?_ofNodes (idxOf_lt_length_iff.2 hmem), hname, Sources.findIdx?_nodes]
    exact hfirst
  · rintro ⟨id, horder, hplace⟩
    have hname := name_of_place? hplace hd
    obtain ⟨hpresent, hacyclic⟩ := Graph.mem_order_iff.1 horder
    have hfirst := place?_nodes hplace
    have hdeclared := (Graph.isPresent_iff.1 hpresent).2
    rw [hname] at hacyclic hfirst hdeclared
    exact ⟨hfirst, hdeclared.1, hacyclic⟩

lemma fit_iff (hd : s.decoded[place]? = some d) : Fit s place d ↔ ∃ id ∈ s.plan.schedule.order,
      s.plan.graph.place? id = some place ∧ (slotOf s.plan.slots id).broken = false := by
  have halike := s.alike
  rw [s.graph_eq, halike.schedule, halike.slots]
  have hnode : ∀ {id}, (Graph.ofNodes s.nodes).place? id = some place →
      (Graph.ofNodes s.nodes).node? id = some (d.job s.known).2 := by
    intro id hplace
    rw [Graph.node?, hplace]
    simp [Graph.ofNodes, Sources.nodes, hd]
  have hwhole : ((d.job s.known).2.broken = false ∧
      ∀ y ∈ (d.job s.known).2.imports, y ≠ [] →
        y ≠ (d.job s.known).2.name ∧ Declared s.nodes y) ↔
      d.module.isSome ∧ (∀ i ∈ d.imports, (s.known.asks d.path i).isSome) ∧
        ∀ y ∈ s.known.needs d.path d.imports, y ≠ [] → y ≠ d.name ∧ ∃ e ∈ s.decoded, e.name = y := by
    rw [node_broken, node_imports]
    simp only [declared_nodes, Decoded.imports]
    cases d.module with
    | none => simp
    | some m => simp +contextual
  constructor
  · intro h
    obtain ⟨id, horder, hplace⟩ := (ordered_iff hd).1 ⟨h.first, h.named, h.acyclic⟩
    refine ⟨id, horder, hplace, (Graph.slot_of_order horder (hnode hplace)).2 (hwhole.2 ?_)⟩
    exact ⟨h.read, h.resolved, h.known⟩
  · rintro ⟨id, horder, hplace, hslot⟩
    obtain ⟨hread, hresolved, hknown⟩ := hwhole.1 ((Graph.slot_of_order horder (hnode hplace)).1 hslot)
    obtain ⟨hfirst, hnamed, hacyclic⟩ := (ordered_iff hd).2 ⟨id, horder, hplace⟩
    exact ⟨hfirst, hnamed, hread, hresolved, hknown, hacyclic⟩

end Names

/-! ### What a run yields -/

def Plan.HasBuilt (p : Plan) (x : Text) : Prop := ∃ j ∈ p.jobs, j.name = x ∧ j.built.isSome

section Yield

variable {s : Sources} {p : Plan} {log : List Attempt} {id : ModuleId}
  {place : Nat} {j : Job} {d : Decoded}

lemma exists_imports (hid : s.plan.graph.isPresent id) (hx : Needs s.nodes (s.plan.graph.nameOf id) x) :
    ∃ dep, s.plan.graph.Imports id dep ∧ s.plan.graph.nameOf dep = x := by
  have hlt := s.laid.sound.lt id hid
  rw [s.graph_eq] at *
  have himports := Graph.imports_of_needs hx
  rw [Graph.idxOf_nameOf hlt] at himports
  exact ⟨_, himports, Graph.nameOf_idxOf (Graph.Declared.mem_namesOf hx.2.1)⟩

lemma isFirst_iff : p.isFirst place ↔
    ∃ j, p.jobs[place]? = some j ∧ p.jobs.findIdx? (fun i => i.name = j.name) = some place := by
  unfold isFirst
  cases p.jobs[place]? <;> simp

def Plan.builtName? (p : Plan) (id : ModuleId) : Option Text :=
  ((p.graph.place? id).bind (p.jobs[·]?)).bind fun j => if j.built.isSome then some j.name else none

namespace Plan.Reached

section

variable (h : Reached s.plan done p log)

include h

lemma names : p.jobs.map Job.name = s.decoded.map Decoded.name := by
  have hbare := congrArg (List.map Job.name) h.bare
  have hcores := congrArg (List.map Job.name) s.alike.cores
  simp only [List.map_map] at hbare hcores
  exact hbare.trans (hcores.trans (List.map_congr_left fun d _ => job_name))

lemma name_of_place? (hplace : s.plan.graph.place? id = some place) (hj : p.jobs[place]? = some j) :
    s.plan.graph.nameOf id = j.name := by
  have hname := congrArg (·[place]?) h.names
  simp only [List.getElem?_map, hj] at hname
  obtain ⟨d, hd, hdname⟩ := Option.map_eq_some_iff.1 hname.symm
  rw [s.graph_eq] at hplace ⊢
  exact (Project.name_of_place? hplace hd).trans hdname

lemma isBuilt_iff (hid : s.plan.graph.isPresent id) : p.IsBuilt id ↔ p.HasBuilt (s.plan.graph.nameOf id) := by
  constructor
  · rintro ⟨place, j, hplace, hj, hb⟩
    rw [h.graph] at hplace
    exact ⟨j, mem_of_getElem? hj, (h.name_of_place? hplace hj).symm, hb⟩
  · rintro ⟨j, hj, hname, hb⟩
    obtain ⟨place, hj⟩ := mem_iff_getElem?.1 hj
    obtain ⟨id', hplace⟩ := h.placed place j hj hb
    rw [h.graph] at hplace
    have hpresent : s.plan.graph.isPresent id' := by rw [Graph.isPresent, hplace]; rfl
    cases s.laid.name_inj hid hpresent (hname.symm.trans (h.name_of_place? hplace hj).symm)
    exact ⟨place, j, h.graph ▸ hplace, hj, hb⟩

lemma imports_built (hid : s.plan.graph.isPresent id) : (∀ dep, s.plan.graph.Imports id dep → p.IsBuilt dep) ↔
      ∀ y, Needs s.nodes (s.plan.graph.nameOf id) y → p.HasBuilt y := by
  constructor
  · intro hall y hy
    obtain ⟨dep, hdep, rfl⟩ := exists_imports hid hy
    exact (h.isBuilt_iff hdep.present).1 (hall dep hdep)
  · intro hall dep hdep
    rw [h.isBuilt_iff hdep.present]
    rw [s.graph_eq] at *
    exact hall _ (Graph.needs_of_imports hdep)

lemma findIdx? (x) : p.jobs.findIdx? (fun j => j.name = x) = s.decoded.findIdx? fun d => d.name = x := by
  have hnames : ∀ {α : Type} (l : List α) f,
      l.findIdx? (fun a => f a = x) = (l.map f).findIdx? fun y => decide (y = x) := fun l f => by
    rw [List.findIdx?_map]
    rfl
  rw [hnames p.jobs, hnames s.decoded, h.names]

lemma isFirst (hplace : s.plan.graph.place? id = some place) : p.isFirst place := by
  have hfirst := place?_nodes (s.graph_eq ▸ hplace)
  rw [← h.findIdx?] at hfirst
  obtain ⟨hlt, hname, -⟩ := List.findIdx?_eq_some_iff_getElem.1 hfirst
  refine isFirst_iff.2 ⟨_, List.getElem?_eq_getElem hlt, ?_⟩
  rw [← hfirst, of_decide_eq_true hname]

lemma mem_places : place ∈ p.places ↔ p.isFirst place := by
  unfold places
  simp only [mem_append, mem_filterMap, mem_filter, mem_range]
  constructor
  · rintro (⟨id, -, hplace⟩ | ⟨⟨-, hfirst⟩, -⟩)
    · exact h.isFirst (h.graph ▸ hplace)
    · exact hfirst
  · intro hfirst
    obtain ⟨j, hj, -⟩ := isFirst_iff.1 hfirst
    by_cases hordered : ∃ id ∈ p.schedule.order, p.graph.place? id = some place
    · exact .inl hordered
    · exact .inr ⟨⟨(List.getElem?_eq_some_iff.1 hj).1, hfirst⟩, by simpa using hordered⟩

lemma places_nodup : p.places.Nodup := by
  have hl := s.laid
  have horder : p.schedule.order.Nodup := by
    rw [h.schedule, hl.schedule]
    exact (nodup_append'.1 (Graph.order_append_stuck_nodup hl.sound)).1
  refine nodup_append'.2 ⟨horder.filterMap fun id id' place hid hid' => ?_, ?_, fun place hplace hother => ?_⟩
  · rw [h.graph] at hid hid'
    exact hl.place_inj hid hid'
  · exact (nodup_range.filter _).filter _
  · simpa [hplace] using (mem_filter.1 hother).2

lemma modules_nodup (files) : ((p.outcome files).modules.map Job.name).Nodup := by
  change ((p.places.filterMap (p.jobs[·]?)).map Job.name).Nodup
  rw [List.Nodup, pairwise_map, pairwise_filterMap]
  refine h.places_nodup.imp_of_mem fun {place place'} hplace hplace' hne j hj j' hj' heq => hne ?_
  obtain ⟨i, hi, hfirst⟩ := isFirst_iff.1 (h.mem_places.1 hplace)
  obtain ⟨i', hi', hfirst'⟩ := isFirst_iff.1 (h.mem_places.1 hplace')
  cases hi.symm.trans hj
  cases hi'.symm.trans hj'
  rw [heq, hfirst'] at hfirst
  exact (Option.some.inj hfirst).symm

lemma mem_modules (files) : j ∈ (p.outcome files).modules ↔ ∃ place, p.jobs[place]? = some j ∧
      s.decoded.findIdx? (fun d => d.name = j.name) = some place := by
  change j ∈ p.places.filterMap (p.jobs[·]?) ↔ _
  rw [mem_filterMap]
  refine exists_congr fun place => ?_
  rw [h.mem_places, isFirst_iff, ← h.findIdx?]
  constructor
  · rintro ⟨⟨i, hi, hfirst⟩, hj⟩
    cases hi.symm.trans hj
    exact ⟨hj, hfirst⟩
  · rintro ⟨hj, hfirst⟩
    exact ⟨⟨j, hj, hfirst⟩, hj⟩

lemma mem_names (files) : x ∈ (p.outcome files).modules.map Job.name ↔ ∃ d ∈ s.decoded, d.name = x := by
  rw [mem_map]
  constructor
  · rintro ⟨j, hj, rfl⟩
    obtain ⟨place, -, hfirst⟩ := (h.mem_modules files).1 hj
    obtain ⟨hlt, hname, -⟩ := List.findIdx?_eq_some_iff_getElem.1 hfirst
    exact ⟨_, getElem_mem hlt, of_decide_eq_true hname⟩
  · rintro ⟨d, hd, rfl⟩
    obtain ⟨place, hplace⟩ : ∃ place, s.decoded.findIdx? (fun e => e.name = d.name) = some place :=
      Option.isSome_iff_exists.1 (by simpa using ⟨d, hd, rfl⟩)
    have hjob := hplace
    rw [← h.findIdx?] at hjob
    obtain ⟨hlt, hname, -⟩ := List.findIdx?_eq_some_iff_getElem.1 hjob
    have hname := of_decide_eq_true hname
    exact ⟨p.jobs[place], (h.mem_modules files).2 ⟨place, List.getElem?_eq_getElem hlt, hname ▸ hplace⟩, hname⟩

lemma builtName?_iff : p.builtName? id = some x ↔ p.IsBuilt id ∧ s.plan.graph.nameOf id = x := by
  simp only [builtName?, Option.bind_eq_some_iff, Option.ite_none_right_eq_some, Option.some.injEq]
  constructor
  · rintro ⟨j, ⟨place, hplace, hj⟩, hb, rfl⟩
    exact ⟨⟨place, j, hplace, hj, hb⟩, h.name_of_place? (h.graph ▸ hplace) hj⟩
  · rintro ⟨⟨place, j, hplace, hj, hb⟩, rfl⟩
    exact ⟨j, ⟨place, hplace, hj⟩, hb, (h.name_of_place? (h.graph ▸ hplace) hj).symm⟩

end

lemma order_eq (h : Reached s.plan p.schedule.order p log) (files) :
    (p.outcome files).order = p.schedule.order.filterMap p.builtName? := by
  have hrest : ∀ place ∈ ((List.range p.jobs.length).filter p.isFirst).filter
      (· ∉ p.schedule.order.filterMap p.graph.place?), ∀ j, p.jobs[place]? = some j → ¬j.built.isSome := by
    intro place hplace j hj hb
    obtain ⟨id, hid⟩ := h.placed place j hj hb
    have hdone := h.built_done id ⟨place, j, hid, hj, hb⟩
    have hnot := (mem_filter.1 hplace).2
    simp only [decide_not, Bool.not_eq_eq_eq_not, Bool.not_true, decide_eq_false_iff_not] at hnot
    exact hnot (mem_filterMap.2 ⟨id, hdone, hid⟩)
  change ((p.places.filterMap (p.jobs[·]?)).filter fun j => j.built.isSome).map Job.name = _
  rw [places, filterMap_append, filter_append, map_append]
  have hnone : ((((List.range p.jobs.length).filter p.isFirst).filter
      (· ∉ p.schedule.order.filterMap p.graph.place?)).filterMap (p.jobs[·]?)).filter (fun j => j.built.isSome) = [] := by
    rw [filter_eq_nil_iff]
    intro j hj
    obtain ⟨place, hplace, hj⟩ := mem_filterMap.1 hj
    exact hrest place hplace j hj
  rw [hnone, map_nil, append_nil, filterMap_filterMap, ← filterMap_eq_filter, filterMap_filterMap, map_filterMap]
  refine filterMap_congr fun id _ => ?_
  unfold builtName?
  cases (p.graph.place? id).bind (p.jobs[·]?) with
  | none => rfl
  | some j => by_cases hb : j.built.isSome <;> simp [hb]

lemma order_before (h : Reached s.plan p.schedule.order p log) (files)
    {before after : List Text} (horder : (p.outcome files).order = before ++ x :: after) (hy : Needs s.nodes x y) :
    y ∈ before := by
  have hl := s.laid
  rw [h.order_eq, filterMap_eq_append_iff] at horder
  obtain ⟨first, rest, hsplit, rfl, hrest⟩ := horder
  obtain ⟨skipped, id, last, rfl, hskipped, hid, -⟩ := filterMap_eq_cons_iff.1 hrest
  obtain ⟨hbuilt, rfl⟩ := h.builtName?_iff.1 hid
  have hmem : id ∈ p.schedule.order := by rw [hsplit]; simp
  have hpresent : s.plan.graph.isPresent id := by
    rw [h.schedule, hl.schedule, Graph.mem_order hl.sound] at hmem
    exact hmem.1
  obtain ⟨dep, hdep, rfl⟩ := exists_imports hpresent hy
  have hdepBuilt := h.builtName?_iff.2 ⟨((h.built_iff id hmem).1 hbuilt).2.1 dep hdep, rfl⟩
  rw [h.schedule, hl.schedule, ← append_assoc] at hsplit
  obtain hearly | hlate := mem_append.1 (Graph.order_before hl.sound hsplit hdep)
  · exact mem_filterMap.2 ⟨dep, hearly, hdepBuilt⟩
  · rw [hskipped dep hlate] at hdepBuilt
    cases hdepBuilt

end Plan.Reached

end Yield

/-- What a run over these files came to when these attempts were made, in this order. Each name is
tried at most once and after all that it needs, and tried are the modules that nothing read stands
against and whose needs are built; a file's module is built if besides its attempt succeeds. The
outcome lists every name once, for the file that declares it first, and what was built in an order in
which needs come first. -/
structure Plan.Yields (p : Plan) (s : Sources) (attempts : List Attempt) :
    Prop where
  once : (attempts.map Attempt.name).Nodup
  after : ∀ earlier a later, attempts = earlier ++ a :: later →
    ∀ y, Needs s.nodes a.name y → Succeeded earlier y
  tried : ∀ x, x ∈ attempts.map Attempt.name ↔ ∃ place d, s.decoded[place]? = some d ∧ d.name = x ∧
    Fit s place d ∧ ∀ y, Needs s.nodes x y → p.HasBuilt y
  built : ∀ place d, s.decoded[place]? = some d → ((∃ j, p.jobs[place]? = some j ∧ j.built.isSome) ↔
    Fit s place d ∧ (∀ y, Needs s.nodes d.name y → p.HasBuilt y) ∧
      Succeeded attempts d.name)
  names : p.jobs.map Job.name = s.decoded.map Decoded.name
  listed : ∀ files, ((p.outcome files).modules.map Job.name).Nodup ∧
    (∀ x, x ∈ (p.outcome files).modules.map Job.name ↔ ∃ d ∈ s.decoded, d.name = x) ∧
    ∀ j, j ∈ (p.outcome files).modules ↔ ∃ place, p.jobs[place]? = some j ∧
      s.decoded.findIdx? (fun d => d.name = j.name) = some place
  ordered : ∀ files before x after, (p.outcome files).order = before ++ x :: after →
    ∀ y, Needs s.nodes x y → y ∈ before

section Yields

variable {s : Sources} {log : List Attempt}

lemma Plan.Reached.yields (h : Reached s.plan s.plan.schedule.order p log) : p.Yields s log.reverse := by
  have hl := s.laid
  have horder : Reached s.plan p.schedule.order p log := h.schedule.symm ▸ h
  have hpresent : ∀ {id}, id ∈ s.plan.schedule.order →
      s.plan.graph.isPresent id := fun hid =>
    ((Graph.mem_order hl.sound).1 (hl.schedule ▸ hid)).1
  have hname : ∀ {id place d}, s.decoded[place]? = some d → s.plan.graph.place? id = some place →
      s.plan.graph.nameOf id = d.name := fun hd hplace => by
    rw [s.graph_eq] at *
    exact Project.name_of_place? hplace hd
  have hsucceeded : ∀ {l x}, Succeeded l.reverse x ↔ Succeeded l x := by simp [Succeeded]
  refine ⟨?_, fun earlier a later hsplit y hy => ?_, fun x => ?_, fun place d hd => ?_, h.names, fun files => ?_,
    fun files before x after hsplit y hy => horder.order_before files hsplit hy⟩
  · rw [map_reverse, nodup_reverse]
    exact h.once
  · have hlog : log = later.reverse ++ a :: earlier.reverse := by
      rw [← reverse_reverse log, hsplit]
      simp
    obtain ⟨id, hid, hida⟩ := h.tried a (by rw [hlog]; simp)
    rw [← hida] at hy
    obtain ⟨dep, hdep, rfl⟩ := exists_imports (hpresent hid) hy
    exact hsucceeded.1 (h.after _ a _ hlog id (hpresent hid) hida dep hdep)
  · rw [map_reverse, mem_reverse, mem_map]
    constructor
    · rintro ⟨a, ha, rfl⟩
      obtain ⟨id, hid, hida⟩ := h.tried a ha
      obtain ⟨hwhole, hdeps⟩ := (h.tried_iff id hid).1 ⟨a, ha, hida.symm⟩
      obtain ⟨place, hplace⟩ := Option.isSome_iff_exists.1 (hpresent hid)
      have hfirst := place?_nodes (s.graph_eq ▸ hplace)
      obtain ⟨hlt, -, -⟩ := List.findIdx?_eq_some_iff_getElem.1 hfirst
      have hd := List.getElem?_eq_getElem hlt
      refine ⟨place, _, hd, (hname hd hplace).symm.trans hida, (fit_iff hd).2 ⟨id, hid, hplace, hwhole⟩, ?_⟩
      rw [← hida]
      exact (h.imports_built (hpresent hid)).1 hdeps
    · rintro ⟨place, d, hd, rfl, hfit, hdeps⟩
      obtain ⟨id, hid, hplace, hwhole⟩ := (fit_iff hd).1 hfit
      rw [← hname hd hplace] at hdeps ⊢
      exact (h.tried_iff id hid).2 ⟨hwhole, (h.imports_built (hpresent hid)).2 hdeps⟩
  · rw [hsucceeded]
    constructor
    · rintro ⟨j, hj, hb⟩
      obtain ⟨id, hplace⟩ := h.placed place j hj hb
      have hbuilt : p.IsBuilt id := ⟨place, j, hplace, hj, hb⟩
      have hid := h.built_done id hbuilt
      rw [h.graph] at hplace
      obtain ⟨hwhole, hdeps, hok⟩ := (h.built_iff id hid).1 hbuilt
      rw [h.imports_built (hpresent hid), hname hd hplace] at hdeps
      exact ⟨(fit_iff hd).2 ⟨id, hid, hplace, hwhole⟩, hdeps, hname hd hplace ▸ hok⟩
    · rintro ⟨hfit, hdeps, hok⟩
      obtain ⟨id, hid, hplace, hwhole⟩ := (fit_iff hd).1 hfit
      rw [← hname hd hplace] at hdeps hok
      obtain ⟨place', j, hplace', hj, hb⟩ :=
        (h.built_iff id hid).2 ⟨hwhole, (h.imports_built (hpresent hid)).2 hdeps, hok⟩
      rw [h.graph, hplace] at hplace'
      cases hplace'
      exact ⟨j, hj, hb⟩
  · exact ⟨h.modules_nodup files, fun x => h.mem_names files, fun j => h.mem_modules files⟩

end Yields

/-! ### Files -/

section Files

variable {α : Type} {before after : World σ}

def Retraced (w w' : World σ) : Prop := ∃ trace, w' = { w with trace }

lemma Retraced.trans (h : Retraced w w1) (k : Retraced w1 w') : Retraced w w' := by
  obtain ⟨_, rfl⟩ := h
  obtain ⟨_, rfl⟩ := k
  exact ⟨_, rfl⟩

/-- The passes of a build of files with the worlds that they begin and end in. But for the trace each begins where the
one before it ended. -/
structure Passes (w : Watch σ) (o : Options) (files : List Text) (before after : World σ) where
  sources : Sources
  plan : Plan
  opened : World σ
  read : World σ
  ordered : World σ
  built : World σ
  opens : Retraced before opened
  decodes : decodeFiles w o.limit (files.map (Path.absolute before.files.cwd)) opened = .ok sources.decoded read
  loaded : sources.loaded = read.registry.map Prod.fst
  root : sources.root = if o.root.isEmpty then [] else Path.absolute before.files.cwd o.root
  orders : Retraced read ordered
  builds : sources.plan.run w.tools ordered = .ok plan built
  closes : Retraced built after

lemma inPass_outcomes (name parent) (body : Act σ (α × List (Text × Text))) :
    Obeys before (inPass name parent body) (fun x after => ∃ facts w w', Retraced before w ∧
      body w = .ok (x, facts) w' ∧ Retraced w' after) fun _ _ => True := by
  refine .bind (P := fun _ => Retraced before) ⟨_, rfl⟩ fun span w hw => ?_
  refine .bind ((Act.attempt_obeys Obeys.self).weaken fun _ _ _ => trivial) fun r w' hr => ?_
  obtain ⟨⟨x, facts⟩, rfl, hx⟩ | ⟨f, rfl, -⟩ := hr
  · exact .bind (P := fun _ => Retraced w') ⟨_, rfl⟩ fun _ _ hw' => .pure ⟨facts, w, w', hw, hx, hw'⟩
  · exact .bind .any fun _ _ _ => .throw trivial

lemma buildFiles_passes (w : Watch σ) (o) (parent : Nat) (files) :
    Obeys before (buildFiles w o parent files) (fun outcome after => ∃ p : Passes w o files before after,
      outcome = p.plan.outcome (files.map (Path.absolute before.files.cwd))) fun _ _ => True := by
  refine .bind (P := fun s w => s = before ∧ w = before) ⟨rfl, rfl⟩ ?_
  rintro _ _ ⟨rfl, rfl⟩
  refine .bind (inPass_outcomes ..) fun decoded w1 hdecode => ?_
  refine .bind (inPass_outcomes ..) fun plan w2 horder => ?_
  refine (inPass_outcomes ..).mono fun outcome after hbuild => ?_
  obtain ⟨_, v1, v1', hopens, hdecoded, hread⟩ := hdecode
  obtain ⟨_, v2, v2', horders, hplan, hordered⟩ := horder
  obtain ⟨_, v3, v3', hbuilds, houtcome, hcloses⟩ := hbuild
  obtain ⟨decoded', u1, hdecodes, hpure⟩ := Act.exists_of_bind hdecoded
  obtain ⟨plan', u3, hrun, hdone⟩ := Act.exists_of_bind houtcome
  cases hpure
  cases hplan
  cases hdone
  have hsame := hread.trans horders
  have hstart := hsame.trans (hordered.trans hbuilds)
  obtain ⟨_, rfl⟩ := hsame
  exact ⟨⟨⟨_, _, decoded⟩, plan', v1, v1', v3, v3', hopens, hdecodes, rfl, rfl, hstart, hrun, hcloses⟩, rfl⟩

lemma run_outcomes (t) (s : Sources) (before : World σ) :
    Obeys (before.handTo (before.user, [])) (s.plan.run t.recorded)
      (fun plan after => s.plan.run t before = .ok plan after.alone ∧ plan.Yields s after.user.2.reverse)
      fun e after => s.plan.run t before = .error e after.alone ∧ ¬t.Steady := by
  have hreached := run_recorded (t := t) (w := before.handTo (before.user, [])) s.laid rfl
  have hsame := run_shadows (recorded_shadows t) s.plan (before.handTo (before.user, []))
  unfold Obeys at hreached ⊢
  cases hx : s.plan.run t.recorded (before.handTo (before.user, [])) with
  | ok plan after =>
    rw [hx] at hreached hsame
    exact ⟨hsame, hreached.yields⟩
  | error e after =>
    rw [hx] at hreached hsame
    exact ⟨hsame, hreached⟩

lemma exists_watched {s : Sources} {w : World σ} {plan : Plan} (h : s.plan.run t w = .ok plan w') :
    ∃ after, after.alone = w' ∧ s.plan.run t.recorded (w.handTo (w.user, [])) = .ok plan after ∧
      plan.Yields s after.user.2.reverse := by
  have hwatched := run_outcomes t s w
  unfold Obeys at hwatched
  cases hx : s.plan.run t.recorded (w.handTo (w.user, [])) with
  | ok plan' after =>
    rw [hx] at hwatched
    cases h.symm.trans hwatched.1
    exact ⟨after, rfl, rfl, hwatched.2⟩
  | error e after =>
    rw [hx] at hwatched
    cases h.symm.trans hwatched.1

/-- A run builds exactly what can be built, needs first, whatever its tools do. Steady tools bring it to
its end; others may stop it. What is watched is the run itself, and a build of files is such a run. -/
theorem run_yields : (∀ (t : Tools σ) (s : Sources) (before : World σ),
      Obeys (before.handTo (before.user, [])) (s.plan.run t.recorded)
        (fun plan after => s.plan.run t before = .ok plan after.alone ∧ plan.Yields s after.user.2.reverse)
        fun e after => s.plan.run t before = .error e after.alone ∧ ¬t.Steady) ∧
    ∀ (w : Watch σ) (o : Options) (parent : Nat) (files : List Text) (before : World σ),
      Obeys before (buildFiles w o parent files) (fun outcome after => ∃ p : Passes w o files before after,
        outcome = p.plan.outcome (files.map (Path.absolute before.files.cwd)) ∧
        ∃ watched : World (σ × List Attempt), watched.alone = p.built ∧
          p.sources.plan.run w.tools.recorded (p.ordered.handTo (p.ordered.user, [])) = .ok p.plan watched ∧
          p.plan.Yields p.sources watched.user.2.reverse) fun _ _ => True := by
  refine ⟨run_outcomes, fun w o parent files before => (buildFiles_passes w o parent files).mono ?_⟩
  rintro outcome after ⟨p, houtcome⟩
  exact ⟨p, houtcome, exists_watched p.builds⟩

end Files

end Arbor.Project
