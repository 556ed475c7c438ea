import Arbor.Project.Plan
import Arbor.Proofs.Ordering

/-! What a plan knows before anything is built: one job for each file read, what each module needs
within the run, and which modules are broken from the start. -/

namespace Arbor.Project

open Diag IR List

/-- The module that an import asks for; nothing if its relative target leads nowhere. -/
def Known.asks (k : Known) (file : Text) (i : Tree.Import) : Option Text :=
  if i.isRelative then
    match importPath k.root file i.target Tree.fileExt with
    | .error _ => none
    | .ok target => some (Lower.importName (nameImport k i target))
  else some (Lower.importName i)

def Known.needs (k : Known) (file : Text) (imports : List Tree.Import) : List Text :=
  (imports.filterMap (k.asks file)).filter fun y => !k.loaded.contains y

section Resolving

variable {k : Known} {imports : List Tree.Import}

lemma resolveImport_needs (i) : (resolveImport k file r i).needs = r.needs ++ k.needs file [i] := by
  have hneed : ∀ i, (r.need k i).needs = r.needs ++ [Lower.importName i].filter fun y => !k.loaded.contains y := by
    intro i
    unfold Resolved.need
    by_cases h : Lower.importName i ∈ k.loaded <;> simp [h]
  unfold resolveImport Known.needs
  rw [filterMap_cons]
  by_cases hrel : i.isRelative
  · simp only [hrel, Known.asks]
    cases importPath k.root file i.target Tree.fileExt with
    | error e => simp
    | ok target => exact hneed _
  · simp only [hrel, Known.asks]
    exact hneed _

lemma resolveImport_faults (i) : (resolveImport k file r i).faults = [] ↔ r.faults = [] ∧ (k.asks file i).isSome := by
  unfold resolveImport Known.asks
  by_cases hrel : i.isRelative
  · simp only [hrel]
    cases importPath k.root file i.target Tree.fileExt with
    | error e => simp
    | ok target => simp [Resolved.need]
  · simp [hrel, Resolved.need]

lemma foldl_resolveImport : (imports.foldl (resolveImport k file) r).needs = r.needs ++ k.needs file imports ∧
    ((imports.foldl (resolveImport k file) r).faults = [] ↔
      r.faults = [] ∧ ∀ i ∈ imports, (k.asks file i).isSome) := by
  induction imports generalizing r with
  | nil => simp [Known.needs]
  | cons i imports ih =>
    obtain ⟨hneeds, hfaults⟩ := ih
    refine ⟨?_, ?_⟩
    · rw [foldl_cons, hneeds, resolveImport_needs, append_assoc]
      simp only [Known.needs, ← filter_append, ← filterMap_append, singleton_append]
    · rw [foldl_cons, hfaults, resolveImport_faults]
      simp [and_assoc]

lemma resolveImports_faults : (resolveImports k file imports).faults = [] ↔ ∀ i ∈ imports, (k.asks file i).isSome := by
  rw [resolveImports, foldl_resolveImport.2]
  exact and_iff_right rfl

end Resolving

def Job.core (j : Job) : Job := { j with bag := {}, broken := false }

/-- What a plan is made from: the modules that are loaded, the directory that relative imports stay in, and the files read. -/
structure Sources where
  loaded : List Text
  root : Text
  decoded : List Decoded

namespace Sources

def known (s : Sources) : Known where
  loaded := s.loaded
  root := s.root
  byPath := s.decoded.filterMap fun d => d.module.map fun m => (d.path, m.name)

def nodes (s : Sources) : List Node := s.decoded.map fun d => (d.job s.known).2

abbrev plan (s : Sources) : Plan := .ofDecoded s.loaded s.root s.decoded

end Sources

section Jobs

variable {d : Decoded}

@[simp] lemma job_name : (d.job k).1.name = d.name := by
  unfold Decoded.job Decoded.name
  cases d.module <;> rfl

@[simp] lemma node_name : (d.job k).2.name = d.name := by
  unfold Decoded.job Decoded.name
  cases d.module <;> rfl

@[simp] lemma job_built : (d.job k).1.built = none := by
  unfold Decoded.job
  cases d.module <;> rfl

lemma job_tree_name (h : (d.job k).1.tree = some tree) : tree.name = d.name := by
  unfold Decoded.job at h
  unfold Decoded.name
  cases hm : d.module with
  | none => simp [hm] at h
  | some m =>
    rw [hm] at h
    cases h
    rfl

lemma node_broken : (d.job k).2.broken = false ↔
    ∃ m, d.module = some m ∧ ∀ i ∈ m.imports.items.filterMap id, (k.asks d.path i).isSome := by
  unfold Decoded.job
  cases d.module with
  | none => simp
  | some m =>
    simp only [← resolveImports_faults]
    simp

lemma node_imports : (d.job k).2.imports =
    (d.module.map fun m => k.needs d.path (m.imports.items.filterMap id)).getD [] := by
  unfold Decoded.job
  cases d.module with
  | none => rfl
  | some m => exact foldl_resolveImport.1

end Jobs

lemma slotOf_modify {id : ModuleId} (hid : id < slots.size) (f) (i) :
    slotOf (slots.modify id f) i = if i = id then f (slotOf slots id) else slotOf slots i := by
  simp only [slotOf, Array.getD_eq_getD_getElem?, Array.getElem?_modify]
  by_cases h : i = id
  · subst h
    simp [hid]
  · simp [h, Ne.symm h]

namespace Graph

variable {g : Graph} {nodes : List Node} {id : ModuleId} {name : Text} {seen deps : List Text} {n : Node}

lemma importFaults_eq_nil (hseen : ∀ y ∈ seen, ∃ n ∈ g.nodes, n.name = y) : g.importFaults name seen deps = [] ↔
    ∀ y ∈ deps, y ≠ [] → y ≠ name ∧ ∃ n ∈ g.nodes, n.name = y := by
  induction deps with
  | nil => simp [importFaults]
  | cons y deps ih =>
    rw [importFaults, forall_mem_cons]
    by_cases hempty : y = []
    · simp [hempty, ih]
    · by_cases hself : y = name
      · subst hself
        simp [hempty]
      · have hthere : (y ∈ seen || g.nodes.any (·.name = y)) = true ↔ ∃ n ∈ g.nodes, n.name = y := by
          simpa using hseen y
        rw [if_neg hempty, if_neg hself]
        by_cases h : ∃ n ∈ g.nodes, n.name = y
        · rw [if_pos (hthere.2 h), ih]
          exact (and_iff_right fun _ => ⟨hself, h⟩).symm
        · rw [if_neg fun hc => h (hthere.1 hc)]
          exact iff_of_false (by simp) fun hall => h (hall.1 hempty).2

lemma slotOf_reportCycles {slots : Slots} (hlt : ∀ i ∈ s.stuck, i < slots.size) (id) :
    slotOf (g.reportCycles s slots).1 id =
      { slotOf slots id with broken := (slotOf slots id).broken || decide (id ∈ s.stuck) } := by
  rw [reportCycles]
  generalize s.stuck = l at hlt
  induction l generalizing slots with
  | nil => simp
  | cons i l ih =>
    rw [foldl_cons, ih (by simpa using fun j hj => hlt j (by simp [hj])), slotOf_modify (hlt i (by simp))]
    by_cases h : id = i <;> simp [h]

lemma reportCycles_size (s slots) : (g.reportCycles s slots).1.size = slots.size := by
  rw [reportCycles]
  generalize s.stuck = l
  induction l generalizing slots with
  | nil => rfl
  | cons i l ih => rw [foldl_cons, ih, Array.size_modify]

lemma slot_whole (hn : (ofNodes nodes).node? id = some n) : (slotOf (ofNodes nodes).slots id).broken = false ↔
    n.broken = false ∧ ∀ y ∈ n.imports, y ≠ [] → y ≠ n.name ∧ Declared nodes y := by
  have hlt : id < (namesOf nodes).length := by
    by_contra hid
    simp [node?, place?_eq_none hid] at hn
  have hslot : slotOf (ofNodes nodes).slots id = ⟨n.broken || !((ofNodes nodes).faultsOf id).isEmpty, n.firstError⟩ := by
    have hids : id < (ofNodes nodes).names.length := hlt
    simp [slotOf, slots, ids, hids, hn]
  simp only [hslot, Bool.or_eq_false_iff, Bool.not_eq_false', List.isEmpty_iff, faultsOf, hn]
  rw [importFaults_eq_nil (by simp)]
  refine and_congr_right fun _ => forall₂_congr fun y _ => forall_congr' fun hy => and_congr_right fun _ => ?_
  exact (and_iff_right hy).symm

lemma stuck_lt (hg : g.Sound) : ∀ i ∈ g.schedule.stuck, i < g.slots.size := fun i hi => by
  simpa [slots, ids] using hg.lt i ((mem_stuck hg).1 hi).1

lemma slot_of_order (hid : id ∈ (ofNodes nodes).schedule.order) (hn : (ofNodes nodes).node? id = some n) :
    (slotOf ((ofNodes nodes).reportCycles (ofNodes nodes).schedule (ofNodes nodes).slots).1 id).broken = false ↔
      n.broken = false ∧ ∀ y ∈ n.imports, y ≠ [] → y ≠ n.name ∧ Declared nodes y := by
  have hg := sound_ofNodes nodes
  have hfree : id ∉ (ofNodes nodes).schedule.stuck := fun hstuck =>
    (nodup_append'.1 (order_append_stuck_nodup hg)).2.2 hid hstuck
  rw [slotOf_reportCycles (stuck_lt hg), ← slot_whole hn]
  simp [hfree]

end Graph

structure Plan.Alike (p q : Plan) : Prop where
  graph : q.graph = p.graph
  schedule : q.schedule = p.schedule
  slots : q.slots = p.slots
  cores : q.jobs.map Job.core = p.jobs.map Job.core

namespace Plan

lemma Alike.refl (p) : Alike p p := ⟨rfl, rfl, rfl, rfl⟩

lemma Alike.trans (h : Alike p q) (h' : Alike q r) : Alike p r :=
  ⟨h'.graph.trans h.graph, h'.schedule.trans h.schedule, h'.slots.trans h.slots, h'.cores.trans h.cores⟩

lemma Alike.foldl {f : Plan → α → Plan} (hf : ∀ p x, Alike p (f p x)) (l : List α) (p) :
    Alike p (l.foldl f p) := by
  induction l generalizing p with
  | nil => exact .refl p
  | cons x l ih => exact (hf p x).trans (ih _)

lemma map_modify_core (hf : ∀ j, (f j).core = j.core) (jobs : List Job) (place) :
    (jobs.modify place f).map Job.core = jobs.map Job.core := by
  refine ext_getElem? fun i => ?_
  simp only [getElem?_map, getElem?_modify]
  split <;> cases jobs[i]? <;> simp [hf]

lemma alike_update (hf : ∀ j, (f j).core = j.core) (p) (place) :
    Alike p (p.update place f) := ⟨rfl, rfl, rfl, map_modify_core hf p.jobs place⟩

lemma alike_report (p f) : Alike p (p.report f) := by
  refine alike_update ?_ p f.place
  exact fun j => rfl

end Plan

lemma Sources.alike (s : Sources) : let g := Graph.ofNodes s.nodes
    Plan.Alike { jobs := s.decoded.map fun d => (d.job s.known).1, graph := g, schedule := g.schedule,
                 slots := (g.reportCycles g.schedule g.slots).1 } s.plan := by
  unfold plan Plan.ofDecoded
  simp only [map_map]
  refine (Plan.Alike.foldl Plan.alike_report _ _).trans (.foldl (fun p id => ?_) _ _)
  split
  · refine Plan.alike_update ?_ p _
    exact fun j => rfl
  · exact .refl p

end Arbor.Project
