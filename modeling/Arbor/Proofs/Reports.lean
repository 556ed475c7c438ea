import Arbor.Proofs.Outcome

/-! No failure of a run is lost. Bags hold nothing but errors, so a limit never empties one, and from
the plan on a module is broken exactly if the bag of its file holds something. When the run is over, what
is not broken is built, and the report of the outcome has an error unless all files were built. -/

namespace Arbor.Diag.Bag

variable {b : Bag} {d : Diagnostic} {l : List Diagnostic}

def Grave (b : Bag) : Prop := ∀ d ∈ b.items, d.severity = .error

lemma Grave.add (h : b.Grave) (hd : d.severity = .error) : (b.add d).Grave := by
  unfold Bag.add
  split
  · exact h
  · intro e he
    rcases List.mem_append.1 he with he | he
    · exact h e he
    · rw [List.mem_singleton.1 he, hd]

lemma add_items_ne (b : Bag) (d) : (b.add d).items ≠ [] := by
  unfold add
  by_cases h : b.isFull
  · rw [if_pos h]
    intro hnil
    simp only [isFull, hnil, List.length_nil, Bool.and_eq_true, decide_eq_true_eq] at h
    omega
  · rw [if_neg h]
    simp

lemma foldl_add_items (b) (l) : (l.foldl Bag.add b).items = [] ↔ b.items = [] ∧ l = [] := by
  induction l generalizing b with
  | nil => simp
  | cons d l ih => simp [ih, add_items_ne]

lemma Grave.foldl_add (h : b.Grave) (hl : ∀ d ∈ l, d.severity = .error) : (l.foldl Bag.add b).Grave := by
  induction l generalizing b with
  | nil => exact h
  | cons d l ih => exact ih (h.add (hl d (by simp))) fun e he => hl e (by simp [he])

lemma Grave.hasErrors (h : b.Grave) : b.hasErrors = false ↔ b.items = [] := by
  unfold Bag.hasErrors
  rw [List.any_eq_false, List.eq_nil_iff_forall_not_mem]
  refine forall₂_congr fun d hd => ?_
  simp [h d hd]

lemma hasErrors_foldl_merge (bags : List Bag) (b) :
    (bags.foldl merge b).hasErrors = (b.hasErrors || bags.any hasErrors) := by
  induction bags generalizing b with
  | nil => simp
  | cons c bags ih =>
    rw [List.foldl_cons, ih]
    simp [merge, hasErrors, Bool.or_assoc]

lemma any_freshItems (seen l) (P : Severity → Bool) :
    ((freshItems seen l).any (fun d => P d.severity) || seen.any fun k => P k.severity) =
      (l.any (fun d => P d.severity) || seen.any fun k => P k.severity) := by
  induction l generalizing seen with
  | nil => rfl
  | cons d l ih =>
    unfold freshItems
    by_cases hd : d.key ∈ seen
    · rw [if_pos hd, ih, List.any_cons]
      cases hP : P d.severity with
      | false => rw [Bool.false_or]
      | true =>
        have hseen : seen.any (fun k => P k.severity) = true := List.any_eq_true.2 ⟨d.key, hd, hP⟩
        simp [hseen]
    · have hrest := ih (d.key :: seen)
      have hkey : P d.key.severity = P d.severity := rfl
      rw [List.any_cons, hkey] at hrest
      rw [if_neg hd, List.any_cons, List.any_cons, Bool.or_assoc, Bool.or_assoc, Bool.or_left_comm, hrest,
        Bool.or_left_comm]

lemma hasErrors_dedup : b.dedup.hasErrors = b.hasErrors := by
  simpa [dedup, hasErrors] using any_freshItems [] b.items fun s => decide (Severity.error.rank ≤ s.rank)

end Arbor.Diag.Bag

namespace Arbor.Diag

lemma Diagnostic.severity_ofFault (module) (f) : (Diagnostic.ofFault module f).severity = .error := by
  unfold Diagnostic.ofFault
  cases f.link? <;> rfl

end Arbor.Diag

namespace Arbor.Project

open Build Diag IR Proofs List
open Option (some map_eq_some_iff map_some)

structure Decoded.Genuine (d : Decoded) : Prop where
  grave : d.bag.Grave
  failed : d.module = none → d.bag.items ≠ []
  sound : ∀ m, d.module = some m → m.name ≠ [] ∧ d.bag.items = []

section Findings

variable {k : Known} {d : Decoded} {g : Graph} {nodes : List Node} {id : ModuleId} {place : Nat}

lemma job_grave (h : d.Genuine) : (d.job k).1.bag.Grave := by
  unfold Decoded.job
  cases d.module with
  | none => exact h.grave
  | some m =>
    refine h.grave.foldl_add fun e he => ?_
    obtain ⟨f, -, rfl⟩ := mem_map.1 he
    rfl

lemma job_items (h : d.Genuine) : (d.job k).1.bag.items ≠ [] ↔ (d.job k).2.broken = true := by
  unfold Decoded.job
  cases hm : d.module with
  | none => simpa using h.failed hm
  | some m =>
    simp only [ne_eq, Bag.foldl_add_items, (h.sound m hm).2, true_and, map_eq_nil_iff, Bool.not_eq_true',
      isEmpty_eq_false_iff]

namespace Graph

lemma mem_duplicates (hseen : [] ∉ seen) :
    (∃ f ∈ duplicates seen start nodes, f.place = place) ↔ ∃ i n, nodes[i]? = some n ∧ place = start + i ∧ n.name ≠ [] ∧
      (n.name ∈ seen ∨ ∃ i' < i, ∃ n', nodes[i']? = some n' ∧ n'.name = n.name) := by
  induction nodes generalizing seen start with
  | nil => simp [duplicates]
  | cons n nodes ih =>
    rw [← Nat.or_exists_add_one]
    simp only [getElem?_cons_zero, getElem?_cons_succ, Nat.exists_lt_succ_left, some.injEq, exists_eq_left',
      Nat.not_lt_zero, false_and, exists_false, or_false, Nat.add_zero, ← Nat.add_assoc, ← or_assoc]
    unfold duplicates
    by_cases hn : n.name ∈ seen
    · have hne : n.name ≠ [] := fun h => hseen (h ▸ hn)
      have hknown (x : Text) : (x ∈ seen ∨ n.name = x) ↔ x ∈ seen := or_iff_left_of_imp (· ▸ hn)
      rw [if_pos hn]
      simp only [mem_cons, exists_eq_or_imp, ih hseen, hknown, Nat.add_right_comm start 1, hne, hn, eq_comm (a := start), ne_eq,
        not_false_eq_true, and_self, and_true]
    · have hseen' : [] ∉ (if n.name = [] then seen else n.name :: seen) := by
        split
        · exact hseen
        · next hne => exact mt mem_cons.1 (not_or.2 ⟨Ne.symm hne, hseen⟩)
      have hmem (x : Text) (hx : x ≠ []) :
          x ∈ (if n.name = [] then seen else n.name :: seen) ↔ x ∈ seen ∨ n.name = x := by
        by_cases hne : n.name = []
        · simp [hne, hx.symm]
        · rw [if_neg hne, mem_cons, or_comm, eq_comm]
      rw [if_neg hn]
      simp only [ih hseen', Nat.add_right_comm start 1, hn, and_false, false_or]
      refine exists_congr fun i => exists_congr fun m => and_congr_right fun _ => and_congr_right fun _ =>
        and_congr_right fun hname => ?_
      rw [hmem _ hname]

lemma not_duplicate (hfirst : nodes.findIdx? (fun n => n.name = x) = some place) :
    ¬∃ f ∈ duplicates [] 0 nodes, f.place = place := by
  rw [mem_duplicates (by simp)]
  rintro ⟨i, n, hn, rfl, -, hseen | ⟨i', hi', n', hn', hsame⟩⟩
  · cases hseen
  · rw [Nat.zero_add] at hfirst
    obtain ⟨hlen, hname, hearlier⟩ := List.findIdx?_eq_some_iff_getElem.1 hfirst
    obtain ⟨hlen0, rfl⟩ := List.getElem?_eq_some_iff.1 hn
    obtain ⟨hlen', rfl⟩ := List.getElem?_eq_some_iff.1 hn'
    exact hearlier i' hi' (decide_eq_true (hsame.trans (of_decide_eq_true hname)))

lemma duplicate_of_later (hn : nodes[place]? = some n) (hname : n.name ≠ [])
    (hlater : nodes.findIdx? (fun m => m.name = n.name) ≠ some place) : ∃ f ∈ duplicates [] 0 nodes, f.place = place := by
  refine (mem_duplicates (by simp)).2 ⟨place, n, hn, by simp, hname, .inr ?_⟩
  obtain ⟨first, hfirst⟩ : ∃ first, nodes.findIdx? (fun m => m.name = n.name) = some first :=
    Option.isSome_iff_exists.1 (by simpa using ⟨n, List.mem_of_getElem? hn, rfl⟩)
  obtain ⟨hlen, hsame, hearlier⟩ := List.findIdx?_eq_some_iff_getElem.1 hfirst
  have hne : first ≠ place := fun heq => hlater (heq ▸ hfirst)
  have hle : first ≤ place := by
    by_contra hgt
    obtain ⟨hlen', rfl⟩ := List.getElem?_eq_some_iff.1 hn
    exact hearlier place (by omega) (by simp)
  exact ⟨first, by omega, nodes[first], List.getElem?_eq_getElem hlen, of_decide_eq_true hsame⟩

lemma duplicates_severity : ∀ f ∈ duplicates seen start nodes, f.diagnostic.severity = .error := by
  induction nodes generalizing seen start with
  | nil => simp [duplicates]
  | cons n nodes ih =>
    unfold duplicates
    split
    · intro f hf
      rcases mem_cons.1 hf with rfl | hf
      · rfl
      · exact ih f hf
    · exact ih

lemma importFaults_severity {deps seen : List Text} :
    ∀ d ∈ g.importFaults name seen deps, d.severity = .error := by
  induction deps generalizing seen with
  | nil => simp [importFaults]
  | cons y deps ih =>
    unfold importFaults
    by_cases hempty : y = []
    · rw [if_pos hempty]
      exact ih
    · by_cases hself : y = name
      · rw [if_neg hempty, if_pos hself]
        exact forall_mem_cons.2 ⟨rfl, ih⟩
      · rw [if_neg hempty, if_neg hself]
        split
        · exact ih
        · exact forall_mem_cons.2 ⟨rfl, ih⟩

lemma faultsOf_severity : ∀ d ∈ g.faultsOf id, d.severity = .error := by
  unfold faultsOf
  cases g.node? id with
  | none => simp
  | some n => exact importFaults_severity

lemma reported_severity (s slots) : ∀ f ∈ g.findings ++ (g.reportCycles s slots).2, f.diagnostic.severity = .error := by
  intro f hf
  rcases mem_append.1 hf with hf | hf
  · rcases mem_append.1 hf with hf | hf
    · exact duplicates_severity f hf
    · obtain ⟨id, -, hf⟩ := mem_flatMap.1 hf
      cases hplace : g.place? id with
      | none => simp [hplace] at hf
      | some place =>
        simp only [hplace, mem_map] at hf
        obtain ⟨d, hd, rfl⟩ := hf
        exact faultsOf_severity d hd
  · obtain ⟨id, -, hf⟩ := mem_filterMap.1 hf
    obtain ⟨place, -, rfl⟩ := map_eq_some_iff.1 hf
    rfl

lemma mem_reported (hlt : ∀ {id place}, g.place? id = some place → id < g.names.length) (s slots) :
    (∃ f ∈ g.findings ++ (g.reportCycles s slots).2, f.place = place) ↔
      (∃ f ∈ duplicates [] 0 g.nodes, f.place = place) ∨
      ∃ id, g.place? id = some place ∧ (g.faultsOf id ≠ [] ∨ id ∈ s.stuck) := by
  simp only [findings, reportCycles, mem_append, or_and_right, exists_or, mem_flatMap, mem_filterMap, ids, mem_range]
  rw [or_assoc]
  refine or_congr_right ?_
  constructor
  · rintro (⟨f, ⟨id, -, hf⟩, rfl⟩ | ⟨f, ⟨id, hid, hf⟩, rfl⟩)
    · cases hplace : g.place? id with
      | none => simp [hplace] at hf
      | some place =>
        simp only [hplace, mem_map] at hf
        obtain ⟨d, hd, rfl⟩ := hf
        exact ⟨id, hplace, .inl (ne_nil_of_mem hd)⟩
    · obtain ⟨place, hplace, rfl⟩ := map_eq_some_iff.1 hf
      exact ⟨id, hplace, .inr hid⟩
  · rintro ⟨id, hplace, hfaults | hid⟩
    · obtain ⟨d, hd⟩ := exists_mem_of_ne_nil _ hfaults
      exact .inl ⟨⟨place, d⟩, ⟨id, hlt hplace, by simpa [hplace] using hd⟩, rfl⟩
    · exact .inr ⟨⟨place, g.cycleFault s id⟩, ⟨id, hid, by simp [hplace]⟩, rfl⟩

lemma slotOf_slots (hid : id < g.names.length) (hn : g.node? id = some n) :
    slotOf g.slots id = ⟨n.broken || !(g.faultsOf id).isEmpty, n.firstError⟩ := by
  simp [slotOf, slots, ids, hid, hn]

lemma size_slots (g : Graph) : g.slots.size = g.names.length := by simp [slots, ids]

lemma broken_foldl_modify {l : List ModuleId} (slots) (hid : id < slots.size) :
    (slotOf (l.foldl (fun slots i => slots.modify i ({ · with broken := true })) slots) id).broken =
      ((slotOf slots id).broken || decide (id ∈ l)) := by
  induction l generalizing slots with
  | nil => simp
  | cons i l ih =>
    rw [foldl_cons, ih _ (by simpa using hid), slotOf, slotOf]
    simp only [Array.getD_eq_getD_getElem?, Array.getElem?_modify]
    by_cases hi : i = id
    · simp [hi, hid]
    · simp [hi, Ne.symm hi]

end Graph

end Findings

namespace Plan

/-- A module is broken exactly if the bag of its file holds something, and the bag of a file that stands
for no module does so anyway. -/
structure Honest (p : Plan) : Prop where
  grave : ∀ j ∈ p.jobs, j.bag.Grave
  lt : ∀ {id place}, p.graph.place? id = some place → id < p.slots.size
  inj : ∀ {id id' place}, p.graph.place? id = some place → p.graph.place? id' = some place → id = id'
  broken : ∀ {id place j}, p.graph.place? id = some place → p.jobs[place]? = some j →
    ((slotOf p.slots id).broken = true ↔ j.bag.items ≠ [])
  other : ∀ {place j}, p.jobs[place]? = some j → (∀ id, p.graph.place? id ≠ some place) → j.bag.items ≠ []

section Bags

variable {p : Plan} {place : Nat} {j : Job}

lemma bag_foldl_report (l : List Finding) (p) (place) : ((l.foldl report p).jobs[place]?).map Job.bag =
      (p.jobs[place]?).map fun j => ((l.filter (·.place = place)).map Finding.diagnostic).foldl Bag.add j.bag := by
  induction l generalizing p with
  | nil => simp
  | cons f l ih =>
    rw [foldl_cons, ih]
    simp only [report, update, getElem?_modify]
    by_cases hf : f.place = place
    · cases p.jobs[place]? <;> simp [hf]
    · cases p.jobs[place]? <;> simp [hf]

lemma bag_update (hf : ∀ j, (f j).bag = j.bag) (p : Plan) (at' : Nat) :
    (p.update at' f).jobs.map Job.bag = p.jobs.map Job.bag := by
  refine ext_getElem? fun i => ?_
  simp only [update, getElem?_map, getElem?_modify]
  split <;> cases p.jobs[i]? <;> simp [hf]

lemma bags_foldl {f : Plan → α → Plan} (hf : ∀ p x, (f p x).jobs.map Job.bag = p.jobs.map Job.bag)
    (l : List α) (p) : (l.foldl f p).jobs.map Job.bag = p.jobs.map Job.bag := by
  induction l generalizing p with
  | nil => rfl
  | cons x l ih => rw [foldl_cons, ih, hf]

lemma Honest.congr {q : Plan} (h : p.Honest) (hgraph : q.graph = p.graph) (hslots : q.slots = p.slots)
    (hbags : q.jobs.map Job.bag = p.jobs.map Job.bag) : q.Honest := by
  have hjob : ∀ {place : Nat} {j : Job}, q.jobs[place]? = some j → ∃ j', p.jobs[place]? = some j' ∧ j'.bag = j.bag := by
    intro place j hj
    have hsame := congrArg (·[place]?) hbags
    simp only [getElem?_map, hj] at hsame
    exact map_eq_some_iff.1 hsame.symm
  refine ⟨fun j hj => ?_, ?_, ?_, ?_, ?_⟩
  · obtain ⟨place, hj⟩ := mem_iff_getElem?.1 hj
    obtain ⟨j', hj', hbag⟩ := hjob hj
    exact hbag ▸ h.grave j' (mem_of_getElem? hj')
  · rw [hgraph, hslots]
    exact h.lt
  · rw [hgraph]
    exact h.inj
  · rw [hgraph, hslots]
    intro id place j hplace hj
    obtain ⟨j', hj', hbag⟩ := hjob hj
    exact hbag ▸ h.broken hplace hj'
  · rw [hgraph]
    intro place j hj hfree
    obtain ⟨j', hj', hbag⟩ := hjob hj
    exact hbag ▸ h.other hj' hfree

lemma Honest.spoil {q : Plan} {id : ModuleId} {d : Diagnostic} (h : p.Honest) (hd : d.severity = .error)
    (hplace : p.graph.place? id = some place) (hgraph : q.graph = p.graph) (hslots : q.slots = p.slots.modify id f)
    (hf : ∀ s, (f s).broken = true)
    (hbags : q.jobs.map Job.bag = (p.jobs.map Job.bag).modify place (·.add d)) : q.Honest := by
  have hjob : ∀ {at' : Nat} {j : Job}, q.jobs[at']? = some j → ∃ j', p.jobs[at']? = some j' ∧
      j.bag = if place = at' then j'.bag.add d else j'.bag := by
    intro at' j hj
    have hsame := congrArg (·[at']?) hbags
    simp only [getElem?_map, hj, getElem?_modify] at hsame
    obtain ⟨b, hb, hbag⟩ := map_eq_some_iff.1 hsame.symm
    obtain ⟨j', hj', rfl⟩ := map_eq_some_iff.1 hb
    refine ⟨j', hj', ?_⟩
    by_cases heq : place = at' <;> simpa using hbag.symm
  have hlt := h.lt hplace
  refine ⟨fun j hj => ?_, fun hat => ?_, ?_, fun {id' at' j} hat hj => ?_, fun {at' j} hj hfree => ?_⟩
  · obtain ⟨at', hj⟩ := mem_iff_getElem?.1 hj
    obtain ⟨j', hj', hbag⟩ := hjob hj
    rw [hbag]
    split
    · exact (h.grave j' (mem_of_getElem? hj')).add hd
    · exact h.grave j' (mem_of_getElem? hj')
  · rw [hslots, Array.size_modify]
    exact h.lt (hgraph ▸ hat)
  · rw [hgraph]
    exact h.inj
  · rw [hgraph] at hat
    obtain ⟨j', hj', hbag⟩ := hjob hj
    rw [hslots, slotOf_modify hlt, hbag]
    by_cases heq : place = at'
    · cases heq
      cases h.inj hplace hat
      simp [hf, Bag.add_items_ne]
    · have hne : id' ≠ id := fun hid => heq (some.inj (hplace.symm.trans (hid ▸ hat)))
      rw [if_neg hne, if_neg heq]
      exact h.broken hat hj'
  · rw [hgraph] at hfree
    obtain ⟨j', hj', hbag⟩ := hjob hj
    rw [hbag, if_neg fun heq : place = at' => hfree id (heq ▸ hplace)]
    exact h.other hj' hfree

lemma bags_report (p : Plan) (f) :
    (p.report f).jobs.map Job.bag = (p.jobs.map Job.bag).modify f.place (·.add f.diagnostic) := by
  refine ext_getElem? fun i => ?_
  simp only [report, update, getElem?_map, getElem?_modify]
  by_cases hi : f.place = i <;> cases p.jobs[i]? <;> simp [hi]

end Bags

section Turns

variable {σ : Type} {t : Tools σ} {p : Plan} {id : ModuleId} {place : Nat} {j : Job} {w : World σ}

lemma construct_honest (h : p.Honest) (hplace : p.graph.place? id = some place) :
    Obeys w (construct t p id place j) (fun p' _ => p'.Honest) fun _ _ => True := by
  refine .bind .any fun _ w1 _ => .bind .any fun r w2 _ => ?_
  cases r with
  | ok m =>
    refine .bind .any fun _ w3 _ => .pure (h.congr rfl rfl ?_)
    exact bag_update (by exact fun _ => rfl) p place
  | error f =>
    by_cases hc : f.isCancelled
    · simp only [hc]
      exact trivial
    · simp only [hc]
      refine .bind .any fun _ w3 _ => .pure ?_
      refine h.spoil (f := fun _ => ⟨true, _⟩) (Diagnostic.severity_ofFault j.name f) hplace rfl rfl (fun _ => rfl) ?_
      refine ext_getElem? fun i => ?_
      simp only [fail, update, getElem?_map, getElem?_modify]
      by_cases hi : place = i <;> cases p.jobs[i]? <;> simp [hi]

lemma step_honest (h : p.Honest) : Obeys w (step t p id) (fun p' _ => p'.Honest) fun _ _ => True := by
  refine .bind .any fun _ w1 _ => ?_
  cases hplace : p.graph.place? id with
  | none => exact .pure h
  | some place =>
    have hskip : ∀ {q : Plan}, q.Honest → (q.update place fun j => { j with broken := true }).Honest := fun {q} hq =>
      hq.congr rfl rfl (bag_update (by exact fun _ => rfl) q place)
    by_cases hb : (slotOf p.slots id).broken
    · dsimp only
      rw [Graph.propagate, if_pos hb]
      dsimp only
      rw [if_pos hb]
      exact .bind .any fun _ w2 _ => .pure (hskip h)
    · cases hdep : p.graph.brokenDep? p.slots id with
      | none =>
        dsimp only
        rw [Graph.propagate, if_neg hb, hdep]
        dsimp only
        rw [if_neg hb]
        exact construct_honest h hplace
      | some dep =>
        have hhonest : ({ p with slots := p.graph.breakFor p.slots id dep }.report
            ⟨place, p.graph.dependencyFault p.slots id dep⟩).Honest := by
          refine h.spoil (f := fun s => ⟨true, some (s.firstError.getD _)⟩) ?_
            hplace rfl rfl (fun _ => rfl) (bags_report _ _)
          unfold Graph.dependencyFault
          cases (slotOf p.slots dep).firstError <;> rfl
        have hbroken : (slotOf (p.graph.breakFor p.slots id dep) id).broken := by
          rw [Graph.breakFor, slotOf_modify (h.lt hplace), if_pos rfl]
        rw [Graph.propagate, if_neg hb, hdep]
        dsimp only
        rw [if_pos hbroken]
        exact .bind .any fun _ w2 _ => .pure (hskip hhonest)

lemma run_honest (h : p.Honest) : Obeys w (p.run t) (fun p' _ => p'.Honest) fun _ _ => True := by
  have hturns : ∀ (l : List ModuleId) p w, p.Honest →
      Obeys w (l.foldlM (step t) p) (fun p' _ => p'.Honest) fun _ _ => True := by
    intro l
    induction l with
    | nil => exact fun p w h => .pure h
    | cons id l ih => exact fun p w h => .bind (step_honest h) fun p' w' h' => ih p' w' h'
  exact hturns _ p w h

end Turns

section Start

variable {s : Sources} {place : Nat} {j : Job} {id : ModuleId}

lemma bag_plan (s : Sources) (place : Nat) : let g := Graph.ofNodes s.nodes
    (s.plan.jobs[place]?).map Job.bag = (s.decoded[place]?).map fun d =>
      (((g.findings ++ (g.reportCycles g.schedule g.slots).2).filter (·.place = place)).map Finding.diagnostic).foldl
        Bag.add (d.job s.known).1.bag := by
  rw [← getElem?_map]
  unfold Sources.plan ofDecoded
  simp only [map_map]
  rw [bags_foldl fun p id => ?_, getElem?_map, bag_foldl_report]
  · simp only [getElem?_map, Option.map_map]
    rfl
  · split
    · exact bag_update (by exact fun _ => rfl) p _
    · rfl

lemma items_plan (h : ∀ d ∈ s.decoded, d.Genuine) (hd : s.decoded[place]? = some d)
    (hj : s.plan.jobs[place]? = some j) : let g := Graph.ofNodes s.nodes
    j.bag.Grave ∧ (j.bag.items ≠ [] ↔ (d.job s.known).2.broken = true ∨
      (∃ f ∈ Graph.duplicates [] 0 s.nodes, f.place = place) ∨
      ∃ id, g.place? id = some place ∧ (g.faultsOf id ≠ [] ∨ id ∈ g.schedule.stuck)) := by
  intro g
  have hgenuine := h d (mem_of_getElem? hd)
  have hbag := bag_plan s place
  dsimp only at hbag
  rw [hj, hd, map_some, map_some, some.injEq] at hbag
  rw [hbag]
  refine ⟨(job_grave hgenuine).foldl_add fun e he => ?_, ?_⟩
  · obtain ⟨f, hf, rfl⟩ := mem_map.1 he
    exact Graph.reported_severity _ _ f (mem_filter.1 hf).1
  · have hreported : (∃ f ∈ g.findings ++ (g.reportCycles g.schedule g.slots).2, f.place = place) ↔ _ :=
      Graph.mem_reported (fun hplace => (Graph.place?_spec hplace).1) g.schedule g.slots
    refine Iff.trans ?_ (or_congr (job_items hgenuine) hreported)
    rw [ne_eq, Bag.foldl_add_items, not_and_or, map_eq_nil_iff, filter_eq_nil_iff]
    simp [g]

lemma exists_decoded (hj : s.plan.jobs[place]? = some j) : ∃ d, s.decoded[place]? = some d := by
  have hcore := s.core place
  rw [hj] at hcore
  obtain ⟨d, hd, -⟩ := map_eq_some_iff.1 hcore.symm
  exact ⟨d, hd⟩

lemma broken_iff_items (h : ∀ d ∈ s.decoded, d.Genuine) (hplace : s.plan.graph.place? id = some place)
    (hj : s.plan.jobs[place]? = some j) : (slotOf s.plan.slots id).broken = true ↔ j.bag.items ≠ [] := by
  have hl := s.laid
  obtain ⟨d, hd⟩ := exists_decoded hj
  have hgraph : s.plan.graph = Graph.ofNodes s.nodes :=
    s.graph_eq
  have hplace' := hplace
  rw [hgraph] at hplace'
  obtain ⟨hid, hfirst⟩ := Graph.place?_spec hplace'
  have hnode : (Graph.ofNodes s.nodes).node? id =
      some (d.job s.known).2 := by
    rw [Graph.node?, hplace']
    simp [Graph.ofNodes, Sources.nodes, hd]
  have hsize : id < (Graph.ofNodes s.nodes).slots.size := by
    rw [Graph.size_slots]
    exact hid
  rw [(items_plan h hd hj).2, s.alike.slots]
  -- The module is broken by its node, by its imports or by a cycle, and a first file is no duplicate.
  rw [Graph.reportCycles, Graph.broken_foldl_modify _ hsize, Graph.slotOf_slots hid hnode,
    or_iff_right (Graph.not_duplicate hfirst)]
  simp only [Bool.or_eq_true, Bool.not_eq_true', isEmpty_eq_false_iff, decide_eq_true_eq, or_assoc]
  refine or_congr_right ⟨fun hx => ⟨id, hplace', hx⟩, ?_⟩
  rintro ⟨id', hother, hx⟩
  rw [← hgraph] at hother
  cases hl.place_inj hplace hother
  exact hx

lemma items_of_free (h : ∀ d ∈ s.decoded, d.Genuine) (hj : s.plan.jobs[place]? = some j)
    (hfree : ∀ id, s.plan.graph.place? id ≠ some place) : j.bag.items ≠ [] := by
  obtain ⟨d, hd⟩ := exists_decoded hj
  rw [(items_plan h hd hj).2]
  cases hm : d.module with
  | none =>
    refine .inl ?_
    simp [Decoded.job, hm]
  | some m =>
    have hname : d.name ≠ [] := by
      simpa [Decoded.name, hm] using ((h d (mem_of_getElem? hd)).sound m hm).1
    have hthere : Declared s.nodes d.name :=
      ⟨hname, _, mem_map.2 ⟨d, mem_of_getElem? hd, rfl⟩, node_name⟩
    have hmem := Graph.Declared.mem_namesOf hthere
    have hlater := hfree ((Graph.namesOf s.nodes).idxOf d.name)
    rw [s.graph_eq, Graph.place?_ofNodes (idxOf_lt_length_iff.2 hmem), Graph.nameOf_idxOf hmem] at hlater
    refine .inr (.inl (Graph.duplicate_of_later (n := (d.job s.known).2) ?_ ?_ ?_))
    · simp [Sources.nodes, hd]
    · rwa [node_name]
    · rwa [node_name]

lemma honest_plan (h : ∀ d ∈ s.decoded, d.Genuine) : s.plan.Honest := by
  have hl := s.laid
  refine ⟨fun j hj => ?_, fun {id place} hplace => ?_, hl.place_inj, broken_iff_items h, items_of_free h⟩
  · obtain ⟨place, hj⟩ := mem_iff_getElem?.1 hj
    obtain ⟨d, hd⟩ := exists_decoded hj
    exact (items_plan h hd hj).1
  · rw [hl.size, s.graph_eq]
    rw [s.graph_eq] at hplace
    exact (Graph.place?_spec hplace).1

end Start

section End

variable {s : Sources} {p : Plan} {log : List Attempt} {place : Nat}
  {j : Job}

lemma hasErrors_outcome (p : Plan) (files) :
    (p.outcome files).hasErrors = false ↔ ∀ j ∈ p.jobs, j.bag.hasErrors = false := by
  have hmem : ∀ j, j ∈ p.places.filterMap (p.jobs[·]?) ++
      ((range p.jobs.length).filter (· ∉ p.places)).filterMap (p.jobs[·]?) ↔ j ∈ p.jobs := by
    intro j
    rw [mem_append, mem_filterMap, mem_filterMap, mem_iff_getElem?]
    constructor
    · rintro (⟨place, -, hj⟩ | ⟨place, -, hj⟩) <;> exact ⟨place, hj⟩
    · rintro ⟨place, hj⟩
      by_cases hplace : place ∈ p.places
      · exact .inl ⟨place, hplace, hj⟩
      · have hlt := (List.getElem?_eq_some_iff.1 hj).1
        exact .inr ⟨place, mem_filter.2 ⟨mem_range.2 hlt, by simpa using hplace⟩, hj⟩
  unfold Outcome.hasErrors outcome
  rw [Bag.hasErrors_dedup, Bag.hasErrors_foldl_merge, Bool.or_eq_false_iff, any_eq_false]
  refine (and_iff_right rfl).trans ?_
  simp only [mem_map, forall_exists_index, and_imp, forall_apply_eq_imp_iff₂, hmem, Bool.not_eq_true]

lemma Honest.built_iff (h : p.Honest) (hr : Reached s.plan s.plan.schedule.order p log)
    (hj : p.jobs[place]? = some j) : j.built.isSome ↔ j.bag.items = [] := by
  have hl := s.laid
  by_cases hplace : ∃ id, p.graph.place? id = some place
  · obtain ⟨id, hplace⟩ := hplace
    have hbuilt : p.IsBuilt id ↔ j.built.isSome := by
      constructor
      · rintro ⟨place', j', hplace', hj', hb⟩
        cases hplace.symm.trans hplace'
        cases hj.symm.trans hj'
        exact hb
      · exact fun hb => ⟨place, j, hplace, hj, hb⟩
    rw [← hbuilt, ← not_iff_not, ← ne_eq, ← h.broken hplace hj]
    by_cases hid : id ∈ s.plan.schedule.order
    · rw [← hr.broken id hid, Bool.not_eq_false]
    · -- what has no turn waits for a cycle, and that broke it before the run
      have hpresent : s.plan.graph.isPresent id := by
        rw [Graph.isPresent, ← hr.graph, hplace]
        rfl
      have hstuck : id ∈ s.plan.graph.schedule.stuck := by
        have hall := (Graph.mem_order_append_stuck hl.sound).2 hpresent
        rw [hl.schedule] at hid
        exact (mem_append.1 hall).resolve_left hid
      refine iff_of_true (fun hb => hid (hr.built_done id hb)) ?_
      rw [hr.waiting id hid, s.alike.slots]
      rw [s.graph_eq] at hstuck hpresent
      have hlt := (Graph.sound_ofNodes s.nodes).lt id hpresent
      rw [Graph.reportCycles, Graph.broken_foldl_modify]
      · simpa using .inr hstuck
      · rw [Graph.size_slots]
        exact hlt
  · refine iff_of_false (fun hb => hplace (hr.placed place j hj hb)) (h.other hj ?_)
    exact fun id hid => hplace ⟨id, hid⟩

section

variable (hr : Reached s.plan done p log)

include hr

lemma Reached.mem_modules_of_built (files)
    (hj : p.jobs[place]? = some j) (hb : j.built.isSome) : j ∈ (p.outcome files).modules := by
  obtain ⟨id, hplace⟩ := hr.placed place j hj hb
  have hfirst := hr.isFirst (hr.graph ▸ hplace)
  exact mem_filterMap.2 ⟨place, hr.mem_places.2 hfirst, hj⟩

lemma Reached.paths : p.jobs.map Job.path = s.decoded.map Decoded.path := by
  have hbare := congrArg (map Job.path) hr.bare
  have hcores := congrArg (map Job.path) s.alike.cores
  simp only [map_map] at hbare hcores
  refine hbare.trans (hcores.trans (map_congr_left fun d _ => ?_))
  change (d.job _).1.path = d.path
  unfold Decoded.job
  cases d.module <;> rfl

lemma Reached.all_built_iff (hfiles : p.jobs.map Job.path = files) (hnodup : files.Nodup) :
    (∀ j ∈ p.jobs, j ∈ (p.outcome files).modules ∧ j.built.isSome) ↔
      ∀ f ∈ files, ∃ j ∈ (p.outcome files).modules, j.path = f ∧ j.built.isSome := by
  constructor
  · intro hall f hf
    rw [← hfiles] at hf
    obtain ⟨j, hj, rfl⟩ := mem_map.1 hf
    exact ⟨j, (hall j hj).1, rfl, (hall j hj).2⟩
  · intro hall j hj
    obtain ⟨j', hj', hpath, hb⟩ := hall j.path (hfiles ▸ mem_map_of_mem hj)
    obtain ⟨place, hjob, -⟩ := (hr.mem_modules files).1 hj'
    have heq : j' = j := inj_on_of_nodup_map (hfiles ▸ hnodup) (mem_of_getElem? hjob) hj hpath
    exact heq ▸ ⟨hj', hb⟩

end

lemma Honest.hasErrors_iff (h : p.Honest) (hr : Reached s.plan s.plan.schedule.order p log) (files) :
    (p.outcome files).hasErrors = false ↔ ∀ j ∈ p.jobs, j ∈ (p.outcome files).modules ∧ j.built.isSome := by
  rw [hasErrors_outcome]
  refine forall₂_congr fun j hj => ?_
  rw [(h.grave j hj).hasErrors]
  obtain ⟨place, hj⟩ := mem_iff_getElem?.1 hj
  rw [← h.built_iff hr hj]
  exact ⟨fun hb => ⟨hr.mem_modules_of_built files hj hb, hb⟩, fun hb => hb.2⟩

end End

end Plan

section Decoding

variable {σ : Type} {before : World σ}

lemma name_of_decode (h : Tree.decode t = .ok m) : m.name ≠ [] := by
  unfold Tree.decode at h
  split at h
  · cases h
  · split at h
    · cases h
    · split at h
      · cases h
      · next m' _ =>
        cases hcheck : m'.check with
        | error f =>
          rw [hcheck] at h
          cases h
        | ok u =>
          rw [hcheck] at h
          cases h
          intro hname
          simp [Tree.Module.check, hname] at hcheck

lemma name_of_openModule (h : Tree.openModule files path = .ok m) : m.name ≠ [] := by
  unfold Tree.openModule at h
  split at h
  · cases h
  · dsimp only at h
    split at h
    · cases h
    · next hdecode =>
      have hname := name_of_decode hdecode
      cases h
      exact hname

lemma decodeFile_genuine (w) (limit) (path) :
    Obeys before (decodeFile w limit path) (fun d _ => d.path = path ∧ d.Genuine) fun _ _ => True := by
  refine .bind .any fun _ w1 _ => .bind .any fun _ w2 _ => ?_
  refine .bind .any fun s w3 _ => ?_
  cases hm : Tree.openModule s.files path with
  | ok m =>
    refine .bind .any fun _ w4 _ => .pure ⟨rfl, ⟨by simp [Bag.Grave], by simp, ?_⟩⟩
    rintro _ ⟨⟩
    exact ⟨name_of_openModule hm, rfl⟩
  | error f =>
    refine .bind .any fun _ w4 _ => .pure ⟨rfl, ⟨?_, fun _ => Bag.add_items_ne _ _, nofun⟩⟩
    exact Bag.Grave.add nofun (Diagnostic.severity_ofFault _ f)

lemma decodeFiles_genuine (w limit files) : Obeys before (decodeFiles w limit files)
      (fun decoded _ => decoded.map Decoded.path = files ∧ ∀ d ∈ decoded, d.Genuine) fun _ _ => True := by
  unfold decodeFiles
  induction files generalizing before with
  | nil => exact .pure ⟨rfl, by simp⟩
  | cons path files ih =>
    rw [mapM_cons]
    refine .bind (decodeFile_genuine w limit path) fun d w1 hd => .bind ih fun rest w2 hrest => .pure ?_
    exact ⟨by rw [map_cons, hd.1, hrest.1], forall_mem_cons.2 ⟨hd.2, hrest.2⟩⟩

end Decoding

/-- A build of files has no errors exactly if every file was built: the outcome lists the module that
this very file declares, and it was loaded and verified. Neither the limits of the bags nor dropping
repeated findings nor files that declare the same module hide the last error. The plan has one job for
each file of the list, so a file that is listed twice counts as two; where no file is, one listed module
for each path is enough. -/
theorem buildFiles_hasErrors_iff {σ : Type} (w : Watch σ) (o : Options) (parent : Nat) (files : List Text) (before : World σ) :
    Obeys before (buildFiles w o parent files) (fun outcome after =>
      outcome.files = files.map (Path.absolute before.files.cwd) ∧
      (∃ p : Passes w o files before after,
        outcome = p.plan.outcome outcome.files ∧ p.plan.jobs.map Job.path = outcome.files ∧
        p.plan.jobs.map Job.name = p.sources.decoded.map Decoded.name ∧
        (outcome.hasErrors = false ↔ ∀ j ∈ p.plan.jobs, j ∈ outcome.modules ∧ j.built.isSome)) ∧
      (outcome.files.Nodup → (outcome.hasErrors = false ↔
        ∀ f ∈ outcome.files, ∃ j ∈ outcome.modules, j.path = f ∧ j.built.isSome))) fun _ _ => True := by
  refine (buildFiles_passes w o parent files).mono ?_
  rintro outcome after ⟨p, rfl⟩
  obtain ⟨hpaths, hgenuine⟩ := (decodeFiles_genuine w o.limit _).of_ok p.decodes
  have hhonest := (Plan.run_honest (Plan.honest_plan hgenuine)).of_ok p.builds
  obtain ⟨_, -, hrun, -⟩ := exists_watched p.builds
  have hr := (Plan.run_recorded p.sources.laid rfl).of_ok hrun
  have herrors := hhonest.hasErrors_iff hr (files.map (Path.absolute before.files.cwd))
  have hfiles := hr.paths.trans hpaths
  exact ⟨rfl, ⟨p, rfl, hfiles, hr.names, herrors⟩, fun hnodup => herrors.trans (hr.all_built_iff hfiles hnodup)⟩

end Arbor.Project
