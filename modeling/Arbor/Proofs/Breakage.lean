import Arbor.Proofs.Planning

/-! Broken modules. What is stuck waits for a cycle, and one cycle is shown. Going through the other modules in
order, each after what it imports, marks exactly those from which imports lead to something broken. -/

namespace Arbor.Project

open Relation

variable {nodes : List Node} {x : Text} {id dep : ModuleId}

namespace Graph

variable {g : Graph} {slots : Slots}

/-! ### Cycles -/

lemma cycleFault_participates : (∃ text, (g.cycleFault s id).message =
    "module " ++ (g.nameOf id).quoted ++ " participates" ++ text) ↔ id ∈ s.cycle := by
  simp only [cycleFault, Diag.Diagnostic.error, List.append_assoc, List.append_cancel_left_eq]
  constructor
  · rintro ⟨text, h⟩
    by_contra hid
    rw [if_neg hid] at h
    have hstart := congrArg (List.take 2) h
    rw [List.take_append_of_le_length (by decide +kernel), List.take_append_of_le_length (by decide +kernel)] at hstart
    exact absurd hstart (by decide +kernel)
  · intro hid
    have hsplit : Text.ofString " participates in an import cycle: " =
      Text.ofString " participates" ++ Text.ofString " in an import cycle: " := by decide +kernel
    rw [if_pos hid, hsplit, List.append_assoc]
    exact ⟨_, rfl⟩

lemma forall₂_filterMap {R : α → β → Prop} {f : α → Option β} {l : List α}
    (h : ∀ a ∈ l, ∃ b, f a = some b ∧ R a b) : List.Forall₂ R l (l.filterMap f) := by
  induction l with
  | nil => exact .nil
  | cons a l ih =>
    obtain ⟨b, hb, hr⟩ := h a (by simp)
    rw [List.filterMap_cons_some hb]
    exact .cons hr (ih fun c hc => h c (by simp [hc]))

theorem cycle_reported (nodes : List Node) : let g := ofNodes nodes
    let s := g.schedule
    let r := g.reportCycles s g.slots
    (s.stuck = [] ∧ s.cycle = [] ∨
      ∃ first rest on mid, s.stuck = first :: rest ∧ s.cycle = on :: mid ++ [on] ∧ (on :: mid).Nodup ∧
        (∀ id ∈ on :: mid, id ∈ s.stuck) ∧ (s.cycle.map g.nameOf).IsChain (Needs nodes) ∧
        ∀ steps > s.stuck.length, g.walk s.stuck steps [] first = s.cycle) ∧
    (∀ id, slotOf r.1 id =
      { slotOf g.slots id with broken := (slotOf g.slots id).broken || decide (id ∈ s.stuck) }) ∧
    s.stuck.Nodup ∧ List.Forall₂ (fun id f => nodes.findIdx? (fun n => n.name = g.nameOf id) = some f.place ∧
      f.diagnostic.severity = .error ∧ f.diagnostic.code = .importCycle ∧ f.diagnostic.module = g.nameOf id ∧
      ((∃ text, f.diagnostic.message = "module " ++ (g.nameOf id).quoted ++ " participates" ++ text) ↔ id ∈ s.cycle))
      s.stuck r.2 := by
  intro g s r
  have hg : g.Sound := sound_ofNodes nodes
  refine ⟨?_, slotOf_reportCycles (stuck_lt hg), (List.nodup_append'.1 (order_append_stuck_nodup hg)).2.1, ?_⟩
  · have hcycle : s.cycle = g.cycleIn s.stuck := rfl
    cases hstuck : s.stuck with
    | nil => exact .inl ⟨rfl, by rw [hcycle, hstuck]; rfl⟩
    | cons first rest =>
      have hfirst : first ∈ s.stuck := by simp [hstuck]
      obtain ⟨before, on, mid, hwalk, hnodup, hmem, hway, -⟩ := schedule_walk hg hfirst
      have hclosed : s.cycle = on :: mid ++ [on] := by
        rw [hcycle, hstuck, cycleIn, ← hstuck]
        exact hwalk 0
      refine .inr ⟨first, rest, on, mid, rfl, hclosed, hnodup.of_append_right, fun id hid => ?_, ?_, fun steps hsteps => ?_⟩
      · rw [← hstuck]
        exact hmem id (List.mem_append_right _ hid)
      · rw [hclosed, List.isChain_map]
        exact (List.append_assoc .. ▸ hway).right_of_append.imp fun _ _ => needs_of_imports
      · obtain ⟨more, rfl⟩ := Nat.exists_eq_add_of_lt hsteps
        rw [← hstuck, hclosed, Nat.add_right_comm]
        exact hwalk more
  · refine forall₂_filterMap fun id hid => ?_
    obtain ⟨place, hplace⟩ := Option.isSome_iff_exists.1 ((mem_stuck hg).1 hid).1
    rw [hplace]
    refine ⟨_, rfl, ?_, rfl, rfl, rfl, cycleFault_participates⟩
    rw [← place?_ofNodes (hg.lt id ((mem_stuck hg).1 hid).1), hplace]

/-! ### Modules that import broken ones -/

lemma propagate_turn (hid : id < slots.size) : ∃ slots', slots'.size = slots.size ∧
    (∀ i, i ≠ id → slotOf slots' i = slotOf slots i) ∧
    ((slotOf slots' id).broken ↔ (slotOf slots id).broken ∨ (g.brokenDep? slots id).isSome) ∧
    g.propagate slots id = (slots', if (slotOf slots id).broken then none else
      (g.brokenDep? slots id).map (g.dependencyFault slots id)) := by
  unfold propagate
  by_cases hb : (slotOf slots id).broken
  · exact ⟨slots, rfl, fun _ _ => rfl, by simp [hb], by simp [hb]⟩
  · cases hdep : g.brokenDep? slots id with
    | none => exact ⟨slots, rfl, fun _ _ => rfl, by simp, by simp⟩
    | some dep =>
      refine ⟨g.breakFor slots id dep, by simp [breakFor], fun i hi => ?_, ?_, by simp [hb]⟩
      · rw [breakFor, slotOf_modify hid, if_neg hi]
      · rw [breakFor, slotOf_modify hid]
        simp

lemma reportBrokenDeps_pass (l slots) (hlt : ∀ id ∈ l, id < slots.size)
    (hplace : ∀ id ∈ l, g.isPresent id)
    (hlater : ∀ before id after, l = before ++ id :: after → id ∉ after ∧ ∀ dep, g.Imports id dep → dep ∉ id :: after) :
    let r := g.reportBrokenDeps l slots
    (∀ id ∉ l, slotOf r.1 id = slotOf slots id) ∧
    (∀ id ∈ l, (slotOf r.1 id).broken ↔
      (slotOf slots id).broken ∨ ∃ dep, g.Imports id dep ∧ (slotOf r.1 dep).broken) ∧
    List.Forall₂ (fun id f => g.place? id = some f.place ∧ ∃ dep, g.brokenDep? r.1 id = some dep ∧
        f.diagnostic = g.dependencyFault r.1 id dep)
      (l.filter fun id => !(slotOf slots id).broken && (slotOf r.1 id).broken) r.2 := by
  induction l generalizing slots with
  | nil => exact ⟨fun _ _ => rfl, by simp, .nil⟩
  | cons id l ih =>
    obtain ⟨hself, hdeps⟩ := hlater [] id l rfl
    obtain ⟨slots', hsize, hother, hbroken, hturn⟩ := propagate_turn (hlt id (by simp))
    obtain ⟨hout, hin, hfound⟩ := ih slots' (fun i hi => hsize ▸ hlt i (by simp [hi])) (fun i hi => hplace i (by simp [hi]))
      fun before i after h => hlater (id :: before) i after (by rw [h]; rfl)
    obtain ⟨place, hat⟩ := Option.isSome_iff_exists.1 (hplace id (by simp))
    generalize hq : g.reportBrokenDeps l slots' = q at hout hin hfound
    generalize hnew : (if (slotOf slots id).broken then none else
      (g.brokenDep? slots id).map (g.dependencyFault slots id)) = new at hturn
    have hr : g.reportBrokenDeps (id :: l) slots = (q.1, (new.map (Finding.mk place)).toList ++ q.2) := by
      rw [reportBrokenDeps, hturn]
      dsimp only
      rw [hq, hat]
      cases new <;> rfl
    -- What this module imports has had its turn, so its slots are those of the end already.
    have hold : ∀ dep, g.Imports id dep → slotOf q.1 dep = slotOf slots dep := fun dep hdep => by
      have hdep := hdeps dep hdep
      rw [List.mem_cons, not_or] at hdep
      rw [hout dep hdep.2, hother dep hdep.1]
    have hnow : g.brokenDep? q.1 id = g.brokenDep? slots id := List.find?_congr fun dep hdep => by rw [hold dep hdep]
    have hslot : slotOf q.1 id = slotOf slots' id := hout id hself
    have hfilter : (l.filter fun i => !(slotOf slots i).broken && (slotOf q.1 i).broken) =
        l.filter fun i => !(slotOf slots' i).broken && (slotOf q.1 i).broken :=
      List.filter_congr fun i hi => by rw [hother i fun h => hself (h ▸ hi)]
    rw [hr]
    refine ⟨fun i hi => ?_, fun i hi => ?_, ?_⟩
    · rw [List.mem_cons, not_or] at hi
      rw [hout i hi.2, hother i hi.1]
    · by_cases h : i = id
      · subst h
        rw [hslot, hbroken, ← hnow]
        simp [brokenDep?, Imports]
      · rw [hin i (List.mem_of_ne_of_mem h hi), hother i h]
    · rw [List.filter_cons, hslot, hfilter, ← hnew]
      by_cases hb : (slotOf slots id).broken
      · simpa [hb] using hfound
      · cases hdep : g.brokenDep? slots id with
        | none =>
          have hwhole : (slotOf slots' id).broken = false := by simpa [hb, hdep] using hbroken
          simpa [hwhole] using hfound
        | some dep =>
          have himports : g.Imports id dep := List.mem_of_find?_eq_some hdep
          simp only [hb, hbroken.2 (.inr (by simp [hdep])), Bool.not_false, Bool.and_true, if_true, Bool.false_eq_true,
            if_false, Option.map_some, Option.toList_some, List.singleton_append]
          refine .cons ⟨hat, dep, hnow.trans hdep, ?_⟩ hfound
          simp only [dependencyFault, hold dep himports]

lemma order_pass (hg : g.Sound) (h : g.schedule.order = before ++ id :: after) :
    id ∉ after ∧ ∀ dep, g.Imports id dep → dep ∉ id :: after := by
  have hnodup := (List.nodup_append'.1 (order_append_stuck_nodup hg)).1
  rw [h, List.nodup_append'] at hnodup
  exact ⟨(List.nodup_cons.1 hnodup.2.1).1, fun dep hdep hlate => hnodup.2.2 (order_before hg h hdep) hlate⟩

lemma broken_iff_leads (hg : g.Sound) (hsize : ∀ i, g.isPresent i → i < slots.size)
    (hstuck : ∀ i ∈ g.schedule.stuck, (slotOf slots i).broken) (hid : g.isPresent id) :
    (slotOf (g.reportBrokenDeps g.schedule.order slots).1 id).broken ↔
      ∃ on, ReflTransGen g.Imports id on ∧ (slotOf slots on).broken := by
  have hpresent : ∀ i ∈ g.schedule.order, g.isPresent i := fun i hi => ((mem_order hg).1 hi).1
  obtain ⟨hout, hin, -⟩ := reportBrokenDeps_pass g.schedule.order slots (fun i hi => hsize i (hpresent i hi)) hpresent
    fun _ _ _ => order_pass hg
  by_cases horder : id ∈ g.schedule.order
  · obtain ⟨n, hn⟩ := ((mem_order hg).1 horder).2
    -- By induction on a bound for the chains of imports, which every ordered module has.
    induction n generalizing id with
    | zero => exact absurd trivial hn
    | succ n ih =>
      have hdeps : ∀ dep, g.Imports id dep → ((slotOf (g.reportBrokenDeps g.schedule.order slots).1 dep).broken ↔
          ∃ on, ReflTransGen g.Imports dep on ∧ (slotOf slots on).broken) := fun dep hdep => by
        have hshort : ¬ChainFrom g.Imports n dep := fun h => hn ⟨dep, hdep, h⟩
        exact ih hdep.present ((mem_order hg).2 ⟨hdep.present, n, hshort⟩) hshort
      rw [hin id horder]
      constructor
      · rintro (hb | ⟨dep, hdep, hb⟩)
        · exact ⟨id, .refl, hb⟩
        · obtain ⟨on, hpath, hon⟩ := (hdeps dep hdep).1 hb
          exact ⟨on, .head hdep hpath, hon⟩
      · rintro ⟨on, hpath, hon⟩
        rcases hpath.cases_head with rfl | ⟨dep, hdep, hpath⟩
        · exact .inl hon
        · exact .inr ⟨dep, hdep, (hdeps dep hdep).2 ⟨on, hpath, hon⟩⟩
  · have hwaits := (List.mem_append.1 ((mem_order_append_stuck hg).2 hid)).resolve_left horder
    rw [hout id horder]
    exact iff_of_true (hstuck id hwaits) ⟨id, .refl, hstuck id hwaits⟩

lemma presentDeps_sorted (nodes id) : ((ofNodes nodes).presentDeps id).Pairwise (· ≤ ·) := by
  rw [presentDeps, deps_ofNodes]
  refine List.Pairwise.filter _ ?_
  cases (ofNodes nodes).node? id with
  | none => exact .nil
  | some n => exact (List.sortedLE_mergeSort (α := Nat)).pairwise

lemma brokenDep?_isLeast (h : (ofNodes nodes).brokenDep? slots id = some dep) :
    IsLeast { dep | (ofNodes nodes).Imports id dep ∧ (slotOf slots dep).broken } dep := by
  obtain ⟨hb, before, after, hsplit, hbefore⟩ := List.find?_eq_some_iff_append.1 h
  refine ⟨⟨List.mem_of_find?_eq_some h, hb⟩, ?_⟩
  rintro other ⟨himports, hother⟩
  have hsorted := presentDeps_sorted nodes id
  rw [Imports, hsplit] at himports
  rw [hsplit, List.pairwise_append, List.pairwise_cons] at hsorted
  rcases List.mem_append.1 himports with hin | hin
  · exact absurd hother (by simpa using hbefore other hin)
  · rcases List.mem_cons.1 hin with rfl | hin
    · exact le_rfl
    · exact hsorted.2.1.1 other hin

end Graph

/-- What is wrong with a module itself: it was given as broken, imports itself or a module that is not there, or
lies on a cycle. -/
def Faulty (nodes : List Node) (x : Text) : Prop :=
  ∃ n, nodes.find? (fun n => n.name = x) = some n ∧ (n.broken ∨ x ∈ n.imports ∨
    (∃ y ∈ n.imports, y ≠ [] ∧ ¬Declared nodes y) ∨ TransGen (Needs nodes) x x)

namespace Graph

lemma faulty_nameOf (hid : (ofNodes nodes).isPresent id) : Faulty nodes ((ofNodes nodes).nameOf id) ↔
    (slotOf (ofNodes nodes).slots id).broken ∨ TransGen (ofNodes nodes).Imports id id := by
  obtain ⟨hlt, hdeclared⟩ := isPresent_iff.1 hid
  obtain ⟨n, hn⟩ := Option.isSome_iff_exists.1 ((declared_iff_find? hdeclared.1).1 hdeclared)
  have hname : n.name = (ofNodes nodes).nameOf id := by simpa using List.find?_some hn
  have hbroken : (slotOf (ofNodes nodes).slots id).broken ↔
      n.broken ∨ ∃ y ∈ n.imports, y ≠ [] ∧ (y = n.name ∨ ¬Declared nodes y) := by
    rw [← Bool.not_eq_false, slot_whole ((node?_ofNodes hlt).trans hn)]
    simp only [not_and_or, Bool.not_eq_false, not_forall, exists_prop, not_not]
  rw [hbroken, ← returns_nameOf hlt, hname]
  constructor
  · rintro ⟨n', hn', hfault⟩
    cases Option.mem_unique hn hn'
    rcases hfault with hb | hself | ⟨y, hy, hne, hmissing⟩ | hcycle
    · exact .inl (.inl hb)
    · exact .inl (.inr ⟨_, hself, hdeclared.1, .inl rfl⟩)
    · exact .inl (.inr ⟨y, hy, hne, .inr hmissing⟩)
    · exact .inr hcycle
  · rintro ((hb | ⟨y, hy, hne, rfl | hmissing⟩) | hcycle)
    · exact ⟨n, hn, .inl hb⟩
    · exact ⟨n, hn, .inr (.inl hy)⟩
    · exact ⟨n, hn, .inr (.inr (.inl ⟨y, hy, hne, hmissing⟩))⟩
    · exact ⟨n, hn, .inr (.inr (.inr hcycle))⟩

lemma leads_iff_faulty (hid : (ofNodes nodes).isPresent id) : (∃ on, ReflTransGen (ofNodes nodes).Imports id on ∧
      (slotOf ((ofNodes nodes).reportCycles (ofNodes nodes).schedule (ofNodes nodes).slots).1 on).broken) ↔
    ∃ x, ReflTransGen (Needs nodes) ((ofNodes nodes).nameOf id) x ∧ Faulty nodes x := by
  have hg := sound_ofNodes nodes
  have hpresent : ∀ {on}, ReflTransGen (ofNodes nodes).Imports id on → (ofNodes nodes).isPresent on := fun h => by
    rcases h.cases_tail with rfl | ⟨i, -, hlast⟩
    · exact hid
    · exact hlast.present
  rw [reaches_nameOf (hg.lt id hid)]
  simp only [slotOf_reportCycles (stuck_lt hg), Bool.or_eq_true, decide_eq_true_eq]
  constructor
  · rintro ⟨on, hpath, hb | hstuck⟩
    · exact ⟨on, hg.lt on (hpresent hpath), hpath, (faulty_nameOf (hpresent hpath)).2 (.inl hb)⟩
    · obtain ⟨-, back, hback, hcycle⟩ := (mem_stuck_iff_cycle hg).1 hstuck
      have hway := hpath.trans hback
      exact ⟨back, hg.lt back (hpresent hway), hway, (faulty_nameOf (hpresent hway)).2 (.inr hcycle)⟩
  · rintro ⟨on, -, hpath, hfault⟩
    refine ⟨on, hpath, ((faulty_nameOf (hpresent hpath)).1 hfault).imp_right fun hcycle => ?_⟩
    exact (mem_stuck_iff_cycle hg).2 ⟨hpresent hpath, on, .refl, hcycle⟩

theorem broken_iff_reaches (nodes : List Node) : let g := ofNodes nodes
    let start := (g.reportCycles g.schedule g.slots).1
    let r := g.reportBrokenDeps g.schedule.order start
    (∀ id, g.isPresent id → ((slotOf r.1 id).broken ↔
      ∃ x, ReflTransGen (Needs nodes) (g.nameOf id) x ∧ Faulty nodes x)) ∧
    ∃ new : List ModuleId, new.Nodup ∧
      (∀ id, id ∈ new ↔ g.isPresent id ∧ (slotOf start id).broken = false ∧ (slotOf r.1 id).broken) ∧
      List.Forall₂ (fun id f => nodes.findIdx? (fun n => n.name = g.nameOf id) = some f.place ∧
        f.diagnostic.severity = .error ∧ f.diagnostic.code = .dependencyFailed ∧ f.diagnostic.module = g.nameOf id ∧
        ∃ dep, IsLeast { dep | g.Imports id dep ∧ (slotOf r.1 dep).broken } dep ∧
          f.diagnostic.message = "dependency module " ++ (g.nameOf dep).quoted ++ " has errors") new r.2 := by
  intro g start r
  have hg : g.Sound := sound_ofNodes nodes
  have hstart : ∀ i, (slotOf start i).broken = ((slotOf g.slots i).broken || decide (i ∈ g.schedule.stuck)) := fun i => by
    rw [slotOf_reportCycles (stuck_lt hg)]
  have hsize : ∀ i, g.isPresent i → i < start.size := fun i hi => by
    simpa [start, reportCycles_size, slots, ids] using hg.lt i hi
  have hpresent : ∀ i ∈ g.schedule.order, g.isPresent i := fun i hi => ((mem_order hg).1 hi).1
  obtain ⟨hout, -, hfound⟩ := reportBrokenDeps_pass g.schedule.order start (fun i hi => hsize i (hpresent i hi)) hpresent
    fun _ _ _ => order_pass hg
  refine ⟨fun id hid => ?_, _, (order_append_stuck_nodup hg).of_append_left.filter _, fun id => ?_, hfound.imp ?_⟩
  · exact (broken_iff_leads hg hsize (fun i hi => by simp [hstart, hi]) hid).trans (leads_iff_faulty hid)
  · rw [List.mem_filter, Bool.and_eq_true, Bool.not_eq_true']
    refine ⟨fun h => ⟨hpresent id h.1, h.2⟩, fun h => ⟨?_, h.2⟩⟩
    refine (List.mem_append.1 ((mem_order_append_stuck hg).2 h.1)).resolve_right fun hstuck => ?_
    have hwhole := h.2.1
    simp [hstart, hstuck] at hwhole
  · rintro id f ⟨hplace, dep, hdep, hfault⟩
    rw [hfault, dependencyFault]
    refine ⟨(place?_spec hplace).2, ?_, ?_, ?_, dep, brokenDep?_isLeast hdep, ?_⟩
    all_goals cases (slotOf r.1 dep).firstError <;> rfl

end Graph

end Arbor.Project
