import Arbor.Proofs.Waves

/-! The order of a list of nodes, told by their names alone: which names are there, and which need
which. Numbering the names and sorting by numbers neither loses nor adds anything, and where a node
stands in the list matters only among nodes of its name. -/

namespace Arbor

open List

namespace Text

lemma le_iff (s t : Text) : le s t ↔ s ≤ t := by
  induction s generalizing t with
  | nil => simp [le]
  | cons a s ih =>
    cases t with
    | nil => simp [le]
    | cons b t =>
      rw [cons_le_cons_iff, le]
      grind

lemma le_total (s t : Text) : le s t || le t s := by
  rw [Bool.or_eq_true, le_iff, le_iff]
  exact List.le_total s t

lemma le_trans (s t u : Text) (hst : le s t) (htu : le t u) : le s u :=
  (le_iff s u).2 (List.le_trans ((le_iff s t).1 hst) ((le_iff t u).1 htu))

lemma le_antisymm (s t : Text) (hst : le s t) (hts : le t s) : s = t :=
  List.le_antisymm ((le_iff s t).1 hst) ((le_iff t s).1 hts)

lemma sort_eq_of_perm (h : l1.Perm l2) : sort l1 = sort l2 := by
  refine List.Perm.eq_of_pairwise (fun s t _ _ => le_antisymm s t)
    (pairwise_mergeSort le_trans le_total l1) (pairwise_mergeSort le_trans le_total l2) ?_
  exact (mergeSort_perm l1 _).trans (h.trans (mergeSort_perm l2 _).symm)

end Text

namespace Project

open Relation

variable {nodes nodes' : List Node} {id : ModuleId}

def Declared (nodes : List Node) (x : Text) : Prop := x ≠ [] ∧ ∃ n ∈ nodes, n.name = x

def Needs (nodes : List Node) (x y : Text) : Prop :=
  Declared nodes x ∧ Declared nodes y ∧ x ≠ y ∧ ∃ n, nodes.find? (fun n => n.name = x) = some n ∧ y ∈ n.imports

lemma declared_iff_find? (hx : x ≠ []) : Declared nodes x ↔ (nodes.find? fun n => n.name = x).isSome := by
  simp [Declared, hx]

lemma eraseDups_nodup [BEq α] [LawfulBEq α] (l : List α) : l.eraseDups.Nodup := by
  induction hn : l.length using Nat.strong_induction_on generalizing l with
  | _ n ih =>
    cases l with
    | nil => simp
    | cons a l =>
      rw [eraseDups_cons, nodup_cons]
      refine ⟨by simp, ih _ ?_ _ rfl⟩
      have := length_filter_le (fun b => !b == a) l
      simp only [← hn, length_cons]
      omega

namespace Graph

lemma mem_namesOf : x ∈ namesOf nodes ↔ x ≠ [] ∧ ∃ n ∈ nodes, x = n.name ∨ x ∈ n.imports := by
  simp [namesOf, Text.sort, and_comm]

lemma namesOf_nodup : (namesOf nodes).Nodup := by
  rw [namesOf, Text.sort, (mergeSort_perm _ _).nodup_iff]
  exact eraseDups_nodup _

lemma nameOf_idxOf (hx : x ∈ namesOf nodes) : (ofNodes nodes).nameOf ((namesOf nodes).idxOf x) = x := by
  change (namesOf nodes).getD _ [] = x
  rw [getD_eq_getElem _ _ (idxOf_lt_length_iff.2 hx), getElem_idxOf]

lemma nameOf_mem (hid : id < (namesOf nodes).length) : (ofNodes nodes).nameOf id ∈ namesOf nodes := by
  change (namesOf nodes).getD _ [] ∈ _
  rw [getD_eq_getElem _ _ hid]
  exact getElem_mem hid

lemma idxOf_nameOf (hid : id < (namesOf nodes).length) : (namesOf nodes).idxOf ((ofNodes nodes).nameOf id) = id := by
  change (namesOf nodes).idxOf ((namesOf nodes).getD _ []) = id
  rw [getD_eq_getElem _ _ hid, namesOf_nodup.idxOf_getElem]

lemma findIdx?_bind_getElem? (p) : (nodes.findIdx? p).bind (nodes[·]?) = nodes.find? p := by
  induction nodes with
  | nil => rfl
  | cons n nodes ih =>
    rw [List.findIdx?_cons, List.find?_cons]
    cases p n with
    | true => rfl
    | false =>
      simp only [← ih]
      cases nodes.findIdx? p <;> simp

lemma place?_ofNodes (hid : id < (namesOf nodes).length) :
    (ofNodes nodes).place? id = nodes.findIdx? fun n => n.name = (ofNodes nodes).nameOf id := by
  simp [place?, ofNodes, nameOf, hid]

lemma place?_eq_none (hid : ¬id < (namesOf nodes).length) : (ofNodes nodes).place? id = none := by
  simp [place?, ofNodes, Nat.le_of_not_lt hid]

lemma place?_spec (h : (ofNodes nodes).place? id = some place) :
    id < (namesOf nodes).length ∧ nodes.findIdx? (fun n => n.name = (ofNodes nodes).nameOf id) = some place := by
  by_cases hid : id < (namesOf nodes).length
  · exact ⟨hid, place?_ofNodes hid ▸ h⟩
  · rw [place?_eq_none hid] at h
    cases h

lemma node?_ofNodes (hid : id < (namesOf nodes).length) :
    (ofNodes nodes).node? id = nodes.find? fun n => n.name = (ofNodes nodes).nameOf id := by
  rw [node?, place?_ofNodes hid, ← findIdx?_bind_getElem?]
  rfl

lemma isPresent_iff :
    (ofNodes nodes).isPresent id ↔ id < (namesOf nodes).length ∧ Declared nodes ((ofNodes nodes).nameOf id) := by
  rw [isPresent]
  by_cases hid : id < (namesOf nodes).length
  · rw [place?_ofNodes hid, declared_iff_find? (mem_namesOf.1 (nameOf_mem hid)).1]
    simp [hid]
  · simp [place?_eq_none hid, hid]

lemma deps_ofNodes : (ofNodes nodes).deps id = (((ofNodes nodes).node? id).map (importsOf (namesOf nodes))).getD [] := by
  by_cases hid : id < (namesOf nodes).length
  · simp [deps, ofNodes, node?, place?, hid]
  · rw [node?, place?_eq_none hid]
    simp [deps, ofNodes, Nat.le_of_not_lt hid]

lemma mem_importsOf {names : List Text} :
    dep ∈ importsOf names n ↔ ∃ y ∈ n.imports, y ≠ [] ∧ y ≠ n.name ∧ names.idxOf y = dep := by
  simp [importsOf, and_assoc]

lemma exists_of_imports (h : (ofNodes nodes).Imports id dep) : id < (namesOf nodes).length ∧ ∃ n y,
    nodes.find? (fun n => n.name = (ofNodes nodes).nameOf id) = some n ∧ y ∈ n.imports ∧ y ≠ [] ∧
      y ≠ n.name ∧ (namesOf nodes).idxOf y = dep := by
  have hdep : dep ∈ (ofNodes nodes).deps id := (mem_filter.1 h).1
  rw [deps_ofNodes] at hdep
  by_cases hid : id < (namesOf nodes).length
  · rw [node?_ofNodes hid] at hdep
    cases hn : nodes.find? fun n => n.name = (ofNodes nodes).nameOf id with
    | none => simp [hn] at hdep
    | some n =>
      rw [hn] at hdep
      obtain ⟨y, hy⟩ := mem_importsOf.1 hdep
      exact ⟨hid, n, y, rfl, hy⟩
  · simp [node?, place?_eq_none hid] at hdep

lemma needs_of_imports (h : (ofNodes nodes).Imports id dep) :
    Needs nodes ((ofNodes nodes).nameOf id) ((ofNodes nodes).nameOf dep) := by
  obtain ⟨hid, n, y, hn, hy, hne, hother, rfl⟩ := exists_of_imports h
  have hname : n.name = (ofNodes nodes).nameOf id := by simpa using List.find?_some hn
  have hmem := mem_of_find?_eq_some hn
  have hdeclared : Declared nodes ((ofNodes nodes).nameOf id) := ⟨(mem_namesOf.1 (nameOf_mem hid)).1, n, hmem, hname⟩
  have hto := (isPresent_iff.1 (Imports.present h)).2
  rw [nameOf_idxOf (mem_namesOf.2 ⟨hne, n, hmem, .inr hy⟩)] at hto ⊢
  exact ⟨hdeclared, hto, fun heq => hother (heq.symm.trans hname.symm), n, hn, hy⟩

lemma Declared.mem_namesOf (h : Declared nodes x) : x ∈ namesOf nodes := by
  obtain ⟨hne, n, hn, rfl⟩ := h
  exact Graph.mem_namesOf.2 ⟨hne, n, hn, .inl rfl⟩

lemma isPresent_idxOf (h : Declared nodes x) : (ofNodes nodes).isPresent ((namesOf nodes).idxOf x) := by
  have hx := Declared.mem_namesOf h
  refine isPresent_iff.2 ⟨idxOf_lt_length_iff.2 hx, ?_⟩
  rwa [nameOf_idxOf hx]

lemma imports_of_needs (h : Needs nodes x y) :
    (ofNodes nodes).Imports ((namesOf nodes).idxOf x) ((namesOf nodes).idxOf y) := by
  obtain ⟨hx, hy, hne, n, hn, hmem⟩ := h
  have hxmem := Declared.mem_namesOf hx
  have hname : n.name = x := by simpa using List.find?_some hn
  refine mem_filter.2 ⟨?_, isPresent_idxOf hy⟩
  rw [deps_ofNodes, node?_ofNodes (idxOf_lt_length_iff.2 hxmem), nameOf_idxOf hxmem, hn]
  exact mem_importsOf.2 ⟨y, hmem, hy.1, fun h => hne (hname.symm.trans h.symm), rfl⟩

lemma sound_ofNodes (nodes) : (ofNodes nodes).Sound where
  lt id h := (isPresent_iff.1 h).1
  nodup id := by
    rw [presentDeps, deps_ofNodes]
    refine List.Nodup.filter _ ?_
    cases (ofNodes nodes).node? id with
    | none => exact nodup_nil
    | some n => exact (mergeSort_perm _ _).nodup_iff.2 (eraseDups_nodup _)
  present id dep h := isPresent_iff.2 ⟨(exists_of_imports h).1, (needs_of_imports h).1⟩

section

variable (hid : id < (namesOf nodes).length)

include hid

lemma chainFrom_nameOf (n) :
    ChainFrom (Needs nodes) n ((ofNodes nodes).nameOf id) ↔ ChainFrom (ofNodes nodes).Imports n id := by
  refine ⟨fun h => ?_, .lift _ fun _ _ => needs_of_imports⟩
  have := h.lift (namesOf nodes).idxOf fun _ _ => imports_of_needs
  rwa [idxOf_nameOf hid] at this

lemma reaches_nameOf {P : Text → Prop} : (∃ x, ReflTransGen (Needs nodes) ((ofNodes nodes).nameOf id) x ∧ P x) ↔
      ∃ on < (namesOf nodes).length, ReflTransGen (ofNodes nodes).Imports id on ∧ P ((ofNodes nodes).nameOf on) := by
  constructor
  · rintro ⟨x, hpath, hx⟩
    have hmem : x ∈ namesOf nodes := by
      rcases hpath.cases_tail with rfl | ⟨y, -, hy⟩
      · exact nameOf_mem hid
      · exact Declared.mem_namesOf hy.2.1
    have hlift := ReflTransGen.lift (namesOf nodes).idxOf (fun _ _ => imports_of_needs) _ _ hpath
    rw [Function.onFun, idxOf_nameOf hid] at hlift
    exact ⟨_, idxOf_lt_length_iff.2 hmem, hlift, (nameOf_idxOf hmem).symm ▸ hx⟩
  · rintro ⟨on, -, hpath, hon⟩
    exact ⟨_, ReflTransGen.lift (ofNodes nodes).nameOf (fun _ _ => needs_of_imports) _ _ hpath, hon⟩

lemma returns_nameOf : TransGen (Needs nodes) ((ofNodes nodes).nameOf id) ((ofNodes nodes).nameOf id) ↔
      TransGen (ofNodes nodes).Imports id id := by
  refine ⟨fun h => ?_, TransGen.lift (ofNodes nodes).nameOf (fun _ _ => needs_of_imports) _ _⟩
  have hlift := TransGen.lift (namesOf nodes).idxOf (fun _ _ => imports_of_needs) _ _ h
  rwa [Function.onFun, idxOf_nameOf hid] at hlift

lemma cycle_nameOf : (∃ on, ReflTransGen (Needs nodes) ((ofNodes nodes).nameOf id) on ∧ TransGen (Needs nodes) on on) ↔
      ∃ on, ReflTransGen (ofNodes nodes).Imports id on ∧ TransGen (ofNodes nodes).Imports on on := by
  rw [reaches_nameOf hid]
  constructor
  · rintro ⟨on, hlt, hpath, hcycle⟩
    exact ⟨on, hpath, (returns_nameOf hlt).1 hcycle⟩
  · rintro ⟨on, hpath, hcycle⟩
    obtain ⟨dep, hdep, -⟩ := TransGen.head'_iff.1 hcycle
    have hlt := (exists_of_imports hdep).1
    exact ⟨on, hlt, hpath, (returns_nameOf hlt).2 hcycle⟩

end

lemma schedule_congr {g g' : Graph} (hnames : g.names = g'.names) (hpresent : g.isPresent = g'.isPresent)
    (hdeps : g.deps = g'.deps) : g.schedule = g'.schedule := by
  have hids : g.ids = g'.ids := by simp only [ids, hnames]
  have hpresentDeps : g.presentDeps = g'.presentDeps := by
    funext id
    simp only [presentDeps, hdeps, hpresent]
  have husers : g.users = g'.users := by
    funext id
    simp only [users, hids, hpresentDeps]
  have hcollect : g.collect = g'.collect := by
    funext keep
    simp only [collect, hids, hpresent]
  have hwaves : g.wavesFrom = g'.wavesFrom := by
    funext fuel
    induction fuel with
    | zero => rfl
    | succ fuel ih =>
      simp only [wavesFrom, passOn, husers, ih]
  have hwalk : g.walk = g'.walk := by
    funext stuck fuel
    induction fuel with
    | zero => rfl
    | succ fuel ih =>
      simp only [walk, hdeps, ih]
  have hcycle : g.cycleIn = g'.cycleIn := by
    funext stuck
    cases stuck with
    | nil => rfl
    | cons first rest => simp only [cycleIn, hwalk]
  have hcounts : g.counts = g'.counts := by simp only [counts, hids, hpresentDeps]
  simp only [schedule, hcounts, hcollect, hnames, hwaves, hcycle]

lemma schedule_eq_of_filter (h : ∀ x, nodes.filter (fun n => n.name = x) = nodes'.filter fun n => n.name = x) :
    (ofNodes nodes).schedule = (ofNodes nodes').schedule := by
  have hmem : ∀ n, n ∈ nodes ↔ n ∈ nodes' := by
    intro n
    have := congrArg (n ∈ ·) (h n.name)
    simpa using this
  have hnames : namesOf nodes = namesOf nodes' := by
    refine Text.sort_eq_of_perm (perm_of_nodup_nodup_toFinset_eq (eraseDups_nodup _) (eraseDups_nodup _) ?_)
    ext x
    simp [hmem]
  have hnode : (ofNodes nodes).node? = (ofNodes nodes').node? := by
    funext id
    by_cases hid : id < (namesOf nodes).length
    · rw [node?_ofNodes hid, node?_ofNodes (hnames ▸ hid)]
      have hname : (ofNodes nodes).nameOf id = (ofNodes nodes').nameOf id := congrArg (·.getD id []) hnames
      rw [hname, ← List.head?_filter, h, List.head?_filter]
    · rw [node?, node?, place?_eq_none hid, place?_eq_none (hnames ▸ hid)]
      rfl
  refine schedule_congr hnames (funext fun id => ?_) (funext fun id => ?_)
  · have hname : (ofNodes nodes).nameOf id = (ofNodes nodes').nameOf id := congrArg (·.getD id []) hnames
    rw [Bool.eq_iff_iff, isPresent_iff, isPresent_iff, hnames, hname]
    simp only [Declared, hmem]
  · rw [deps_ofNodes, deps_ofNodes, hnode, hnames]

lemma mem_map_nameOf {l : List ModuleId} {P : Text → Prop} (hP : ∀ x, P x → Declared nodes x)
    (hl : ∀ id, id ∈ l ↔ (ofNodes nodes).isPresent id ∧ P ((ofNodes nodes).nameOf id)) :
    x ∈ l.map (ofNodes nodes).nameOf ↔ P x := by
  rw [mem_map]
  constructor
  · rintro ⟨id, hid, rfl⟩
    exact ((hl id).1 hid).2
  · intro hx
    have hname := nameOf_idxOf (Declared.mem_namesOf (hP x hx))
    exact ⟨_, (hl _).2 ⟨isPresent_idxOf (hP x hx), hname.symm ▸ hx⟩, hname⟩

lemma declared_of_cycle (h : ∃ on, ReflTransGen (Needs nodes) x on ∧ TransGen (Needs nodes) on on) :
    Declared nodes x := by
  obtain ⟨on, hpath, hcycle⟩ := h
  obtain rfl | ⟨y, hxy, -⟩ := hpath.cases_head
  · obtain ⟨y, hon, -⟩ := TransGen.head'_iff.1 hcycle
    exact hon.1
  · exact hxy.1

/-- Sorting is exact. Order and stuck modules together are the names that are there, once each; what
a module needs comes before it; wave `k` holds, in the order of their numbers, the modules whose longest
chain of needs has length `k`; stuck are the modules from which needs lead to a cycle; and moving
nodes without passing one of the same name changes nothing. -/
theorem schedule_exact (nodes : List Node) : let g := ofNodes nodes
    let s := g.schedule
    (((s.order ++ s.stuck).map g.nameOf).Nodup ∧
      ∀ x, x ∈ (s.order ++ s.stuck).map g.nameOf ↔ Declared nodes x) ∧
    (∀ before id after, s.order = before ++ id :: after →
      ∀ x, Needs nodes (g.nameOf id) x → x ∈ before.map g.nameOf) ∧
    (s.order = s.waves.flatten ∧
      ∀ k, (s.waves.getD k []).Pairwise (· < ·) ∧ ∀ x, x ∈ (s.waves.getD k []).map g.nameOf ↔
        Declared nodes x ∧ IsGreatest { n | ChainFrom (Needs nodes) n x } k) ∧
    (∀ x, x ∈ s.stuck.map g.nameOf ↔
      ∃ on, ReflTransGen (Needs nodes) x on ∧ TransGen (Needs nodes) on on) ∧
    ∀ nodes', (∀ x, nodes'.filter (fun n => n.name = x) = nodes.filter fun n => n.name = x) →
      (ofNodes nodes').schedule = s := by
  intro g s
  have hg : g.Sound := sound_ofNodes nodes
  have hdeclared : ∀ {id}, g.isPresent id → Declared nodes (g.nameOf id) := fun h => (isPresent_iff.1 h).2
  refine ⟨⟨?_, fun x => ?_⟩, fun before id after horder x hx => ?_, ⟨rfl, fun k => ⟨?_, fun x => ?_⟩⟩, fun x => ?_,
    fun nodes' h => schedule_eq_of_filter h⟩
  · refine (order_append_stuck_nodup hg).map_on fun id hid id' hid' heq => ?_
    have hlt := hg.lt id ((mem_order_append_stuck hg).1 hid)
    have hlt' := hg.lt id' ((mem_order_append_stuck hg).1 hid')
    exact (idxOf_nameOf hlt).symm.trans ((congrArg (namesOf nodes).idxOf heq).trans (idxOf_nameOf hlt'))
  · refine mem_map_nameOf (fun _ h => h) fun id => (mem_order_append_stuck hg).trans ?_
    exact (and_iff_left_of_imp hdeclared).symm
  · have hxmem := Declared.mem_namesOf hx.2.1
    have hid : g.isPresent id := ((mem_order hg).1 (by rw [horder]; simp)).1
    have himports := imports_of_needs hx
    rw [idxOf_nameOf (hg.lt id hid)] at himports
    exact List.mem_map.2 ⟨_, order_before hg horder himports, nameOf_idxOf hxmem⟩
  · obtain ⟨left, ⟨hwaves, -⟩, -⟩ := schedule_wavesAt hg
    exact (hwaves k).symm ▸ collect_sorted _
  · refine mem_map_nameOf (P := fun x => Declared nodes x ∧ IsGreatest { n | ChainFrom (Needs nodes) n x } k)
      (fun _ h => h.1) fun id => (mem_wave hg k).trans (and_congr_right fun hp => ?_)
    have hchains : { n | ChainFrom (Needs nodes) n (g.nameOf id) } = { n | ChainFrom g.Imports n id } :=
      Set.ext fun n => chainFrom_nameOf (hg.lt id hp) n
    rw [hchains]
    exact (and_iff_right (hdeclared hp)).symm
  · refine mem_map_nameOf (fun _ h => declared_of_cycle h) fun id => (mem_stuck_iff_cycle hg).trans ?_
    exact and_congr_right fun hp => (cycle_nameOf (hg.lt id hp)).symm

end Graph

end Project

end Arbor
