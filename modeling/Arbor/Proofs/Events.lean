import Arbor.Proofs.Reports

/-! What a run tells about its files. Every file is told to be read, and a module that has a place in the
order has its turn; nothing else is told. So how many events end a file depends on two things only: whether
it could be read, and whether its module has a place in the order. -/

namespace Arbor.Build

variable {σ ρ α β : Type}

namespace Act.Shadows

lemma get {f : World σ → Act σ β} {g : World (σ × ρ) → Act (σ × ρ) β} (h : ∀ w, Shadows (g w) (f w.alone)) :
    Shadows (get >>= g) (get >>= f) := fun w => h w w

lemma mapM {f : α → Act σ β} (h : ∀ x, Shadows (g x) (f x)) (l : List α) :
    Shadows (l.mapM g) (l.mapM f) := by
  induction l with
  | nil => exact .pure []
  | cons x l ih =>
    rw [List.mapM_cons, List.mapM_cons]
    exact .bind (h x) fun y => .bind ih fun ys => .pure (y :: ys)

lemma exists_ok (h : Shadows b a) (hx : a w = .ok x w') (r) :
    ∃ after, b (w.handTo (w.user, r)) = .ok x after ∧ after.alone = w' := by
  have hsame := h (w.handTo (w.user, r))
  change a w = _ at hsame
  rw [hx] at hsame
  cases hb : b (w.handTo (w.user, r)) with
  | ok y after =>
    rw [hb] at hsame
    cases hsame
    exact ⟨after, rfl, rfl⟩
  | error e after =>
    rw [hb] at hsame
    cases hsame

end Act.Shadows

end Arbor.Build

namespace Arbor.Project

open Build Diag IR Proofs Relation List Plan

variable {σ : Type}

def Watch.logged (w : Watch σ) : Watch (σ × List ModuleEvent) where
  notify e := do
    Act.note (· ++ [e])
    (w.notify e).beside
  cancelled := w.cancelled.beside

def Tools.logged (t : Tools σ) : Tools (σ × List ModuleEvent) :=
  { t.toWatch.logged with
    load := fun m => (t.load m).beside
    verify := fun h => (t.verify h).beside }

/-- An event that ends a file: it cannot be read, or its module is built, fails or is passed over. -/
def ModuleEvent.ends (e : ModuleEvent) : Bool :=
  (e.phase = .decode && e.status = .failed) || (e.phase = .build && e.status ≠ .start)

/-- What is told when a file is read. -/
inductive Reading (d : Decoded) : List ModuleEvent → Prop where
  | done (m : Tree.Module) (h : d.module = some m) :
      Reading d [⟨[], d.path, .decode, .start, none⟩, ⟨m.name, d.path, .decode, .done, none⟩]
  | failed (f : Fault) (h : d.module = none) :
      Reading d [⟨[], d.path, .decode, .start, none⟩, ⟨stem d.path, d.path, .decode, .failed, some f⟩]

/-- What is told at the turn of a module. One that fails may have been verified before. -/
inductive Turn (name path : Text) : List ModuleEvent → Prop where
  | skipped : Turn name path [⟨name, path, .build, .skipped, none⟩]
  | built : Turn name path [⟨name, path, .build, .start, none⟩, ⟨name, path, .verify, .start, none⟩,
      ⟨name, path, .build, .done, none⟩]
  | failed (f g : Fault) {told : List ModuleEvent}
      (h : told <+: [⟨name, path, .verify, .start, none⟩, ⟨name, path, .verify, .failed, some g⟩]) :
      Turn name path (⟨name, path, .build, .start, none⟩ :: told ++ [⟨name, path, .build, .failed, some f⟩])

/-- The module of a file has a place in the order. -/
structure Ordered (s : Sources) (place : Nat) (d : Decoded) : Prop where
  first : s.decoded.findIdx? (fun e => e.name = d.name) = some place
  named : d.name ≠ []
  acyclic : ¬∃ on, ReflTransGen (Needs s.nodes) d.name on ∧ TransGen (Needs s.nodes) on on

/-- What is heard of a file: that it is read, and the turn of its module if that has a place in the order. -/
structure Heard (ordered : Prop) (d : Decoded) (events : List ModuleEvent) : Prop where
  story : ∃ reading turn, events = reading ++ turn ∧ Reading d reading ∧
    (ordered ∧ Turn d.name d.path turn ∨ ¬ordered ∧ turn = [])
  once : events.countP ModuleEvent.ends = 1 ↔ (d.module.isSome ↔ ordered)
  twice : events.countP ModuleEvent.ends = 2 ↔ d.module.isNone ∧ ordered
  never : events.countP ModuleEvent.ends = 0 ↔ d.module.isSome ∧ ¬ordered
  last : (∃ e ∈ events, e.ends) → ∃ e, events.getLast? = some e ∧ e.ends

section Stories

variable {d : Decoded} {l : List ModuleEvent}

lemma Reading.file (h : Reading d l) : ∀ e ∈ l, e.file = d.path := by
  cases h <;> simp

lemma Turn.file (h : Turn name path l) : ∀ e ∈ l, e.file = path := by
  cases h with
  | skipped => simp
  | built => simp
  | failed f g h =>
    intro e he
    simp only [cons_append, mem_cons, mem_append, not_mem_nil, or_false] at he
    rcases he with rfl | he | rfl
    · rfl
    · have hmem := h.subset he
      simp only [mem_cons, not_mem_nil, or_false] at hmem
      rcases hmem with rfl | rfl <;> rfl
    · rfl

lemma Reading.countP_ends (h : Reading d l) : l.countP ModuleEvent.ends = if d.module.isSome then 0 else 1 := by
  cases h with
  | done m h =>
    rw [h]
    rfl
  | failed f h =>
    rw [h]
    rfl

lemma Turn.ends_last (h : Turn name path l) : ∃ before e, l = before ++ [e] ∧ e.ends ∧
    before.countP ModuleEvent.ends = 0 := by
  cases h with
  | skipped => exact ⟨[], _, rfl, rfl, rfl⟩
  | built => exact ⟨[_, _], _, rfl, rfl, rfl⟩
  | failed f g h =>
    refine ⟨_, _, rfl, rfl, countP_eq_zero.2 fun e he => ?_⟩
    rcases mem_cons.1 he with rfl | he
    · simp [ModuleEvent.ends]
    · have hmem := h.subset he
      simp only [mem_cons, not_mem_nil, or_false] at hmem
      rcases hmem with rfl | rfl <;> simp [ModuleEvent.ends]

lemma Reading.heard (hr : Reading d reading)
    (ht : ordered ∧ Turn d.name d.path turn ∨ ¬ordered ∧ turn = []) : Heard ordered d (reading ++ turn) := by
  have hread := hr.countP_ends
  rcases ht with ⟨ho, ht⟩ | ⟨ho, rfl⟩
  · obtain ⟨before, e, rfl, he, hbefore⟩ := ht.ends_last
    have hcount : (reading ++ (before ++ [e])).countP ModuleEvent.ends = (if d.module.isSome then 0 else 1) + 1 := by
      simp [hread, hbefore, he]
    refine ⟨⟨reading, _, rfl, hr, .inl ⟨ho, ht⟩⟩, ?_, ?_, ?_, fun _ => ⟨e, by simp, he⟩⟩
    all_goals
      rw [hcount]
      cases d.module <;> simp [ho]
  · refine ⟨⟨reading, [], rfl, hr, .inr ⟨ho, rfl⟩⟩, ?_, ?_, ?_, ?_⟩
    case refine_4 =>
      cases hr <;> simp [ModuleEvent.ends]
    all_goals
      rw [append_nil, hread]
      cases d.module <;> simp [ho]

lemma filter_flatten {R : ι → List ModuleEvent → Prop} {file : ι → Text}
    (hfile : ∀ x l, R x l → ∀ e ∈ l, e.file = file x) {xs : List ι}
    (h : Forall₂ R xs ls) (hnodup : (xs.map file).Nodup) (path) :
    (∃ x ∈ xs, file x = path ∧ R x (ls.flatten.filter (·.file = path))) ∨
      path ∉ xs.map file ∧ ls.flatten.filter (·.file = path) = [] := by
  induction h with
  | nil => exact .inr ⟨by simp, rfl⟩
  | @cons x l xs ls hx _ ih =>
    rw [map_cons, nodup_cons] at hnodup
    rw [flatten_cons, filter_append]
    by_cases hpath : file x = path
    · have hself : l.filter (·.file = path) = l := filter_eq_self.2 fun e he => by simp [hfile x l hx e he, hpath]
      -- No later part is about the same file.
      rcases ih hnodup.2 with ⟨y, hy, hyp, -⟩ | ⟨-, hrest⟩
      · exact absurd (mem_map.2 ⟨y, hy, hyp.trans hpath.symm⟩) hnodup.1
      · rw [hself, hrest, append_nil]
        exact .inl ⟨x, by simp, hpath, hx⟩
    · have hnone : l.filter (·.file = path) = [] := filter_eq_nil_iff.2 fun e he => by simp [hfile x l hx e he, hpath]
      rw [hnone]
      rcases ih hnodup.2 with ⟨y, hy, hyR⟩ | ⟨hnot, hrest⟩
      · exact .inl ⟨y, by simp [hy], hyR⟩
      · exact .inr ⟨by simpa [Ne.symm hpath] using hnot, hrest⟩

end Stories

/-! ### Records -/

section Records

variable {w : Watch σ} {t : Tools σ} {p : Plan} {id : ModuleId} {place : Nat}

lemma notify_shadows (w : Watch σ) (e) : Act.Shadows (w.logged.notify e) (w.notify e) := by
  have h : Act.Shadows (w.logged.notify e) (pure () >>= fun _ => w.notify e) := .bind (.note _) fun _ => .beside _
  simpa using h

lemma logged_shadows (t : Tools σ) : t.logged.Shadows t where
  notify := notify_shadows t.toWatch
  cancelled := .beside _
  load _ := .beside _
  verify _ := .beside _

lemma decodeFiles_shadows (w : Watch σ) (limit) (files) :
    Act.Shadows (decodeFiles w.logged limit files) (decodeFiles w limit files) := by
  refine .mapM (fun path => ?_) files
  have hcheck : Act.Shadows w.logged.checkpoint w.checkpoint := by
    refine .bind (.beside _) fun b => ?_
    cases b with
    | true => exact .throw _
    | false => exact .pure ()
  refine .bind hcheck fun _ => .bind (notify_shadows w _) fun _ => .get fun v => ?_
  rw [show v.alone.files = v.files from rfl]
  cases Tree.openModule v.files path with
  | ok | error => exact .bind (notify_shadows w _) fun _ => .pure _

lemma notify_logged (e) : Obeys v (w.logged.notify e)
    (fun _ v' => v'.user.2 = v.user.2 ++ [e]) fun _ v' => v'.user.2 = v.user.2 ++ [e] := by
  refine .bind .note fun _ v1 h1 => ?_
  rw [← h1]
  exact .beside _

lemma checkpoint_logged : Obeys v w.logged.checkpoint (fun _ v' => v'.user.2 = v.user.2) fun _ _ => True := by
  refine .bind ((Obeys.beside _).weaken fun _ _ _ => trivial) fun b v1 h1 => ?_
  cases b with
  | true => exact .throw trivial
  | false => exact .pure h1

lemma decodeFile_logged (limit) (path) : Obeys v (decodeFile w.logged limit path)
    (fun d v' => ∃ l, v'.user.2 = v.user.2 ++ l ∧ Reading d l) fun _ _ => True := by
  refine .bind checkpoint_logged fun _ v1 h1 => ?_
  refine .bind ((notify_logged _).weaken fun _ _ _ => trivial) fun _ v2 h2 => ?_
  refine .bind (P := fun _ (v' : World (σ × List ModuleEvent)) => v'.user.2 = v2.user.2) rfl fun s v3 h3 => ?_
  cases Tree.openModule s.files path with
  | ok m =>
    refine .bind ((notify_logged _).weaken fun _ _ _ => trivial) fun _ v4 h4 => .pure ⟨_, ?_, .done m rfl⟩
    rw [h4, h3, h2, h1, append_assoc]
    rfl
  | error f =>
    refine .bind ((notify_logged _).weaken fun _ _ _ => trivial) fun _ v4 h4 => .pure ⟨_, ?_, .failed f rfl⟩
    rw [h4, h3, h2, h1, append_assoc]
    rfl

lemma decodeFiles_logged (limit) (files) : Obeys v (decodeFiles w.logged limit files)
    (fun decoded v' => ∃ ls, v'.user.2 = v.user.2 ++ ls.flatten ∧ Forall₂ Reading decoded ls) fun _ _ => True := by
  unfold decodeFiles
  induction files generalizing v with
  | nil => exact .pure ⟨[], by simp, .nil⟩
  | cons path files ih =>
    rw [mapM_cons]
    refine .bind (decodeFile_logged limit path) fun d v1 ⟨l, hl, hd⟩ => ?_
    refine .bind ih fun decoded v2 ⟨ls, hls, hdecoded⟩ => ?_
    exact .pure ⟨l :: ls, by rw [hls, hl, flatten_cons, append_assoc], .cons hd hdecoded⟩

lemma make_logged : Obeys v (t.logged.make j)
    (fun _ v' => v'.user.2 = v.user.2 ++ [⟨j.name, j.path, .verify, .start, none⟩])
    fun _ v' => ∃ g told, told <+: [⟨j.name, j.path, .verify, .start, none⟩, ⟨j.name, j.path, .verify, .failed, some g⟩] ∧
      v'.user.2 = v.user.2 ++ told := by
  unfold Tools.make
  cases j.tree with
  -- Without a tree nothing is loaded, and nothing is told.
  | none => exact .bind (P := fun _ _ => False) ⟨default, [], nil_prefix, by simp⟩ fun _ _ h => h.elim
  | some tree =>
    refine .bind (P := fun _ (v' : World (σ × List ModuleEvent)) => v'.user.2 = v.user.2) rfl fun x v0 h0 => ?_
    refine .bind ((Obeys.beside _).weaken fun _ v1 h1 => ⟨default, [], nil_prefix, by simp [h1, h0]⟩)
      fun m v1 h1 => ?_
    refine .bind ((notify_logged _).weaken fun _ v2 h2 => ⟨default, _, prefix_append [_] _, by rw [h2, h1, h0]⟩)
      fun _ v2 h2 => ?_
    refine .bind ((Act.attempt_obeys (Obeys.beside _)).weaken fun _ v3 h3 =>
      ⟨default, _, prefix_append [_] _, by rw [h3.1, h2, h1, h0]⟩) fun r v3 h3 => ?_
    obtain ⟨u, rfl, h3⟩ | ⟨g, rfl, h3⟩ := h3
    · exact .pure (by rw [h3, h2, h1, h0])
    · have hall : ∀ v4 : World (σ × List ModuleEvent),
          v4.user.2 = v3.user.2 ++ [⟨j.name, j.path, .verify, .failed, some g⟩] →
          ∃ g told, told <+: [⟨j.name, j.path, .verify, .start, none⟩, ⟨j.name, j.path, .verify, .failed, some g⟩] ∧
            v4.user.2 = v.user.2 ++ told := by
        intro v4 h4
        exact ⟨g, _, prefix_rfl, by rw [h4, h3, h2, h1, h0, append_assoc]; rfl⟩
      exact .bind ((notify_logged _).weaken fun _ v4 h4 => hall v4 h4) fun _ v4 h4 => .throw (hall v4 h4)

namespace Plan

def labels (p : Plan) : List (Text × Text) := p.jobs.map fun j => (j.name, j.path)

lemma labels_update (hf : ∀ j, ((f j).name, (f j).path) = (j.name, j.path)) (p : Plan) (place) :
    (p.update place f).labels = p.labels := by
  refine ext_getElem? fun i => ?_
  simp only [labels, update, List.getElem?_map, List.getElem?_modify]
  by_cases hi : place = i <;> cases p.jobs[i]? <;> simp [hi, hf]

lemma getD_of_labels (h : p.labels[place]? = some (name, path)) :
    (p.jobs.getD place default).name = name ∧ (p.jobs.getD place default).path = path := by
  rw [labels, List.getElem?_map, Option.map_eq_some_iff] at h
  obtain ⟨j, hj, hlabel⟩ := h
  rw [getD_eq_getElem?_getD, hj]
  exact Prod.mk.inj hlabel

lemma construct_logged : Obeys v (construct t.logged p id place j)
    (fun p' v' => p'.graph = p.graph ∧ p'.labels = p.labels ∧ ∃ l, v'.user.2 = v.user.2 ++ l ∧ Turn j.name j.path l)
    fun _ _ => True := by
  refine .bind ((notify_logged _).weaken fun _ _ _ => trivial) fun _ v1 h1 => ?_
  refine .bind ((Act.attempt_obeys make_logged).weaken fun _ _ _ => trivial) fun r v2 h2 => ?_
  obtain ⟨m, rfl, h2⟩ | ⟨f, rfl, g, told, htold, h2⟩ := h2
  · refine .bind ((notify_logged _).weaken fun _ _ _ => trivial) fun _ v3 h3 => .pure ?_
    refine ⟨rfl, labels_update (by exact fun _ => rfl) p place, _, ?_, .built⟩
    rw [h3, h2, h1, append_assoc, append_assoc]
    rfl
  · by_cases hc : f.isCancelled
    · simp only [hc]
      exact trivial
    · simp only [hc]
      refine .bind ((notify_logged _).weaken fun _ _ _ => trivial) fun _ v3 h3 => .pure ?_
      refine ⟨rfl, labels_update (by exact fun _ => rfl) _ place, _, ?_, .failed f g htold⟩
      rw [h3, h2, h1]
      simp

def Tells (p : Plan) (id : ModuleId) (l : List ModuleEvent) : Prop :=
  ∀ place name path, p.graph.place? id = some place → p.labels[place]? = some (name, path) → Turn name path l

lemma step_logged (p) (id) : Obeys v (step t.logged p id)
    (fun p' v' => p'.graph = p.graph ∧ p'.labels = p.labels ∧ ∃ l, v'.user.2 = v.user.2 ++ l ∧ p.Tells id l)
    fun _ _ => True := by
  refine .bind checkpoint_logged fun _ v1 h1 => ?_
  cases hplace : p.graph.place? id with
  | none => exact .pure ⟨rfl, rfl, [], by simp [h1], fun _ _ _ h => by rw [hplace] at h; cases h⟩
  | some place =>
    -- What propagation finds is reported first, which changes no label.
    have hturn : ∀ q : Plan, q.graph = p.graph → q.labels = p.labels → Obeys v1
        (if (slotOf (p.graph.propagate p.slots id).1 id).broken then do
          t.logged.tell (q.jobs.getD place default) .build .skipped
          pure (q.update place fun j => { j with broken := true })
        else construct t.logged q id place (q.jobs.getD place default))
        (fun p' v' => p'.graph = p.graph ∧ p'.labels = p.labels ∧ ∃ l, v'.user.2 = v.user.2 ++ l ∧ p.Tells id l)
        fun _ _ => True := by
      intro q hgraph hlabels
      have htells : ∀ l, Turn (q.jobs.getD place default).name (q.jobs.getD place default).path l → p.Tells id l := by
        intro l hl place' name path hplace' hlabel
        cases hplace.symm.trans hplace'
        obtain ⟨hname, hpath⟩ := getD_of_labels (hlabels ▸ hlabel : q.labels[place]? = some (name, path))
        rwa [hname, hpath] at hl
      split
      · refine .bind ((notify_logged _).weaken fun _ _ _ => trivial) fun _ v2 h2 => .pure ?_
        exact ⟨hgraph, (labels_update (by exact fun _ => rfl) q place).trans hlabels, _, by rw [h2, h1], htells _ .skipped⟩
      · refine construct_logged.mono fun p' v2 ⟨hgraph', hlabels', l, hl, hl'⟩ => ?_
        exact ⟨hgraph'.trans hgraph, hlabels'.trans hlabels, l, by rw [hl, h1], htells l hl'⟩
    dsimp only
    cases (p.graph.propagate p.slots id).2 with
    | none => exact hturn _ rfl rfl
    | some d => exact hturn _ rfl (labels_update (by exact fun _ => rfl) _ place)

lemma foldlM_logged (ids) : ∀ (p) (v : World (σ × List ModuleEvent)),
    Obeys v (ids.foldlM (step t.logged) p) (fun _ v' => ∃ ls, v'.user.2 = v.user.2 ++ ls.flatten ∧
      Forall₂ p.Tells ids ls) fun _ _ => True := by
  induction ids with
  | nil => exact fun p v => .pure ⟨[], by simp, .nil⟩
  | cons id ids ih =>
    intro p v
    refine .bind (step_logged p id) fun p1 v1 ⟨hgraph, hlabels, l, hl, htells⟩ => ?_
    refine (ih p1 v1).mono fun p2 v2 ⟨ls, hls, hall⟩ => ?_
    refine ⟨l :: ls, by rw [hls, hl, flatten_cons, append_assoc], .cons htells (hall.imp ?_)⟩
    intro id' l' h
    unfold Tells at h ⊢
    rwa [hgraph, hlabels] at h

end Plan

end Records

/-! ### Files -/

section Files

variable {s : Sources} {d : Decoded} {place : Nat}

lemma labels_plan : s.plan.labels = s.decoded.map fun d => (d.name, d.path) := by
  have hcores := congrArg (List.map fun j : Job => (j.name, j.path)) s.alike.cores
  simp only [List.map_map] at hcores
  refine hcores.trans (List.map_congr_left fun d _ => Prod.ext job_name ?_)
  change (d.job _).1.path = d.path
  unfold Decoded.job
  cases d.module <;> rfl

lemma place_of_path (hnodup : (s.decoded.map Decoded.path).Nodup) {i k : Nat} (hd : s.decoded[i]? = some d)
    (hd' : s.decoded[k]? = some d') (hpath : d.path = d'.path) : i = k := by
  have hlt : i < (s.decoded.map Decoded.path).length := by simpa using (List.getElem?_eq_some_iff.1 hd).1
  exact (List.getElem?_inj hlt hnodup).1 (by simp [hd, hd', hpath])

def Sources.fileOf (s : Sources) (id : ModuleId) : Text :=
  ((s.plan.graph.place? id).bind (s.decoded[·]?)).elim [] Decoded.path

lemma fileOf_eq {id : ModuleId} (hplace : s.plan.graph.place? id = some place) (hd : s.decoded[place]? = some d) : s.fileOf id = d.path := by
  simp [Sources.fileOf, hplace, hd]

lemma exists_file {id : ModuleId} (hid : id ∈ s.plan.schedule.order) :
    ∃ i e, s.plan.graph.place? id = some i ∧ s.decoded[i]? = some e := by
  have hl := s.laid
  rw [hl.schedule] at hid
  obtain ⟨i, j, hi, hj, -⟩ := hl.job id ((Graph.mem_order hl.sound).1 hid).1
  have hlabel : s.plan.labels[i]? = some (j.name, j.path) := by simp [labels, hj]
  rw [labels_plan, List.getElem?_map, Option.map_eq_some_iff] at hlabel
  obtain ⟨e, he, -⟩ := hlabel
  exact ⟨i, e, hi, he⟩

section

variable (hnodup : (s.decoded.map Decoded.path).Nodup)

include hnodup

lemma files_nodup : (s.plan.schedule.order.map s.fileOf).Nodup := by
  have hl := s.laid
  have horder : s.plan.schedule.order.Nodup := by
    rw [hl.schedule]
    exact (nodup_append'.1 (Graph.order_append_stuck_nodup hl.sound)).1
  refine horder.map_on fun id hid id' hid' hfile => ?_
  obtain ⟨i, e, hi, he⟩ := exists_file hid
  obtain ⟨i', e', hi', he'⟩ := exists_file hid'
  rw [fileOf_eq hi he, fileOf_eq hi' he'] at hfile
  cases place_of_path hnodup he he' hfile
  exact hl.place_inj hi hi'

lemma reading_of_records
    (hread : Forall₂ Reading s.decoded ls) (hd : d ∈ s.decoded) : Reading d (ls.flatten.filter (·.file = d.path)) := by
  rcases filter_flatten (fun _ _ h => h.file) hread hnodup d.path with ⟨x, hx, hpath, hreading⟩ | ⟨hnot, -⟩
  · rwa [inj_on_of_nodup_map hnodup hx hd hpath] at hreading
  · exact absurd (mem_map_of_mem hd) hnot

lemma turn_of_records (hturns : Forall₂ s.plan.Tells s.plan.schedule.order ls) (hd : s.decoded[place]? = some d) :
    Ordered s place d ∧ Turn d.name d.path (ls.flatten.filter (·.file = d.path)) ∨
      ¬Ordered s place d ∧ ls.flatten.filter (·.file = d.path) = [] := by
  have hordered : Ordered s place d ↔ ∃ id ∈ s.plan.schedule.order,
      s.plan.graph.place? id = some place := by
    rw [s.graph_eq, s.alike.schedule]
    exact Iff.trans ⟨fun h => ⟨h.first, h.named, h.acyclic⟩, fun h => ⟨h.1, h.2.1, h.2.2⟩⟩ (ordered_iff hd)
  have hlabels : ∀ {i : Nat} {e : Decoded}, s.decoded[i]? = some e →
      s.plan.labels[i]? = some (e.name, e.path) := by
    intro i e he
    rw [labels_plan, List.getElem?_map, he, Option.map_some]
  have hall := (forall₂_and_left _ _).2 ⟨fun id hid => exists_file hid, hturns⟩
  have hfile : ∀ id l, ((∃ i e, s.plan.graph.place? id = some i ∧ s.decoded[i]? = some e) ∧
      s.plan.Tells id l) →
      ∀ e ∈ l, e.file = s.fileOf id := by
    rintro id l ⟨⟨i, e, hi, he⟩, htells⟩
    rw [fileOf_eq hi he]
    exact (htells _ _ _ hi (hlabels he)).file
  rcases filter_flatten hfile hall (files_nodup hnodup) d.path with ⟨id, hid, hfile, ⟨i, e, hi, he⟩, htells⟩ | ⟨hnot, hnil⟩
  · rw [fileOf_eq hi he] at hfile
    cases place_of_path hnodup he hd hfile
    exact .inl ⟨hordered.2 ⟨id, hid, hi⟩, htells _ _ _ hi (hlabels hd)⟩
  · refine .inr ⟨fun ho => hnot ?_, hnil⟩
    obtain ⟨id, hid, hi⟩ := hordered.1 ho
    exact mem_map.2 ⟨id, hid, fileOf_eq hi hd⟩

end

end Files

/-- In a build of files each file is heard of when it is read, and again at the turn of its module if that
has a place in the order; nothing else is told about it. One event ends it if it was read and its module
has a place, or neither. A file that could not be read and has a place in the order, under the name of the
file, is ended twice. One that was read but declares a module again, or whose module needs itself in the
end, is never ended. -/
theorem buildFiles_heard (w : Watch σ) (o : Options) (parent : Nat) (files : List Text) (before : World σ) :
    Obeys before (buildFiles w o parent files) (fun outcome after =>
      ∃ (p : Passes w o files before after) (read built : World (σ × List ModuleEvent)),
        outcome = p.plan.outcome (files.map (Path.absolute before.files.cwd)) ∧ read.alone = p.read ∧ built.alone = p.built ∧
        decodeFiles w.logged o.limit outcome.files (p.opened.handTo (p.opened.user, [])) = .ok p.sources.decoded read ∧
        p.sources.plan.run w.tools.logged (p.ordered.handTo (p.ordered.user, [])) = .ok p.plan built ∧
        p.sources.decoded.map Decoded.path = outcome.files ∧ (outcome.files.Nodup → ∀ place d, p.sources.decoded[place]? = some d →
          Heard (Ordered p.sources place d) d ((read.user.2 ++ built.user.2).filter (·.file = d.path)))) fun _ _ => True := by
  refine (buildFiles_passes w o parent files).mono ?_
  rintro outcome after ⟨p, rfl⟩
  obtain ⟨read, hread, hread'⟩ := (decodeFiles_shadows w o.limit _).exists_ok p.decodes []
  obtain ⟨built, hrun, hbuilt⟩ := (run_shadows (logged_shadows w.tools) _).exists_ok p.builds []
  have hpaths := ((decodeFiles_genuine w o.limit _).of_ok p.decodes).1
  obtain ⟨ls, hls, hreadings⟩ := (decodeFiles_logged o.limit _).of_ok hread
  obtain ⟨ls', hls', hturns⟩ := (Plan.foldlM_logged _ _ _).of_ok hrun
  refine ⟨p, read, built, rfl, hread', hbuilt, hread, hrun, hpaths, fun hnodup place d hd => ?_⟩
  have hnodup' : (p.sources.decoded.map Decoded.path).Nodup := hpaths ▸ hnodup
  have hturn := turn_of_records hnodup' hturns hd
  rw [hls, hls', List.filter_append]
  exact (reading_of_records hnodup' hreadings (List.mem_of_getElem? hd)).heard hturn

end Arbor.Project
