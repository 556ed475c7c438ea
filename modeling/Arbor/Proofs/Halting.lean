import Arbor.Proofs.Linking

/-! When a run comes to an end. Only instructions other than phis are counted, so the step limit
does not bound a run that goes round blocks without any. Such a run is the only one without an
end. -/

namespace Arbor

variable {c : State} {s : Store}

namespace Run

open IR Proofs Library

/-- A property of actions that putting them together keeps, and that holds of those which read or change
the machine. It then holds of every operation of a run but `sprintf`. -/
class Executes (P : {α : Type} → Exec α → Prop) : Prop extends Composes P where
  throw {α : Type} e : Has P (throw e : Exec α)
  alloc o : Has P (Exec.alloc o)
  print t : Has P (Exec.print t)
  textAddress s module index : Has P (Exec.textAddress s module index)
  load t v : Has P (Exec.load t v)
  store v p : Has P (Exec.store v p)
  readText func v : Has P (readText func v)
  formatted func template args : Has P (formatted func template args)
  free args : Has P (free args)

namespace Executes

attribute [instance] throw alloc print textAddress load store readText formatted free

variable {P : {α : Type} → Exec α → Prop} [Executes P]

instance (s f v) : Has P (Exec.eval s f v) := by
  unfold Exec.eval
  split
  case h_7 => split <;> infer_instance
  all_goals infer_instance

instance (s f vs) : Has P (Exec.evalAll s f vs) := by
  induction vs with
  | nil => exact ⟨Composes.pure _⟩
  | cons v vs ih => exact .bind

instance (c x y) : Has P (Exec.icmp c x y) := by
  cases c <;> cases x <;> cases y <;> first | exact ⟨Composes.pure _⟩ | exact throw _

instance (s f i) : Has P (Exec.compute s f i) := by
  unfold Exec.compute
  split
  case h_4 => exact .of_bind fun a => .of_bind fun b => by split <;> infer_instance
  all_goals infer_instance

instance (s f edges) : Has P (Exec.phi s f edges) := by
  unfold Exec.phi
  split <;> infer_instance

instance (s f hs) : Has P (Exec.phis s f hs) := by
  induction hs with
  | nil => exact ⟨Composes.pure _⟩
  | cons x hs ih =>
    unfold Exec.phis
    split <;> infer_instance

instance (args) : Has P (malloc args) := by
  unfold malloc
  split
  · split <;> infer_instance
  · infer_instance

instance (args) : Has P (printf args) := by
  unfold printf
  split <;> infer_instance

instance (args) : Has P (strlen args) := by
  unfold strlen
  split <;> infer_instance

instance (args) : Has P (puts args) := by
  unfold puts
  split <;> infer_instance

instance (args) : Has P (Library.print args) := by
  unfold Library.print
  split <;> infer_instance

lemma find? (hbody : Library.find? name = some body) :
    (name = Text.ofString "sprintf" ∧ body = sprintf) ∨ ∀ args, P (body args) := by
  obtain ⟨before, behind, htable, -⟩ := List.lookup_eq_some_iff.1 hbody
  have hmem := List.mem_append_right before (List.mem_cons_self (a := (name, body)) (l := behind))
  rw [← htable] at hmem
  simp only [List.mem_cons, Prod.mk.injEq, List.not_mem_nil, or_false] at hmem
  obtain ⟨-, rfl⟩ | ⟨-, rfl⟩ | ⟨-, rfl⟩ | hsprintf | ⟨-, rfl⟩ | ⟨-, rfl⟩ | ⟨-, rfl⟩ := hmem
  case inr.inr.inr.inl => exact .inl hsprintf
  all_goals exact .inr fun args => Has.out

end Executes

def Uncounted (m m' : Machine) : Prop := m'.steps = m.steps

instance : IsPreorder Machine Uncounted where
  refl _ := rfl
  trans _ _ _ h h' := Eq.trans h' h

def Uncounting {α : Type} (a : Exec α) : Prop := ∀ m, Along Uncounted m a

instance : Composes Uncounting where
  pure _ _ := .pure trivial
  bind ha hf m := (ha m).bind fun x m' _ _ => hf x m'

instance {α : Type} (e) : Has Uncounting (throw e : Exec α) := ⟨fun _ => .throw⟩

instance : Has Uncounting (get : Exec Machine) := ⟨fun _ => ⟨rfl, trivial⟩⟩

instance (f : Machine → Memory) : Has Uncounting (modify fun m => { m with memory := f m } : Exec PUnit) :=
  ⟨fun _ => .modify rfl trivial⟩

instance (func v) : Has Uncounting (readText func v) := .of_bind fun m => by split <;> infer_instance

instance (func template args) : Has Uncounting (formatted func template args) := .of_bind fun t => .of_bind fun m => by
  split <;> infer_instance

instance : Executes Uncounting where
  throw _ := inferInstance
  alloc _ := ⟨fun _ => .modifyGet rfl trivial⟩
  print _ := ⟨fun _ => Along.bind (.modify rfl trivial) fun _ _ _ (_ : True) => .pure trivial⟩
  textAddress _ module index := ⟨fun m => by
    refine along_get_bind.2 ?_
    cases m.texts[(module, index)]? with
    | some id => exact .pure trivial
    | none => exact .modifyGet rfl trivial⟩
  load t v := by
    unfold Exec.load
    split
    · exact .of_bind fun m => by split <;> infer_instance
    · infer_instance
  store v p := by
    unfold Exec.store
    split
    · exact .of_bind fun m => by split <;> infer_instance
    · infer_instance
  readText _ _ := inferInstance
  formatted _ _ _ := inferInstance
  free args := by
    unfold free
    split
    · exact .of_bind fun m => by split <;> infer_instance
    all_goals infer_instance

instance (args) : Has Uncounting (sprintf args) := by
  unfold sprintf
  split <;> infer_instance

lemma uncounted {α : Type} {a : Exec α} [h : Has Uncounting a] : Along Uncounted m a := h.out m

lemma find?_uncounted (h : find? name = some body) (args) : Along Uncounted m (body args) := by
  obtain ⟨-, rfl⟩ | hbody := Executes.find? (P := Uncounting) h
  · exact uncounted
  · exact hbody args m

end Run

namespace IR.Store

def counted (s : Store) (b : BlockInfo) : List Handle :=
  b.insts.toList.filter fun h => !((s.inst? h).any fun i => i.inst.isPhi)

def Idle (s : Store) (h : Handle) : Prop := ∃ b, s.block? h = some b ∧ s.counted b = []

def IdleEdge (s : Store) (h h' : Handle) : Prop :=
  ∃ b e, s.block? h = some b ∧ s.counted b = [] ∧ b.ending = some e ∧ h' ∈ e.terminator.successors

lemma Idle.lt_size (hi : s.Idle h) : h < s.entries.size := by
  obtain ⟨b, hb, -⟩ := hi
  refine lt_size_of_entry_ne fun hr => ?_
  rw [block?_eq_some, hr] at hb
  cases hb

end IR.Store

namespace Run

open IR Proofs

/-- Where a run stands: the function that runs, the calls that wait for it, and the machine. -/
structure State where
  frame : Frame
  callers : List Frame
  machine : Machine

namespace Image

variable (img : Image)

/-- Where a run stands after a number of transitions, unless it has ended before. -/
def after : Nat → State → Option State
  | 0, c => some c
  | n + 1, c =>
    match img.step c.frame c.callers c.machine with
    | .ok (.go g callers) m => after n ⟨g, callers, m⟩
    | _ => none

lemma after_add (n k c) : img.after (n + k) c = (img.after n c).bind (img.after k) := by
  induction n generalizing c with
  | zero => simp [after]
  | succ n ih =>
    rw [Nat.add_right_comm, after, after]
    split
    · exact ih _
    · rfl

lemma run_isSome_iff (f callers m) : (img.run f callers m).isSome ↔ ∃ n, img.after n ⟨f, callers, m⟩ = none := by
  constructor
  · intro h
    obtain ⟨r, hr⟩ := Option.isSome_iff_exists.1 h
    refine run.partial_correctness img (fun f callers m _ => ∃ n, img.after n ⟨f, callers, m⟩ = none) ?_
      f callers m r hr
    intro run ih f callers m r hr
    cases hs : img.step f callers m with
    | error t m' => exact ⟨1, by simp [after, hs]⟩
    | ok x m' =>
      cases x with
      | halt v => exact ⟨1, by simp [after, hs]⟩
      | go g callers' =>
        rw [hs] at hr
        obtain ⟨n, hn⟩ := ih g callers' m' r hr
        exact ⟨n + 1, by simpa [after, hs] using hn⟩
  · rintro ⟨n, hn⟩
    induction n generalizing f callers m with
    | zero => cases hn
    | succ n ih =>
      rw [run.eq_1]
      cases hs : img.step f callers m with
      | error t m' => rfl
      | ok x m' =>
        cases x with
        | halt v => rfl
        | go g callers' => exact ih g callers' m' (by simpa [after, hs] using hn)

inductive Moves (c d : State) : Prop
  | counts (room : c.machine.steps < img.maxSteps) (steps : d.machine.steps = c.machine.steps + 1)
  | returns (steps : d.machine.steps = c.machine.steps) (callers : d.callers.length < c.callers.length)
  | enters (b : BlockInfo) (steps : d.machine.steps = c.machine.steps) (callers : d.callers = c.callers)
      (fresh : c.frame.rest = none) (block : img.store.block? c.frame.block = some b)
      (here : d.frame.block = c.frame.block) (rest : d.frame.rest = some (img.store.counted b))
  | leaves (b : BlockInfo) (e : IR.Ending) (steps : d.machine.steps = c.machine.steps)
      (callers : d.callers = c.callers) (done : c.frame.rest = some [])
      (block : img.store.block? c.frame.block = some b) (ending : b.ending = some e)
      (target : d.frame.block ∈ e.terminator.successors) (fresh : d.frame.rest = none)

variable {img}

lemma enter_along (f b) :
    Along Uncounted m (img.enter f b) fun g _ => g.block = f.block ∧ g.rest = some (img.store.counted b) := by
  refine uncounted.bind fun _ _ _ _ => .pure ⟨rfl, ?_⟩
  have hphi h : img.isPhi h = (img.store.inst? h).any fun i => i.inst.isPhi := by
    unfold isPhi
    cases img.store.inst? h <;> rfl
  simp only [Store.counted, hphi]

lemma giveBack_length (h : img.giveBack v callers = .go g callers') : callers'.length < callers.length := by
  cases callers with
  | nil => cases h
  | cons f callers =>
    simp only [giveBack] at h
    split at h <;> (cases h; simp)

lemma leave_along (f callers b) :
    Along Uncounted m (img.leave f callers b) fun x _ => ∀ g callers', x = .go g callers' →
      callers'.length < callers.length ∨ ∃ e, b.ending = some e ∧ callers' = callers ∧
        g.block ∈ e.terminator.successors ∧ g.rest = none := by
  unfold leave
  cases he : b.ending with
  | none => exact .throw
  | some e =>
    cases ht : e.terminator with
    | ret v =>
      cases v with
      | none =>
        simp only [Option.map_some, ht]
        exact .pure fun g callers' hg => .inl (giveBack_length hg)
      | some v =>
        simp only [Option.map_some, ht]
        exact uncounted.bind fun _ _ _ _ => .pure fun g callers' hg => .inl (giveBack_length hg)
    | br target =>
      simp only [Option.map_some, ht]
      refine .pure fun g callers' hg => .inr ⟨e, rfl, ?_⟩
      cases hg
      simp [ht, Frame.goto, Terminator.successors]
    | condBr cond yes no =>
      simp only [Option.map_some, ht]
      refine uncounted.bind fun x _ _ _ => .pure fun g callers' hg => .inr ⟨e, rfl, ?_⟩
      cases hg
      by_cases hx : x.toInt ≠ 0 <;> simp [ht, hx, Frame.goto, Terminator.successors]

lemma invoke_uncounted (f callers call rest ty)
    (callee args) : Along Uncounted m (img.invoke f callers call rest ty callee args) := by
  unfold invoke
  cases img.store.func? callee with
  | none => exact .throw
  | some info =>
    refine .ite (fun _ => ?_) fun _ => .ite (fun _ => .throw) fun _ => .pure trivial
    split
    · exact .throw
    · next body hb => exact (find?_uncounted hb args).bind fun _ _ _ _ => .pure trivial

lemma execute_along (f callers h rest) :
    Along (fun m m' => m'.steps = m.steps + 1) m (img.execute f callers h rest) fun _ _ =>
      m.steps < img.maxSteps := by
  refine along_modify_bind.2 ((?_ : Along Uncounted _ _ _).weaken fun _ r => r)
  refine along_get_bind.2 (.ite (fun _ => .throw) fun hroom => ?_)
  have room : m.steps < img.maxSteps := Nat.lt_of_lt_of_le (Nat.lt_succ_self _) (Nat.le_of_not_lt hroom)
  cases img.store.inst? h with
  | none => exact .pure room
  | some i =>
    simp only
    split
    · refine uncounted.bind fun v _ _ _ => ?_
      split
      · refine uncounted.bind fun _ _ _ _ => ?_
        exact (invoke_uncounted _ _ _ _ _ _ _).mono fun _ _ _ _ => room
      · exact .throw
    · exact uncounted.bind fun _ _ _ _ => .pure room
    · exact uncounted.bind fun _ _ _ _ => .pure room

lemma step_moves
    (h : img.step c.frame c.callers c.machine = .ok (.go g callers) m) : img.Moves c ⟨g, callers, m⟩ := by
  unfold step at h
  cases hb : img.store.block? c.frame.block with
  | none => rw [hb] at h; cases h
  | some b =>
    rw [hb] at h
    cases hr : c.frame.rest with
    | none =>
      simp only [hr] at h
      have along : Along Uncounted c.machine (do let f ← img.enter c.frame b; pure (Next.go f c.callers))
          fun x _ => ∀ g callers, x = .go g callers →
            callers = c.callers ∧ g.block = c.frame.block ∧ g.rest = some (img.store.counted b) :=
        (enter_along c.frame b).bind fun f _ _ hf => .pure fun g callers hx => by
          cases hx
          exact ⟨rfl, hf⟩
      obtain ⟨steps, hx⟩ := along.of_ok h
      obtain ⟨hcallers, hhere, hrest⟩ := hx g callers rfl
      exact .enters b steps hcallers hr hb hhere hrest
    | some l =>
      cases l with
      | nil =>
        simp only [hr] at h
        obtain ⟨steps, hx⟩ := (leave_along c.frame c.callers b).of_ok h
        obtain hlt | ⟨e, he, hcallers, htarget, hfresh⟩ := hx g callers rfl
        · exact .returns steps hlt
        · exact .leaves b e steps hcallers hr hb he htarget hfresh
      | cons i rest =>
        simp only [hr] at h
        obtain ⟨steps, room⟩ := (execute_along c.frame c.callers i rest).of_ok h
        exact .counts room steps

lemma after_one (h : img.after 1 c = some d) : img.Moves c d := by
  unfold after at h
  split at h
  case h_1 g callers m hs =>
    cases h
    exact step_moves hs
  case h_2 => cases h

lemma after_succ (h : img.after (n + 1) c = some e) : ∃ d, img.after n c = some d ∧ img.Moves d e := by
  rw [after_add] at h
  obtain ⟨d, hd, he⟩ := Option.bind_eq_some_iff.1 h
  exact ⟨d, hd, after_one he⟩

def Less (img : Image) (d c : State) : Prop :=
  Prod.Lex (· < ·) (· < ·) (img.maxSteps - d.machine.steps, d.callers.length)
    (img.maxSteps - c.machine.steps, c.callers.length)

def Stays (c d : State) : Prop := d.machine.steps = c.machine.steps ∧ d.callers = c.callers

lemma Moves.stays_or_less (h : img.Moves c d) : Stays c d ∨ img.Less d c := by
  cases h with
  | counts room steps => exact .inr (.left _ _ (by omega))
  | returns steps callers =>
    refine .inr ?_
    unfold Less
    rw [steps]
    exact .right _ callers
  | enters _ steps callers | leaves _ _ steps callers => exact .inl ⟨steps, callers⟩

lemma Less.trans (h : img.Less e d) (k : img.Less d c) : img.Less e c := by
  simp only [Less] at *
  omega

lemma Less.of_stays (h : img.Less d c) (k : Stays d e) : img.Less e c := by
  unfold Less
  rw [k.1, k.2]
  exact h

lemma after_stays_or_less (h : img.after n c = some d) : Stays c d ∨ img.Less d c := by
  induction n generalizing d with
  | zero =>
    cases h
    exact .inl ⟨rfl, rfl⟩
  | succ n ih =>
    obtain ⟨e, he, hmoves⟩ := after_succ h
    obtain hs | hl := ih he
    · obtain hs' | hl' := hmoves.stays_or_less
      · exact .inl ⟨hs'.1.trans hs.1, hs'.2.trans hs.2⟩
      · refine .inr ?_
        unfold Less at *
        rwa [hs.1, hs.2] at hl'
    · obtain hs' | hl' := hmoves.stays_or_less
      · exact .inr (hl.of_stays hs')
      · exact .inr (hl'.trans hl)

/-- From here on the run goes round blocks in which nothing is counted, inside one call. -/
def Circles (img : Image) (c : State) : Prop :=
  ∀ n, ∃ d, img.after n c = some d ∧ Stays c d ∧ img.store.Idle d.frame.block

lemma circles_of_stays (h : ∀ n, ∃ d, img.after n c = some d ∧ Stays c d) (hfresh : c.frame.rest = none) :
    img.Circles c := by
  -- Every place is either before a block whose instructions are all phis, or at its end.
  have moves n d (hd : img.after n c = some d) :
      ∃ e, img.after (n + 1) c = some e ∧ img.Moves d e ∧ Stays d e := by
    obtain ⟨e, he, hse⟩ := h (n + 1)
    obtain ⟨d', hd', hm⟩ := after_succ he
    obtain ⟨d'', hd'', hsd⟩ := h n
    cases hd.symm.trans hd'
    cases hd.symm.trans hd''
    exact ⟨e, he, hm, hse.1.trans hsd.1.symm, hse.2.trans hsd.2.symm⟩
  have idle_of_fresh n d (hd : img.after n c = some d) (hr : d.frame.rest = none) :
      img.store.Idle d.frame.block := by
    obtain ⟨e, he, hm, hs⟩ := moves n d hd
    obtain ⟨e', he', hm', hs'⟩ := moves (n + 1) e he
    cases hm with
    | counts _ steps => have := hs.1; omega
    | returns _ callers => rw [hs.2] at callers; omega
    | leaves b x _ _ done => rw [hr] at done; cases done
    | enters b _ _ _ block here rest =>
      refine ⟨b, block, ?_⟩
      cases hm' with
      | counts _ steps => have := hs'.1; omega
      | returns _ callers => rw [hs'.2] at callers; omega
      | enters _ _ _ fresh => rw [rest] at fresh; cases fresh
      | leaves _ _ _ _ done =>
        rw [rest] at done
        exact Option.some.inj done
  have key n : ∀ d, img.after n c = some d →
      img.store.Idle d.frame.block ∧ (d.frame.rest = none ∨ d.frame.rest = some []) := by
    induction n with
    | zero =>
      intro d hd
      have hr : d.frame.rest = none := by cases hd; exact hfresh
      exact ⟨idle_of_fresh 0 d hd hr, .inl hr⟩
    | succ n ih =>
      intro e he
      obtain ⟨d, hd, hm⟩ := after_succ he
      obtain ⟨e', he', -, hs⟩ := moves n d hd
      cases he.symm.trans he'
      cases hm with
      | counts _ steps => have := hs.1; omega
      | returns _ callers => rw [hs.2] at callers; omega
      | leaves b x _ _ _ _ _ _ fresh => exact ⟨idle_of_fresh _ e he fresh, .inl fresh⟩
      | enters b _ _ _ block here rest =>
        obtain ⟨b', hb', hi⟩ := (ih d hd).1
        cases block.symm.trans hb'
        exact ⟨here ▸ ⟨b, block, hi⟩, .inr (by rw [rest, hi])⟩
  intro n
  obtain ⟨d, hd, hs⟩ := h n
  exact ⟨d, hd, hs, (key n d hd).1⟩

lemma exists_circles (h : ∀ n, img.after n c ≠ none) : ∃ n d, img.after n c = some d ∧ img.Circles d := by
  have hwf : WellFounded img.Less := InvImage.wf (fun c : State => (img.maxSteps - c.machine.steps, c.callers.length))
    (Prod.lex Nat.lt_wfRel Nat.lt_wfRel).wf
  induction c using hwf.induction with
  | _ c ih =>
    have goes n : ∃ d, img.after n c = some d := Option.ne_none_iff_exists'.1 (h n)
    by_cases hstay : ∀ n d, img.after n c = some d → Stays c d
    · -- Nothing is counted from here on: at most one block is left before the first fresh one.
      obtain ⟨d, hd⟩ := goes 1
      have hm := after_one hd
      have hs := hstay 1 d hd
      have circles k e (he : img.after k c = some e) (hr : e.frame.rest = none) :
          ∃ n d, img.after n c = some d ∧ img.Circles d := by
        refine ⟨k, e, he, circles_of_stays (fun n => ?_) hr⟩
        obtain ⟨x, hx⟩ := goes (k + n)
        have hs' := hstay _ x hx
        have hse := hstay _ e he
        rw [after_add, he] at hx
        exact ⟨x, hx, hs'.1.trans hse.1.symm, hs'.2.trans hse.2.symm⟩
      cases hm with
      | counts _ steps => have := hs.1; omega
      | returns _ callers => rw [hs.2] at callers; omega
      | enters b _ _ fresh => exact circles 0 c rfl fresh
      | leaves b e _ _ _ _ _ _ fresh => exact circles 1 d hd fresh
    · push Not at hstay
      obtain ⟨n, d, hd, hne⟩ := hstay
      have hless := (after_stays_or_less hd).resolve_left hne
      obtain ⟨k, e, he, hc⟩ := ih d hless fun k hk => by
        refine h (n + k) ?_
        rw [after_add, hd]
        exact hk
      exact ⟨n + k, e, by rw [after_add, hd]; exact he, hc⟩

lemma run_eq_none_iff (f callers m) :
    img.run f callers m = none ↔ ∃ n d, img.after n ⟨f, callers, m⟩ = some d ∧ img.Circles d := by
  rw [← Option.not_isSome_iff_eq_none, run_isSome_iff, not_exists]
  constructor
  · exact exists_circles
  · rintro ⟨n, d, hd, hc⟩ k hk
    obtain ⟨e, he, -⟩ := hc k
    have hsome : img.after (n + k) ⟨f, callers, m⟩ = some e := by rw [after_add, hd]; exact he
    rw [Nat.add_comm, after_add, hk] at hsome
    cases hsome

lemma Circles.next (hc : img.Circles c) (hd : img.after n c = some d) (he : img.after (n + 1) c = some e) :
    (d.frame.rest = none ∧ e.frame.block = d.frame.block ∧ e.frame.rest ≠ none) ∨
      (d.frame.rest ≠ none ∧ img.store.IdleEdge d.frame.block e.frame.block ∧ e.frame.rest = none) := by
  obtain ⟨d', hd', hsd, b, hb, hi⟩ := hc n
  obtain ⟨e', he', hse, -⟩ := hc (n + 1)
  cases hd.symm.trans hd'
  cases he.symm.trans he'
  obtain ⟨d', hd', hm⟩ := after_succ he
  cases hd.symm.trans hd'
  cases hm with
  | counts _ steps => have h1 := hsd.1; have h2 := hse.1; omega
  | returns _ callers => rw [hsd.2, hse.2] at callers; omega
  | enters _ _ _ fresh _ here rest => exact .inl ⟨fresh, here, by simp [rest]⟩
  | leaves b' x _ _ done block ending target fresh =>
    cases hb.symm.trans block
    exact .inr ⟨by simp [done], ⟨b, x, hb, hi, ending, target⟩, fresh⟩

lemma Circles.edge (hc : img.Circles c) (hd : img.after n c = some d)
    (he : img.after (n + 2) c = some e) : img.store.IdleEdge d.frame.block e.frame.block := by
  obtain ⟨x, hx, -⟩ := hc (n + 1)
  obtain ⟨-, hhere, hrest⟩ | ⟨-, hedge, hfresh⟩ := hc.next hd hx
  · obtain ⟨hfresh, -⟩ | ⟨-, hedge, -⟩ := hc.next hx he
    · exact absurd hfresh hrest
    · exact hhere ▸ hedge
  · obtain ⟨-, hhere, -⟩ | ⟨hrest, -⟩ := hc.next hx he
    · exact hhere ▸ hedge
    · exact absurd hfresh hrest

lemma Circles.cycle (hc : img.Circles c) : ∃ h, Relation.TransGen img.store.IdleEdge h h := by
  choose d hd hs hi using hc
  have path (i k : Nat) : Relation.TransGen img.store.IdleEdge (d (2 * i)).frame.block (d (2 * (i + k + 1))).frame.block := by
    have edge j : img.store.IdleEdge (d (2 * j)).frame.block (d (2 * (j + 1))).frame.block :=
      Circles.edge (fun n => ⟨d n, hd n, hs n, hi n⟩) (hd (2 * j)) (hd (2 * j + 2))
    induction k with
    | zero => exact .single (edge i)
    | succ k ih => exact ih.tail (edge (i + k + 1))
  obtain ⟨i, j, hij, heq⟩ := Finite.exists_ne_map_eq_of_infinite fun n : Nat =>
    (⟨(d (2 * n)).frame.block, (hi (2 * n)).lt_size⟩ : Fin img.store.entries.size)
  have heq : (d (2 * i)).frame.block = (d (2 * j)).frame.block := congrArg Fin.val heq
  obtain hlt | hlt := Nat.lt_or_gt_of_ne hij
  · obtain ⟨k, rfl⟩ := Nat.exists_eq_add_of_lt hlt
    exact ⟨_, heq ▸ path i k⟩
  · obtain ⟨k, rfl⟩ := Nat.exists_eq_add_of_lt hlt
    exact ⟨_, heq ▸ path j k⟩

end Image

/-- A program is ready to run: its module is sound and has a function `main` without parameters. -/
structure Starts (s : Store) (entry : Handle) (maxSteps : Nat) (img : Image) (c : State) : Prop where
  ready : ∃ m h f, s.module? entry = some m ∧ m.dropped = false ∧ s.defects entry m = [] ∧
    (link s entry m)[Text.ofString "main"]? = some h ∧ s.func? h = some f ∧ f.module = entry ∧
    f.params.size = 0 ∧ img = { store := s, defs := link s entry m, maxSteps } ∧
    c = ⟨Image.frameFor h f [] [] 0, [], {}⟩

lemma Starts.store (h : Starts s entry maxSteps img c) : img.store = s := by
  obtain ⟨m, h, f, -, -, -, -, -, -, -, rfl, -⟩ := h.ready
  rfl

def outcome : Option (Image.Ending × Machine) → Except Failure Int64 × Text
  | none => (.error .unfinished, [])
  | some (.finished (.int n), machine) => (.ok n, machine.printed)
  | some (.finished _, machine) => (.ok 0, machine.printed)
  | some (.trapped calls t, machine) => (.error (.trapped calls t), machine.printed)

lemma Starts.program_eq (h : Starts s entry maxSteps img c) :
    program s entry maxSteps = outcome (img.run c.frame c.callers c.machine) := by
  obtain ⟨m, x, f, hm, hdropped, hdefects, hmain, hf, hmodule, hparams, rfl, rfl⟩ := h.ready
  have hbind : ((link s entry m)[Text.ofString "main"]?.bind fun h => (s.func? h).map fun f => (h, f)) = some (x, f) := by
    simp [hmain, hf]
  simp only [program, hm, hdropped, hdefects, hbind, hmodule, hparams, List.isEmpty_nil]
  simp only [Bool.false_eq_true, Bool.not_true, ne_eq, not_true_eq_false, if_false]
  split
  · next hr => rw [hr]; rfl
  · next ending machine hr =>
    rw [hr]
    cases ending with
    | finished v => cases v <;> rfl
    | trapped calls t => rfl

lemma starts_of_unfinished (h : (program s entry maxSteps).1 = .error .unfinished) :
    ∃ img c, Starts s entry maxSteps img c := by
  unfold program at h
  cases hm : s.module? entry with
  | none => simp [hm] at h
  | some m =>
    simp only [hm] at h
    split_ifs at h with hdropped hdefects
    · cases h
    · cases h
    split at h
    · cases h
    · next x f hmain =>
      obtain ⟨y, hy, hf⟩ := Option.bind_eq_some_iff.1 hmain
      obtain ⟨f', hf', heq⟩ := Option.map_eq_some_iff.1 hf
      cases heq
      split_ifs at h with hmodule hparams
      · cases h
      · cases h
      exact ⟨_, _, m, x, f, hm, by simpa using hdropped, by simpa using hdefects, hy, hf',
        by simpa using hmodule, by simpa using hparams, rfl, rfl⟩

/-- The step limit bounds every run but those that come to go round blocks in which nothing is
counted, inside one call; a program without a cycle of such blocks always ends. -/
theorem program_unfinished_iff (s : Store) (entry : Handle) (maxSteps : Nat) :
    ((program s entry maxSteps).1 = .error .unfinished ↔ ∃ img c n d, Starts s entry maxSteps img c ∧
      img.after n c = some d ∧ img.Circles d) ∧ ((∀ h, ¬Relation.TransGen s.IdleEdge h h) →
      (program s entry maxSteps).1 ≠ .error .unfinished) := by
  have circles : (program s entry maxSteps).1 = .error .unfinished → ∃ img c n d,
      Starts s entry maxSteps img c ∧ img.after n c = some d ∧ img.Circles d := by
    intro h
    obtain ⟨img, c, hstart⟩ := starts_of_unfinished h
    have hnone : img.run c.frame c.callers c.machine = none := by
      rw [hstart.program_eq] at h
      revert h
      cases img.run c.frame c.callers c.machine with
      | none => exact fun _ => rfl
      | some r =>
        obtain ⟨ending, m⟩ := r
        cases ending with
        | finished v => cases v <;> nofun
        | trapped calls t => nofun
    obtain ⟨n, d, hd, hc⟩ := (Image.run_eq_none_iff _ _ _).1 hnone
    exact ⟨img, c, n, d, hstart, hd, hc⟩
  refine ⟨⟨circles, ?_⟩, fun hcycle h => ?_⟩
  · rintro ⟨img, c, n, d, hstart, hd, hc⟩
    have hnone := (Image.run_eq_none_iff c.frame c.callers c.machine).2 ⟨n, d, hd, hc⟩
    rw [hstart.program_eq, hnone]
    rfl
  · obtain ⟨img, c, n, d, hstart, -, hc⟩ := circles h
    obtain ⟨x, hx⟩ := hc.cycle
    exact hcycle x (hstart.store ▸ hx)

lemma initial_types_func (r ps v) : Store.initial.types[(TypeKey.func r ps v).text]? = none := by
  refine Option.eq_none_iff_forall_ne_some.2 fun h hh => ?_
  obtain ⟨t, ht⟩ := (Store.initial_types_iff _ _).1 hh
  simp [Store.primitiveHandles, Store.primitives] at ht

lemma func_new (hr : s.type? h = some r) (hnew : s.types[(TypeKey.func h [] false).text]? = none) :
    Emit.func h [] false s = .ok s.entries.size { s with
      entries := s.entries.push (.type (.func r [] false)),
      types := s.types.insert (TypeKey.func h [] false).text s.entries.size } := by
  have hintern : Emit.func h [] false s = Emit.internKey (.func h [] false) (.func r [] false) s := by
    rw [Emit.func, get_bind_apply, hr]
    dsimp only
    rw [get_bind_apply, hnew]
    rfl
  rw [hintern, Emit.internKey, get_bind_apply, hnew]
  rfl

def idleLoop : Emit Handle := do
  let m ← Emit.makeModule [109, 97, 105, 110]
  let t ← Emit.func 4 [] false
  let f ← Emit.declareFunc m [109, 97, 105, 110] t
  let b ← Emit.createBlock f [101]
  Emit.setActiveBlock b
  let _ ← Emit.jump b
  pure m

def idleModule : ModuleInfo := { name := [109, 97, 105, 110], funcs := #[13], declared := [([109, 97, 105, 110], 13)] }

def idleStart : Store :=
  { Store.initial with entries := Store.initial.entries.push (.module { name := [109, 97, 105, 110] }) }

def idleStore : Store where
  entries := Store.initial.entries ++ #[.module idleModule, .type (.func .i32 [] false),
    .func { ident := { name := [109, 97, 105, 110] }, module := 11, ret := .i32, params := #[], variadic := false,
            blocks := #[14], locals := [([101], 1)] },
    .block { ident := { name := [101] }, func := 13, ending := some ⟨15, .br 14⟩ }, .ending 14]
  types := Store.initial.types.insert (TypeKey.func 4 [] false).text 12
  values := {}
  active := some 14

lemma idleLoop_eq : idleLoop Store.initial = .ok 11 idleStore := by
  have hmodule : Emit.makeModule [109, 97, 105, 110] Store.initial = .ok 11 idleStart := rfl
  have hfunc := func_new (s := idleStart) (h := 4) rfl (initial_types_func _ _ _)
  simp only [idleLoop, bind, EStateM.bind, hmodule, hfunc]
  rfl

theorem idleLoop_unfinished : ∃ s m info, idleLoop Store.initial = .ok m s ∧ s.module? m = some info ∧
    s.defects m info = [] ∧ ∀ maxSteps, (program s m maxSteps).1 = .error .unfinished := by
  refine ⟨idleStore, 11, idleModule, idleLoop_eq, rfl, rfl, fun maxSteps => ?_⟩
  let img : Image := ⟨idleStore, link idleStore 11 idleModule, maxSteps⟩
  let here (rest : Option (List Handle)) (previous : Handle) : State :=
    ⟨{ func := 13, block := 14, previous, rest, calls := [13], depth := 1 }, [], {}⟩
  have hmain : img.defs[Text.ofString "main"]? = some 13 := by
    rw [getElem?_link, show Text.ofString "main" = [109, 97, 105, 110] by decide +kernel]
    rfl
  have hidle : idleStore.Idle 14 := ⟨_, rfl, rfl⟩
  have enter (p : Handle) : img.after 1 (here none p) = some (here (some []) p) := rfl
  have leave (p : Handle) : img.after 1 (here (some []) p) = some (here none 14) := rfl
  have circles : img.Circles (here none 0) := by
    intro n
    suffices h : ∃ rest p, img.after n (here none 0) = some (here rest p) ∧ (rest = none ∨ rest = some []) by
      obtain ⟨rest, p, h, -⟩ := h
      exact ⟨_, h, ⟨rfl, rfl⟩, hidle⟩
    induction n with
    | zero => exact ⟨none, 0, rfl, .inl rfl⟩
    | succ n ih =>
      obtain ⟨rest, p, h, rfl | rfl⟩ := ih
      · exact ⟨some [], p, by rw [Image.after_add, h]; exact enter p, .inr rfl⟩
      · exact ⟨none, 14, by rw [Image.after_add, h]; exact leave p, .inl rfl⟩
  have hstart : Starts idleStore 11 maxSteps img (here none 0) :=
    ⟨idleModule, 13, _, rfl, rfl, rfl, hmain, rfl, rfl, rfl, rfl, rfl⟩
  have hnone := (@Image.run_eq_none_iff img (here none 0).frame (here none 0).callers
    (here none 0).machine).2 ⟨0, _, rfl, circles⟩
  rw [hstart.program_eq, hnone]
  rfl

end Run

end Arbor
