import Arbor.Proofs.Halting

/-! Freed memory. Nothing that a run does depends on what the cells of freed objects hold, and nothing but
`sprintf` changes them: it alone does not look whether its buffer was freed. -/

namespace Arbor.Proofs.Along

lemma traced {R : σ → σ → Prop} {s : σ} {a : EStateM ε σ α} {Q : α → σ → Prop}
    (h : Along R s a Q) : Along R s a fun x s' => a s = .ok x s' :=
  Obeys.imp h (fun _ _ hx h => ⟨h.1, hx⟩) fun _ _ => id

end Arbor.Proofs.Along

namespace Arbor.Run

open IR Proofs Library Object

/-! ## Objects -/

namespace Memory

variable {m : Memory} {id : Nat} {o x : Object}

lemma object?_alter (f) :
    (m.alter id f).object? id' = if id' = id then (m.object? id').map f else m.object? id' := by
  unfold alter object?
  by_cases h : id = 0
  · subst h
    by_cases h' : id' = 0 <;> simp [h']
  · by_cases h' : id' = 0
    · simp [h']
    · rw [if_neg h, if_neg h', if_neg h']
      have hiff : id - 1 = id' - 1 ↔ id' = id := by omega
      simp only [Array.getElem?_modify, hiff]

lemma object?_alter_live (f) (ho : m.object? id = some o) (hlive : ¬o.freed = true)
    (hx : m.object? id' = some x) (hfreed : x.freed = true) : (m.alter id f).object? id' = some x := by
  have hne : id' ≠ id := by
    rintro rfl
    cases Option.mem_unique hx ho
    exact hlive hfreed
  rw [object?_alter, if_neg hne, hx]

lemma ne_alloc (o) (h : m.object? id = some x) : id ≠ (m.alloc o).1 := by
  unfold object? at h
  by_cases hid : id = 0
  · rw [if_pos hid] at h
    cases h
  · rw [if_neg hid] at h
    obtain ⟨hlt, -⟩ := Array.getElem?_eq_some_iff.1 h
    simp only [alloc]
    omega

lemma object?_alloc (o) (h : m.object? id = some x) : (m.alloc o).2.object? id = some x := by
  unfold object? alloc at *
  by_cases hid : id = 0
  · rw [if_pos hid] at h
    cases h
  · rw [if_neg hid] at h ⊢
    obtain ⟨hlt, -⟩ := Array.getElem?_eq_some_iff.1 h
    rw [Array.getElem?_push, if_neg (by omega)]
    exact h

lemma object?_writeText_other (h : id' ≠ id) (t offset) : (m.writeText id offset t).object? id' = m.object? id' := by
  induction t generalizing m offset with
  | nil => rw [writeText, write, object?_alter, if_neg h]
  | cons b t ih => rw [writeText, ih, write, object?_alter, if_neg h]

lemma object?_writeText (t offset) (h : m.object? id = some x) :
    ∃ cells, (m.writeText id offset t).object? id = some { x with cells } := by
  induction t generalizing m x offset with
  | nil => exact ⟨_, by rw [writeText, write, object?_alter, if_pos rfl, h]; rfl⟩
  | cons b t ih =>
    have hwritten : (m.write id offset (.int (Int64.ofNat b.toNat))).object? id =
        some { x with cells := x.cells.insert offset (.int (Int64.ofNat b.toNat)) } := by
      rw [write, object?_alter, if_pos rfl, h]
      rfl
    obtain ⟨cells, hcells⟩ := ih (offset + 1) hwritten
    exact ⟨cells, hcells⟩

end Memory

/-! ## Forgetting the cells of freed objects -/

def Object.stripped (o : Object) : Object := if o.freed then { o with cells := {} } else o

@[simp] lemma freed_stripped (o : Object) : o.stripped.freed = o.freed := by
  unfold stripped
  split <;> rfl

@[simp] lemma stripped_stripped (o : Object) : o.stripped.stripped = o.stripped := by
  unfold stripped
  by_cases h : o.freed <;> simp [h]

lemma stripped_of_live {o : Object} (h : o.freed = false) : o.stripped = o := by simp [stripped, h]

namespace Memory

def forget (m : Memory) : Memory := ⟨m.objects.map Object.stripped⟩

variable (m : Memory)

lemma forget_object? (id) : m.forget.object? id = (m.object? id).map stripped := by
  unfold object? forget
  by_cases h : id = 0 <;> simp [h]

@[simp] lemma forget_forget : m.forget.forget = m.forget := by
  simp [forget, Function.comp_def]

lemma forget_alloc (o) : (m.alloc o).2.forget = (m.forget.alloc o).2.forget := by
  simp [forget, alloc, Function.comp_def]

lemma alloc_id_forget (o) : (m.forget.alloc o).1 = (m.alloc o).1 := by simp [forget, alloc]

lemma forget_alter (hf : ∀ o, (f o.stripped).stripped = (f o).stripped) (id) :
    (m.alter id f).forget = (m.forget.alter id f).forget := by
  unfold alter
  by_cases h : id = 0
  · rw [if_pos h, if_pos h, forget_forget]
  · rw [if_neg h, if_neg h]
    unfold forget
    congr 1
    refine Array.ext (by simp) fun i hi hi' => ?_
    simp only [Array.getElem_map, Array.getElem_modify]
    by_cases heq : id - 1 = i
    · simp [heq, hf]
    · simp [heq]

lemma forget_write (id offset : Nat) (v) : (m.write id offset v).forget = (m.forget.write id offset v).forget := by
  refine m.forget_alter (fun o => ?_) id
  by_cases h : o.freed
  · simp [stripped, h]
  · rw [stripped_of_live (o := o) (by simpa using h)]

lemma forget_free (id) : (m.free id).forget = (m.forget.free id).forget := by
  refine m.forget_alter (fun o => ?_) id
  by_cases h : o.freed <;> simp [stripped, h]

lemma forget_writeText (id t offset) : (m.writeText id offset t).forget = (m.forget.writeText id offset t).forget := by
  induction t generalizing m offset with
  | nil => exact m.forget_write id offset _
  | cons b t ih => rw [writeText, ih, forget_write, ← ih, writeText]

end Memory

def Machine.forget (m : Machine) : Machine := { m with memory := m.memory.forget }

@[simp] lemma Machine.forget_forget (m : Machine) : m.forget.forget = m.forget := by simp [forget]

/-! ## Actions that do not see freed cells -/

section

variable {α β : Type}

def seen : EStateM.Result Trap Machine α → EStateM.Result Trap Machine α
  | .ok x m => .ok x m.forget
  | .error e m => .error e m.forget

def Blind (a : Exec α) : Prop := ∀ m, seen (a m) = seen (a m.forget)

namespace Blind

lemma pure (x) : Blind (Pure.pure x : Exec α) := fun m => congrArg (EStateM.Result.ok x) m.forget_forget.symm

lemma throw (e : Trap) : Blind (throw e : Exec α) := fun m => congrArg (EStateM.Result.error e) m.forget_forget.symm

lemma bind {a : Exec α} (ha : Blind a) (hf : ∀ x, Blind (f x)) : Blind (a >>= f) := by
  intro m
  have h := ha m
  change seen (EStateM.bind a f m) = seen (EStateM.bind a f m.forget)
  unfold EStateM.bind
  cases hx : a m with
  | ok x m1 =>
    cases hy : a m.forget with
    | ok y m2 =>
      rw [hx, hy] at h
      injection h with hxy hm
      subst hxy
      rw [hf x m1, hf x m2, hm]
    | error e m2 =>
      rw [hx, hy] at h
      cases h
  | error e m1 =>
    cases hy : a m.forget with
    | ok y m2 =>
      rw [hx, hy] at h
      cases h
    | error e' m2 =>
      rw [hx, hy] at h
      injection h with he hm
      subst he
      exact congrArg (EStateM.Result.error e) hm

lemma get_bind (hf : ∀ m, f m = f m.forget) (h : ∀ m, Blind (f m)) : Blind (get >>= f) := by
  intro m
  change seen (f m m) = seen (f m.forget m.forget)
  rw [h m m, hf m]

lemma modifyGet (hx : ∀ m, (f m).1 = (f m.forget).1)
    (hm : ∀ m, (f m).2.forget = (f m.forget).2.forget) : Blind (modifyGet f : Exec α) := by
  intro m
  change EStateM.Result.ok (f m).1 (f m).2.forget = .ok (f m.forget).1 (f m.forget).2.forget
  rw [hx, hm]

lemma modify {f : Machine → Machine} (h : ∀ m, (f m).forget = (f m.forget).forget) :
    Blind (modify f : Exec PUnit) := modifyGet (fun _ => rfl) h

lemma ite [Decidable c] (ha : Blind a) (hb : Blind b) : Blind (if c then a else b) := by
  by_cases h : c
  · rwa [if_pos h]
  · rwa [if_neg h]

end Blind

end

/-! ## Actions that keep a freed object -/

def Keeps (id : Nat) (m m' : Machine) : Prop :=
  ∀ x, m.memory.object? id = some x → x.freed = true → m'.memory.object? id = some x

instance (id : Nat) : IsPreorder Machine (Keeps id) where
  refl _ _ h _ := h
  trans _ _ _ h k x hx hf := k x (h x hx hf) hf

def StaysFreed (id : Nat) (m m' : Machine) : Prop := ∀ x, m.memory.object? id = some x → x.freed = true →
    ∃ cells, m'.memory.object? id = some { x with cells }

instance (id : Nat) : IsPreorder Machine (StaysFreed id) where
  refl _ x h _ := ⟨x.cells, h⟩
  trans _ _ _ h k x hx hf := by
    obtain ⟨cells, hy⟩ := h x hx hf
    exact k { x with cells } hy hf

lemma Keeps.stays {id : Nat} (h : Keeps id m m') : StaysFreed id m m' :=
  fun x hx hf => ⟨x.cells, h x hx hf⟩

section

variable {α β : Type} {id : Nat}

structure Tame (a : Exec α) : Prop where
  blind : Blind a
  keeps : ∀ id m, Along (Keeps id) m a

namespace Tame

lemma pure (x) : Tame (Pure.pure x : Exec α) := ⟨.pure x, fun _ _ => .pure trivial⟩

lemma throw (e : Trap) : Tame (throw e : Exec α) := ⟨.throw e, fun _ _ => .throw⟩

lemma bind {a : Exec α} (ha : Tame a) (hf : ∀ x, Tame (f x)) : Tame (a >>= f) :=
  ⟨ha.blind.bind fun x => (hf x).blind, fun id m => (ha.keeps id m).bind fun x m' _ _ => (hf x).keeps id m'⟩

lemma get_bind (hf : ∀ m, f m = f m.forget) (h : ∀ m, Tame (f m)) : Tame (get >>= f) :=
  ⟨.get_bind hf fun m => (h m).blind, fun id m => along_get_bind.2 ((h m).keeps id m)⟩

end Tame

/-! ## What the operations of a run do to freed objects -/

namespace Exec

lemma alloc_tame (o) : Tame (alloc o) where
  blind := .modifyGet (fun m => congrArg (Value.ptr · 0) (m.memory.alloc_id_forget o).symm) fun m =>
    congrArg (fun memory => { m with memory }) (m.memory.forget_alloc o)
  keeps _ _ := .modifyGet (fun _ hx _ => Memory.object?_alloc o hx) trivial

lemma textAddress_tame (s module index) : Tame (textAddress s module index) := by
  refine .get_bind (fun m => rfl) fun m => ?_
  cases m.texts[(module, index)]? with
  | some object => exact .pure _
  | none =>
    refine ⟨.modifyGet (fun m => ?_) fun m => ?_, fun id m => .modifyGet (fun x hx _ => ?_) trivial⟩
    · exact congrArg (Value.ptr · 0) (m.memory.alloc_id_forget _).symm
    · simp only [Machine.forget, Memory.alloc_id_forget]
      exact congrArg (fun memory => ({ m with memory, texts := _ } : Machine)) (by
        rw [Memory.forget_writeText, Memory.forget_alloc, ← Memory.forget_writeText])
    · exact (Memory.object?_writeText_other (Memory.ne_alloc _ hx) _ _).trans (Memory.object?_alloc _ hx)

lemma lookup_forget (object) (m : Machine) : m.forget.memory.object? object = m.memory.object? object ∨
      ∃ x, m.memory.object? object = some x ∧ m.forget.memory.object? object = some x.stripped ∧ x.freed = true := by
  rw [Machine.forget, Memory.forget_object?]
  cases m.memory.object? object with
  | none => exact .inl rfl
  | some x =>
    by_cases hx : x.freed = true
    · exact .inr ⟨x, rfl, rfl, hx⟩
    · exact .inl (congrArg some (stripped_of_live (by simpa using hx)))

lemma load_tame (t) (v) : Tame (load t v) := by
  unfold load
  split
  case h_1 object offset =>
    refine .get_bind (fun m => ?_) fun m => ?_
    · obtain h | ⟨x, hx, hy, hfreed⟩ := lookup_forget object m
      · rw [h]
      · rw [hx, hy]
        simp only [freed_stripped, hfreed]
        rfl
    · split
      · exact .throw _
      · split
        · exact .throw _
        · exact .pure _
  case h_2 => exact .throw _

lemma store_tame (v p : Value) : Tame (store v p) := by
  unfold store
  split
  case h_1 object offset =>
    refine ⟨.get_bind (fun m => ?_) fun m => ?_, fun id m => along_get_bind.2 ?_⟩
    · obtain h | ⟨x, hx, hy, hfreed⟩ := lookup_forget object m
      · rw [h]
      · rw [hx, hy]
        simp
    · split
      · exact .throw _
      · exact .ite (.throw _) (.modify fun m =>
          congrArg (fun memory => { m with memory }) (m.memory.forget_write object offset v))
    · split
      · exact .throw
      · next o ho =>
        split
        · exact .throw
        · next hlive => exact .modify (fun x hx hfreed => Memory.object?_alter_live _ ho hlive hx hfreed) trivial
  case h_2 => exact .throw _

end Exec

namespace Library

lemma textOf_forget (m : Machine) (v) : textOf m.forget.memory v = textOf m.memory v := by
  unfold textOf
  split
  case h_1 object offset =>
    obtain h | ⟨x, hx, hy, hfreed⟩ := Exec.lookup_forget object m
    · rw [h]
    · rw [hx, hy]
      simp only [freed_stripped, hfreed]
      rfl
  case h_2 => rfl

lemma format_forget (m : Machine) (t) (args) : format m.forget.memory t args = format m.memory t args := by
  fun_induction format m.memory t args with
  | case1 => rw [format]
  | case2 args b t hb ih => rw [format, if_pos hb, ih]
  | case3 args b t hb h =>
    obtain rfl := not_not.1 hb
    rw [format_percent, h]
  | case4 args b t hb spec rest h ih =>
    obtain rfl := not_not.1 hb
    rw [format_percent, h]
    exact congrArg (· >>= _) ih
  | case5 b t hb spec verb rest h hv =>
    obtain rfl := not_not.1 hb
    rw [format_percent, h]
    exact if_neg hv
  | case6 b t hb spec verb rest h hv v args ih =>
    obtain rfl := not_not.1 hb
    rw [format_percent, h]
    simp only [hv, if_false, fill, textOf_forget, ih]

lemma readText_tame (func) (v) : Tame (readText func v) := by
  refine .get_bind (fun m => by rw [textOf_forget]) fun m => ?_
  split
  · exact .pure _
  · exact .throw _

lemma formatted_tame (func) (template) (args) : Tame (formatted func template args) := by
  refine (readText_tame func template).bind fun t => .get_bind (fun m => ?_) fun m => ?_
  · rw [format_forget]
  · split
    · exact .pure _
    · exact .throw _
    · exact .throw _

lemma free_tame (args) : Tame (free args) := by
  unfold free
  split
  case h_1 object offset =>
    refine ⟨.get_bind (fun m => ?_) fun m => ?_, fun id m => along_get_bind.2 ?_⟩
    · obtain h | ⟨x, hx, hy, hfreed⟩ := Exec.lookup_forget object m
      · rw [h]
      · rw [hx, hy]
        simp
    · split
      · exact .pure _
      · exact .ite (.throw _) (.bind (.modify fun m =>
          congrArg (fun memory => { m with memory }) (m.memory.forget_free object)) fun _ => .pure _)
    · split
      · exact .pure trivial
      · next o ho =>
        split
        · exact .throw
        · next hlive =>
          exact Along.bind (.modify (fun x hx hfreed => Memory.object?_alter_live _ ho hlive hx hfreed) trivial)
            fun _ _ _ (_ : True) => .pure trivial
  case h_2 => exact .pure _
  case h_3 => exact .throw _

lemma sprintf_blind (args) : Blind (sprintf args) := by
  unfold sprintf
  split
  case h_1 object offset template args =>
    refine (formatted_tame _ _ _).blind.bind fun t => .bind (.modify fun m => ?_) fun _ => .pure _
    exact congrArg (fun memory => { m with memory }) (m.memory.forget_writeText object t offset)
  case h_2 => exact .throw _
  case h_3 => exact .throw _

lemma sprintf_stays (args m) : Along (StaysFreed id) m (sprintf args) := by
  unfold sprintf
  split
  case h_1 object offset template args =>
    refine Along.bind (((formatted_tame _ _ _).keeps id m).weaken fun _ => Keeps.stays) fun t m1 _ _ => ?_
    refine Along.bind (.modify (fun x hx _ => ?_) trivial) fun _ _ _ (_ : True) => .pure trivial
    by_cases heq : id = object
    · subst heq
      exact Memory.object?_writeText t offset hx
    · exact ⟨x.cells, (Memory.object?_writeText_other heq t offset).trans hx⟩
  case h_2 => exact .throw
  case h_3 => exact .throw

lemma sprintf_keeps (h : ∀ offset rest, args ≠ .ptr id offset :: rest) (m) : Along (Keeps id) m (sprintf args) := by
  unfold sprintf
  split
  case h_1 object offset template args =>
    have hne : id ≠ object := by
      rintro rfl
      exact h offset _ rfl
    refine ((formatted_tame _ _ _).keeps id m).bind fun t m1 _ _ => ?_
    refine Along.bind (.modify (fun x hx _ => ?_) trivial) fun _ _ _ (_ : True) => .pure trivial
    exact (Memory.object?_writeText_other hne t offset).trans hx
  case h_2 => exact .throw
  case h_3 => exact .throw

end Library

instance : Executes Tame where
  pure := .pure
  bind := .bind
  throw e := ⟨.throw e⟩
  alloc o := ⟨Exec.alloc_tame o⟩
  print _ := ⟨.bind ⟨.modify fun m => by simp [Machine.forget], fun _ _ => .modify (fun _ hx _ => hx) trivial⟩ fun _ => .pure _⟩
  textAddress _ _ _ := ⟨Exec.textAddress_tame _ _ _⟩
  load _ _ := ⟨Exec.load_tame _ _⟩
  store _ _ := ⟨Exec.store_tame _ _⟩
  readText _ _ := ⟨readText_tame _ _⟩
  formatted _ _ _ := ⟨formatted_tame _ _ _⟩
  free _ := ⟨free_tame _⟩

lemma tame {a : Exec α} [h : Has Tame a] : Tame a := h.out

namespace Image

variable {img : Image}

instance (f b) : Has Tame (img.enter f b) := .bind

instance (f callers b) : Has Tame (img.leave f callers b) := by
  unfold leave
  split <;> infer_instance

lemma invoke_blind (f callers call rest ty)
    (callee args) : Blind (img.invoke f callers call rest ty callee args) := by
  unfold invoke
  cases img.store.func? callee with
  | none => exact .throw _
  | some info =>
    refine .ite ?_ (.ite (.throw _) (.pure _))
    split
    · exact .throw _
    · next body hb =>
      refine .bind ?_ fun _ => .pure _
      obtain ⟨-, rfl⟩ | htame := Executes.find? (P := Tame) hb
      · exact sprintf_blind args
      · exact (htame args).blind

lemma execute_blind (f callers h rest) : Blind (img.execute f callers h rest) := by
  refine .bind (.modify fun m => ?_) fun _ => .get_bind (fun m => rfl) fun m => .ite (.throw _) ?_
  · simp [Machine.forget]
  · cases img.store.inst? h with
    | none => exact .pure _
    | some i =>
      simp only
      split
      · refine tame.blind.bind fun v => ?_
        split
        · exact tame.blind.bind fun _ => invoke_blind _ _ _ _ _ _ _
        · exact .throw _
      · exact tame.blind.bind fun _ => .pure _
      · exact tame.blind.bind fun _ => .pure _

lemma step_blind (f callers) : Blind (img.step f callers) := by
  unfold step
  split
  · exact .throw _
  · split
    · exact tame.blind.bind fun _ => .pure _
    · exact tame.blind
    · exact execute_blind _ _ _ _

/-- The run is about to call `sprintf` with an address in an object as its buffer. -/
def Refills (img : Image) (c : State) (id : Nat) : Prop :=
  ∃ h rest i callee args target info offset vs m1 m2, c.frame.rest = some (h :: rest) ∧
    img.store.inst? h = some i ∧ i.inst = .call callee args ∧
    Exec.eval img.store c.frame callee { c.machine with steps := c.machine.steps + 1 } = .ok (.func target) m1 ∧
    Exec.evalAll img.store c.frame args m1 = .ok (.ptr id offset :: vs) m2 ∧
    img.store.func? target = some info ∧ (img.resolve target info).2.blocks.size = 0 ∧
    (img.resolve target info).2.ident.spoken = Text.ofString "sprintf"

section

variable {R : Machine → Machine → Prop} [IsPreorder Machine R] (hR : ∀ m m', Keeps id m m' → R m m')

include hR

lemma invoke_judged (f callers call rest ty)
    (callee args)
    (hfill : ∀ info offset vs, img.store.func? callee = some info → (img.resolve callee info).2.blocks.size = 0 →
      (img.resolve callee info).2.ident.spoken = Text.ofString "sprintf" → args = .ptr id offset :: vs →
      Along R m (sprintf args)) : Along R m (img.invoke f callers call rest ty callee args) := by
  unfold invoke
  cases hinfo : img.store.func? callee with
  | none => exact .throw
  | some info =>
    refine .ite (fun hsize => ?_) fun _ => .ite (fun _ => .throw) fun _ => .pure trivial
    split
    · exact .throw
    · next body hb =>
      refine Along.bind (P := fun _ _ => True) ?_ fun _ _ _ _ => .pure trivial
      obtain ⟨hname, rfl⟩ | htame := Executes.find? (P := Tame) hb
      · by_cases harg : ∃ offset vs, args = .ptr id offset :: vs
        · obtain ⟨offset, vs, hargs⟩ := harg
          exact hfill info offset vs hinfo hsize hname hargs
        · refine (sprintf_keeps (fun offset vs hargs => harg ⟨offset, vs, hargs⟩) m).weaken fun _ => hR _ _
      · exact ((htame args).keeps id m).weaken fun _ => hR _ _

lemma step_judged (hfill : img.Refills c id → ∀ args m, Along R m (sprintf args)) :
    Along R c.machine (img.step c.frame c.callers) := by
  unfold step
  split
  · exact .throw
  · split
    · exact ((tame.keeps id _).weaken fun _ => hR _ _).bind fun _ _ _ _ => .pure trivial
    · exact (tame.keeps id _).weaken fun _ => hR _ _
    · next h rest hrest =>
      refine Along.bind (P := fun _ m => m = { c.machine with steps := c.machine.steps + 1 })
        (.modify (hR _ _ fun _ hx _ => hx) rfl) fun _ m _ hm => ?_
      subst hm
      refine along_get_bind.2 (.ite (fun _ => .throw) fun _ => ?_)
      cases hi : img.store.inst? h with
      | none => exact .pure trivial
      | some i =>
        simp only
        split
        · next callee args hinst =>
          refine ((tame.keeps id _).weaken fun _ => hR _ _).traced.bind
            fun v m1 _ hv => ?_
          split
          · next target =>
            refine ((tame.keeps id _).weaken fun _ => hR _ _).traced.bind
              fun vs m2 _ hvs => ?_
            refine invoke_judged hR _ _ _ _ _ _ _ fun info offset ws hinfo hsize hname hargs => ?_
            refine hfill ⟨h, rest, i, callee, args, target, info, offset, ws, m1, m2, hrest, hi, hinst, hv, ?_, hinfo,
              hsize, hname⟩ vs m2
            rw [hvs, hargs]
          · exact .throw
        · exact ((tame.keeps id _).weaken fun _ => hR _ _).bind fun _ _ _ _ => .pure trivial
        · exact ((tame.keeps id _).weaken fun _ => hR _ _).bind fun _ _ _ _ => .pure trivial

end

lemma after_freed (h : img.after n c = some d)
    (hx : c.machine.memory.object? id = some x) (hfreed : x.freed = true) :
    ∃ cells, d.machine.memory.object? id = some { x with cells } ∧
      ((∀ k < n, ∀ e, img.after k c = some e → ¬img.Refills e id) → cells = x.cells) := by
  induction n generalizing c x with
  | zero =>
    cases h
    exact ⟨x.cells, hx, fun _ => rfl⟩
  | succ n ih =>
    rw [after] at h
    cases hs : img.step c.frame c.callers c.machine with
    | error t m => rw [hs] at h; cases h
    | ok next m =>
      cases next with
      | halt v => rw [hs] at h; cases h
      | go g callers =>
        have hafter : ∀ k, img.after (k + 1) c = img.after k ⟨g, callers, m⟩ := fun k => by rw [after, hs]
        rw [hs] at h
        by_cases hfill : img.Refills c id
        · obtain ⟨cells, hy⟩ := ((img.step_judged (fun _ _ => Keeps.stays) fun _ args m => sprintf_stays args m).of_ok hs).1 x hx hfreed
          obtain ⟨cells', hd, -⟩ := ih h hy hfreed
          exact ⟨cells', hd, fun hnone => absurd hfill (hnone 0 n.succ_pos c rfl)⟩
        · have hy := ((img.step_judged (fun _ _ k => k) fun h => absurd h hfill).of_ok hs).1 x hx hfreed
          obtain ⟨cells, hd, hcells⟩ := ih h hy hfreed
          refine ⟨cells, hd, fun hnone => hcells fun k hk e he => hnone (k + 1) (Nat.succ_lt_succ hk) e ?_⟩
          rw [hafter, he]

lemma run_forget (h : img.run f callers m = some r) (hm : m.forget = m'.forget) :
    ∃ r', img.run f callers m' = some r' ∧ r'.1 = r.1 ∧ r'.2.forget = r.2.forget := by
  refine run.partial_correctness img (fun f callers m r => ∀ m' : Machine, m.forget = m'.forget →
    ∃ r', img.run f callers m' = some r' ∧ r'.1 = r.1 ∧ r'.2.forget = r.2.forget) ?_ f callers m r h m' hm
  intro run ih f callers m r hr m' hm
  have hseen : seen (img.step f callers m) = seen (img.step f callers m') := by
    rw [step_blind f callers m, step_blind f callers m', hm]
  rw [Image.run.eq_1]
  cases hs : img.step f callers m with
  | error t m1 =>
    rw [hs] at hr hseen
    cases hs' : img.step f callers m' with
    | ok x m2 => rw [hs'] at hseen; cases hseen
    | error t' m2 =>
      rw [hs'] at hseen
      injection hseen with ht hm2
      subst ht
      cases hr
      exact ⟨_, rfl, rfl, hm2.symm⟩
  | ok x m1 =>
    rw [hs] at hr hseen
    cases hs' : img.step f callers m' with
    | error t' m2 => rw [hs'] at hseen; cases hseen
    | ok x' m2 =>
      rw [hs'] at hseen
      injection hseen with hx hm2
      subst hx
      cases x with
      | halt v =>
        cases hr
        exact ⟨_, rfl, rfl, hm2.symm⟩
      | go g callers' => exact ih g callers' m1 r hr m2 hm2

lemma freed_refused (hx : m.memory.object? id = some x) (hfreed : x.freed = true) (offset) :
    (∀ t, Exec.load t (.ptr id offset) m = .error .freedLoad m) ∧
      (∀ v, Exec.store v (.ptr id offset) m = .error .freedStore m) ∧
      free [.ptr id offset] m = .error .doubleFree m ∧
      (∀ func, readText func (.ptr id offset) m = .error (.badText func .freed) m) ∧
      ∀ spec, fill m.memory spec 115 (.ptr id offset) = .error (.inl .freed) := by
  have htext : textOf m.memory (.ptr id offset) = .error .freed := by simp [textOf, hx, hfreed]
  refine ⟨fun t => ?_, fun v => ?_, ?_, fun func => ?_, fun spec => ?_⟩
  · simp only [Exec.load, get_bind_apply, hx, hfreed]
    rfl
  · simp only [Exec.store, get_bind_apply, hx, hfreed]
    rfl
  · simp only [free, get_bind_apply, hx, hfreed]
    rfl
  · simp only [readText, get_bind_apply, htext]
    rfl
  · have hverb : List.contains (Text.ofString "fFeEgG") 115 = false := by decide +kernel
    rw [fill, htext, hverb]
    rfl

/-- Freed memory is not seen. Whatever reads, writes or frees an object that was freed fails, but for
`sprintf`, which writes into any object. Along a run the object stays freed, and its cells stay as they
are until `sprintf` is called with it as the buffer. No run depends on what such cells hold: machines
that agree on the rest lead to the same end and the same output. -/
theorem freed_unseen (img : Image) (id : Nat) : (∀ m x offset, m.memory.object? id = some x → x.freed = true →
      (∀ t, Exec.load t (.ptr id offset) m = .error .freedLoad m) ∧
        (∀ v, Exec.store v (.ptr id offset) m = .error .freedStore m) ∧
        Library.free [.ptr id offset] m = .error .doubleFree m ∧
        (∀ func, Library.readText func (.ptr id offset) m = .error (.badText func .freed) m) ∧
        (∀ spec, Library.fill m.memory spec 115 (.ptr id offset) = .error (.inl .freed)) ∧
        ∀ template args t m', Library.formatted "sprintf" template args m = .ok t m' →
          Library.sprintf (.ptr id offset :: template :: args) m =
            .ok (.int (Int64.ofNat t.length)) { m' with memory := m'.memory.writeText id offset t }) ∧
    (∀ n c d x, img.after n c = some d → c.machine.memory.object? id = some x → x.freed = true →
      ∃ cells, d.machine.memory.object? id = some { x with cells } ∧
        ((∀ k < n, ∀ e, img.after k c = some e → ¬img.Refills e id) → cells = x.cells)) ∧
    ∀ f callers m m', m.forget = m'.forget → (img.run f callers m).map (fun r => (r.1, r.2.forget)) =
        (img.run f callers m').map fun r => (r.1, r.2.forget) := by
  refine ⟨fun m x offset hx hfreed => ?_, fun n c d x h hx hfreed => after_freed h hx hfreed,
    fun f callers m m' hm => ?_⟩
  · obtain ⟨hload, hstore, hfree, htext, hfill⟩ := freed_refused hx hfreed offset
    refine ⟨hload, hstore, hfree, htext, hfill, fun template args t m' ht => ?_⟩
    simp only [Library.sprintf, bind, EStateM.bind, ht]
    rfl
  · cases hr : img.run f callers m with
    | some r =>
      obtain ⟨r', hr', hending, hmachine⟩ := run_forget hr hm
      rw [hr', Option.map_some, Option.map_some, hending, hmachine]
    | none =>
      cases hr' : img.run f callers m' with
      | none => rfl
      | some r' =>
        obtain ⟨r, hr'', -⟩ := run_forget hr' hm.symm
        rw [hr''] at hr
        cases hr

end Image

end

end Arbor.Run
