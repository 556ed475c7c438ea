import Arbor.Proofs.Fields

/-! Encoded modules are read back. A module comes back as it was, except that lists without nodes are
absent and that both zeros are the positive one; a module that fails its check comes back as the fault
of the check. -/

namespace Arbor.Tree

open Msgpack Diag Stmt

variable {m : Module} {d : Nat}

lemma stmtItem_eq (keep) (o) : stmtItem keep o = o.map (toItem keep) := by
  cases o <;> rfl

lemma stmtItems_eq (keep) (l) :
    stmtItems keep l = l.map fun n => n.elim .nil (toItem keep) := by
  induction l with
  | nil => rw [stmtItems, List.map_nil]
  | cons o l ih => cases o <;> simp [stmtItems, ih]

lemma toItem_eq (s : Stmt) : s.toItem false =
    .map (byteEntry "kind" s.kind ++ listEntry false "list" (nodeItems (toItem false) s.list)
      ++ textEntry "name" s.name ++ nodeEntry "type" (s.type.map TypeRef.toItem)
      ++ nodeEntry "target" (s.target.map (Expr.toItem false)) ++ nodeEntry "value" (s.value.map (Expr.toItem false))
      ++ nodeEntry "cond" (s.cond.map (Expr.toItem false)) ++ nodeEntry "then" (s.yes.map (toItem false))
      ++ nodeEntry "else" (s.no.map (toItem false)) ++ nodeEntry "init" (s.init.map (toItem false))
      ++ nodeEntry "step" (s.step.map (toItem false)) ++ nodeEntry "body" (s.body.map (toItem false))) := by
  obtain ⟨_, list, _, _, _, _, _, _, _, _, _, _⟩ := s
  cases list <;> simp [toItem, stmtItem_eq, stmtItemsIn, stmtItems_eq, nodeItems]

attribute [local simp] Stmt.set Stmt.setPlain Param.set Field.set Decl.set Module.set

lemma Stmt.Sized.told {s : Stmt} (h : s.Sized) :
    ∀ d, Told d (readOptional {} (read d) none) (s.toItem false) (some s.tidy) := by
  induction h with
  | @mk s name type target value cond yes no init step body length list ihyes ihno ihinit ihstep ihbody ihlist =>
    have hsucc : ∀ d, Told (d + 1) (readOptional {} (read (d + 1)) none) (s.toItem false) (some s.tidy) := by
      intro d
      rw [toItem_eq, tidy_eq]
      simp only [List.append_assoc]
      refine Sets.told (?_ : Sets d 12 (set d (readOptional {} (read d))) _ _ _) (by decide) (Nat.le_refl _)
      refine .next (.one (fun s kind => { s with kind }) (fun _ => readByte) (entered_byte _)) ?_
      refine .next (.one (fun s list => { s with list }) (fun s => readNodes (readOptional {} (read d)) s.list)
        (entered_nodes rfl length fun l hl a ha => ihlist l hl a ha d)) ?_
      refine .next (.one (fun s name => { s with name }) (fun _ => readText) (entered_text name)) ?_
      refine .next (.one (fun s type => { s with type }) (fun s => readType s.type) (entered_type type)) ?_
      refine .next (.one (fun s target => { s with target }) (fun s => readExpr d s.target)
        (entered_node fun e he => (target e he).told d)) ?_
      refine .next (.one (fun s value => { s with value }) (fun s => readExpr d s.value)
        (entered_node fun e he => (value e he).told d)) ?_
      refine .next (.one (fun s cond => { s with cond }) (fun s => readExpr d s.cond)
        (entered_node fun e he => (cond e he).told d)) ?_
      refine .next (.one (fun s yes => { s with yes }) (fun s => readOptional {} (read d) s.yes)
        (entered_node fun a ha => ihyes a ha d)) ?_
      refine .next (.one (fun s no => { s with no }) (fun s => readOptional {} (read d) s.no)
        (entered_node fun a ha => ihno a ha d)) ?_
      refine .next (.one (fun s init => { s with init }) (fun s => readOptional {} (read d) s.init)
        (entered_node fun a ha => ihinit a ha d)) ?_
      refine .next (.one (fun s step => { s with step }) (fun s => readOptional {} (read d) s.step)
        (entered_node fun a ha => ihstep a ha d)) ?_
      exact .one (fun (s : Stmt) body => { s with body }) (fun s => readOptional {} (read d) s.body)
        (entered_node fun a ha => ihbody a ha d)
    intro d
    cases d with
    | zero => exact (hsucc 0).zero
    | succ d => exact hsucc d

lemma entered_same {toItem : β → Item} {sized : β → Prop}
    {read : Option β → Item → Option (Option β)} {l : Nodes β} (hnil : read none .nil = some none)
    (hl : NodesSized sized l) (h : ∀ b, sized b → Told d (read none) (toItem b) (some b)) :
    Entered d (readNodes read none) none key (listEntry false key (nodeItems toItem l)) (filled l) := by
  have hnodes : tidyNodes id l = filled l := by simp [tidyNodes]
  rw [← hnodes]
  exact entered_nodes hnil (fun ns hns => (hl ns hns).1) fun ns hns b hb => h b ((hl ns hns).2 b hb)

lemma mapM_readText (ns : List Text) : (ns.map Item.text).mapM readText = some ns := by
  induction ns with
  | nil => rfl
  | cons t ns ih =>
    rw [List.map_cons, List.mapM_cons, ih]
    rfl

lemma entered_names (h : ∀ ns ∈ l, ns.length < lengthLimit ∧ ∀ t ∈ ns, Short t) :
    Entered d (readNames none) none key (listEntry false key (l.map fun l => l.map Item.text)) (filled l) := by
  refine entered_list (by cases l <;> simp) fun is his => ?_
  cases l with
  | none => cases his
  | some ns =>
    simp only [Option.map_some, Option.mem_def, Option.some.injEq] at his
    subst his
    refine ⟨ns, rfl, by simp, .list (by simpa using (h ns rfl).1) fun i hi => ?_, fun _ => ?_⟩
    · obtain ⟨t, ht, rfl⟩ := List.mem_map.1 hi
      exact .text ((h ns rfl).2 t ht)
    · rw [readNames, mapM_readText, Option.map_some]

lemma Param.Sized.told (h : p.Sized) : Told d (readParam none) p.toItem (some p) := by
  refine Sets.told (?_ : Sets d 2 Param.set _ _ _) (by decide) (Nat.le_succ d)
  refine .next (.one (fun p name => { p with name }) (fun _ => readText) (entered_text h.name)) ?_
  exact .one (fun (p : Param) type => { p with type }) (fun p => readType p.type) (entered_type h.type)

lemma Field.Sized.told {f : Field} (h : f.Sized) : Told d (readField d none) (f.toItem false) (some f.tidy) := by
  refine Sets.told (?_ : Sets d 3 (Field.set d) _ _ _) (by decide) (Nat.le_succ d)
  simp only [List.append_assoc]
  refine .next (.one (fun f name => { f with name }) (fun _ => readText) (entered_text h.name)) ?_
  refine .next (.one (fun f type => { f with type }) (fun f => readType f.type) (entered_type h.type)) ?_
  exact .one (fun (f : Field) init => { f with init }) (fun f => readExpr d f.init)
    (entered_node fun e he => (h.init e he).told d)

lemma Decl.Sized.told {x : Decl} (h : x.Sized) : Told d (readDecl d none) (x.toItem false) (some x.tidy) := by
  refine Sets.told (?_ : Sets d 11 (Decl.set d) _ _ _) (by decide) (Nat.le_succ d)
  simp only [List.append_assoc]
  refine .next (.one (fun x kind => { x with kind }) (fun _ => readByte) (entered_byte _)) ?_
  refine .next (.one (fun x name => { x with name }) (fun _ => readText) (entered_text h.name)) ?_
  refine .next (.one (fun x params => { x with params }) (fun x => readNodes readParam x.params)
    (entered_same rfl h.params fun p hp => hp.told)) ?_
  refine .next (.one (fun x ret => { x with ret }) (fun x => readType x.ret) (entered_type h.ret)) ?_
  refine .next (.one (fun x variadic => { x with variadic }) (fun _ => readBool) (entered_bool _)) ?_
  refine .next (.one (fun x body => { x with body }) (fun x => readOptional {} (read d) x.body)
    (entered_node fun s hs => (h.body s hs).told d)) ?_
  refine .next (.one (fun x base => { x with base }) (fun _ => readText) (entered_text h.base)) ?_
  refine .next (.one (fun x fields => { x with fields }) (fun x => readNodes (readField d) x.fields)
    (entered_nodes rfl (fun l hl => (h.fields l hl).1) fun l hl f hf => ((h.fields l hl).2 f hf).told)) ?_
  refine .next (.one (fun x type => { x with type }) (fun x => readType x.type) (entered_type h.type)) ?_
  refine .next (.one (fun x init => { x with init }) (fun x => readExpr d x.init)
    (entered_node fun e he => (h.init e he).told d)) ?_
  exact .one (fun (x : Decl) names => { x with names }) (fun x => readNames x.names) (entered_names h.names)

lemma Module.Sized.told (h : m.Sized) : Told d (readModule d none) (m.toItem false) (some m.tidy) := by
  refine Sets.told (?_ : Sets d 4 (Module.set d) _ _ _) (by decide) (Nat.le_succ d)
  simp only [List.append_assoc]
  refine .next (.one (fun m name => { m with name }) (fun _ => readText) (entered_text h.name)) ?_
  refine .next (.one (fun m path => { m with path }) (fun _ => readText) (entered_text h.path)) ?_
  refine .next (.one (fun m imports => { m with imports }) (fun m => readNodes readImport m.imports)
    (entered_same rfl h.imports fun i hi => hi.told)) ?_
  exact .one (fun (m : Module) decls => { m with decls }) (fun m => readNodes (readDecl d) m.decls)
    (entered_nodes rfl (fun l hl => (h.decls l hl).1) fun l hl x hx => ((h.decls l hl).2 x hx).told)

/-! ## Modules -/

lemma envelope_item (m) : Envelope.toItem ⟨schemaVersion, some m⟩ =
    .map [(Text.ofString "schema", .int 2 schemaVersion.toNat), (Text.ofString "module", m.toItem false)] := rfl

lemma envelope_read (h : m.Sized) (d) (hd : (write (m.toItem false)).length ≤ d) :
    readNode ["schema", "module"] {} (Envelope.set d) {} (Envelope.toItem ⟨schemaVersion, some m⟩) =
      some ⟨schemaVersion, some m.tidy⟩ := by
  have hmodule : readModule d none (m.toItem false) = some (some m.tidy) := h.told.read hd
  have hschema : readWord (.int 2 schemaVersion.toNat) = some 1 := rfl
  rw [envelope_item]
  simp [readNode, entriesOf, Envelope.set, hschema, hmodule]
  rfl

lemma envelope_fits (h : m.Sized) : (Envelope.toItem ⟨schemaVersion, some m⟩).Fits := by
  have hitem : (m.toItem false).Fits := (h.told (d := 0)).fits
  rw [envelope_item]
  have hschema : (Text.ofString "schema").length < lengthLimit := by decide +kernel
  have hkey : (Text.ofString "module").length < lengthLimit := by decide +kernel
  exact .map (show 2 < lengthLimit by decide) (List.forall_mem_cons.2 ⟨hschema, List.forall_mem_singleton.2 hkey⟩)
    (List.forall_mem_cons.2 ⟨.int (.inr (.inl rfl)) (by decide), List.forall_mem_singleton.2 hitem⟩)

lemma encode_bind (h : m.Sized) : (encode (some m) >>= decode) = m.check.map fun _ => m.tidy := by
  have hread := read_write (envelope_fits h) []
  rw [List.append_nil] at hread
  have hinner : (write (m.toItem false)).length < (write (Envelope.toItem ⟨schemaVersion, some m⟩)).length :=
    length_write_lt_map (e := (Text.ofString "module", m.toItem false)) (by simp [nodeEntry])
  have henvelope : Envelope.ofBytes? (write (Envelope.toItem ⟨schemaVersion, some m⟩)) =
      some ⟨schemaVersion, some m.tidy⟩ := by
    simp only [Envelope.ofBytes?, hread]
    exact envelope_read h _ (by omega)
  simp only [encode, bind, Except.bind, decode, henvelope]
  rw [if_neg (fun h => h rfl), Module.check_tidy]

/-- Encoding and decoding: a module whose lengths fit their headers of 32 bits comes back tidied if it passes its
check, and as the fault of the check if not; what was decoded once has such lengths and comes back tidied. -/
theorem encode_decodes : (∀ m : Module, m.Sized → (encode (some m) >>= decode) = m.check.map fun _ => m.tidy) ∧
    ∀ (t : Text) (m : Module), decode t = .ok m → (encode (some m) >>= decode) = .ok m.tidy := by
  refine ⟨fun m h => encode_bind h, fun t m h => ?_⟩
  rw [encode_bind (decode_sized h), (decode_eq_ok h).2]
  rfl

/-- A binding of a negative zero that has an empty list, and what becomes of it. -/
theorem encode_decodes_zero : let value : Expr := { kind := 2, float := 0x8000000000000000, args := some [] }
    let m : Module := { name := [97], decls := some [some { kind := 4, name := [98], init := some value }] }
    m.Sized ∧ ∃ t, encode (some m) = .ok t ∧ decode t = .ok m.tidy ∧
      (encode (some m.tidy) >>= decode) = .ok m.tidy.tidy := by
  intro value m
  have hvalue : value.Sized :=
    .mk short_nil short_nil short_nil (fun _ h => by cases h) (fun _ h => by cases h) (fun _ h => by cases h)
      (fun _ h => by cases h) (fun _ h => by cases h) (fun l hl => by cases hl; decide) fun l hl a ha => by cases hl; cases ha
  have hsized : m.Sized := by
    refine ⟨(by decide : 1 < lengthLimit), short_nil, fun _ h => (by cases h), fun ns hns => ?_⟩
    cases hns
    refine ⟨(by decide : 1 < lengthLimit), fun d hd => ?_⟩
    cases List.mem_singleton.1 hd
    exact ⟨(by decide : 1 < lengthLimit), fun _ h => (by cases h), fun _ h => (by cases h), fun _ h => (by cases h),
      short_nil, fun _ h => (by cases h), fun _ h => (by cases h), fun e he => (by cases he; exact hvalue),
      fun _ h => by cases h⟩
  have hcheck : m.check = .ok () := rfl
  have hdecode : decode (write (Envelope.toItem ⟨schemaVersion, some m⟩)) = .ok m.tidy := by
    have hfirst := encode_decodes.1 m hsized
    simp only [encode, bind, Except.bind, hcheck, Except.map] at hfirst
    exact hfirst
  exact ⟨hsized, _, rfl, hdecode, encode_decodes.2 _ _ hdecode⟩

end Arbor.Tree
