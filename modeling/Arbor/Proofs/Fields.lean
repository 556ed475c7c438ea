import Arbor.Proofs.Lengths
import Arbor.Proofs.Tidy
import Mathlib.Data.List.Forall2

/-! Encoded nodes are read back, field by field: what is written for a field tells its value to the
reader of the node. -/

namespace Arbor.Tree

open Msgpack Diag List

structure Told {β : Type} (d : Nat) (read : Item → Option β) (i : Item) (v : β) : Prop where
  fits : i.Fits
  read : (write i).length ≤ d → read i = some v

inductive Entered {β : Type} (d : Nat) (read : Item → Option β) (blank : β) (key : String) :
    List (Text × Item) → β → Prop where
  | left : Entered d read blank key [] blank
  | entry {i : Item} {v : β} (h : Told d read i v) : Entered d read blank key [(Text.ofString key, i)] v

structure Sets {α : Type} (d n : Nat) (set : α → Text → Item → Option α) (l : List (Text × Item)) (a b : α) : Prop where
  fold : (∀ e ∈ l, (write e.2).length ≤ d) → l.foldlM (fun a (key, v) => set a key v) a = some b
  fits : ∀ e ∈ l, e.1.length < lengthLimit ∧ e.2.Fits
  size : l.length ≤ n

namespace Sets

variable {α β : Type} {set : α → Text → Item → Option α}

lemma next (h : Sets d 1 set l a b) (h' : Sets d n set l' b c) : Sets d (n + 1) set (l ++ l') a c where
  fold hd := by
    rw [foldlM_append, h.fold fun e he => hd e (mem_append_left _ he)]
    exact h'.fold fun e he => hd e (mem_append_right _ he)
  fits e he := (mem_append.1 he).elim (h.fits e) (h'.fits e)
  size := by
    have := h.size
    have := h'.size
    simp only [length_append]
    omega

lemma one (put : α → β → α) (read : α → Item → Option β)
    (h : Entered d (read a) blank key l v)
    (hset : ∀ a i, set a (Text.ofString key) i = (read a i).map (put a) := by simp) (hblank : put a blank = a := by rfl)
    (hkey : (Text.ofString key).length < lengthLimit := by decide +kernel) : Sets d 1 set l a (put a v) := by
  cases h with
  | left => exact ⟨fun _ => by simp [hblank], fun e he => (by cases he), Nat.zero_le _⟩
  | @entry i _ h =>
    refine ⟨fun hd => ?_, fun e he => ?_, Nat.le_refl _⟩
    · have hread := h.read (hd _ (mem_singleton.2 rfl))
      simp [hset, hread]
    · cases mem_singleton.1 he
      exact ⟨hkey, h.fits⟩

lemma told (h : Sets d n set l a b) (hn : n < lengthLimit) (hD : D ≤ d + 1) :
    Told D (readOptional a (readNode fields a set) none) (.map l) (some b) where
  fits := .map (Nat.lt_of_le_of_lt h.size hn) (fun e he => (h.fits e he).1) fun e he => (h.fits e he).2
  read hle := by
    have hfold := h.fold fun e he => by
      have := length_write_lt_map he
      omega
    simp [readOptional, readNode, entriesOf, hfold]

end Sets

section

variable {α β : Type} {key : String}

lemma entered_text (h : Short t) : Entered d readText [] key (textEntry key t) t := by
  cases t with
  | nil => exact .left
  | cons b t => exact .entry ⟨.text h, fun _ => rfl⟩

lemma readWord_nat {bytes n : Nat} (h : n < 0x10000000000000000) : readWord (.int bytes n) = some n.toUInt64 := by
  have hmod : ((n : Int) % 0x10000000000000000).toNat = n := by omega
  simp [readWord, hmod]

lemma entered_byte (n) : Entered d readByte 0 key (byteEntry key n) n := by
  unfold byteEntry
  split
  · next h => exact h ▸ .left
  · refine .entry ⟨.int (.inl rfl) n.toNat_lt, fun _ => ?_⟩
    have hlt := n.toNat_lt
    rw [readByte, readWord_nat (by omega)]
    exact congrArg some (UInt8.toNat_inj.1 (by simp))

lemma entered_word (n) : Entered d readWord 0 key (wordEntry key n) n := by
  unfold wordEntry
  split
  · next h => exact h ▸ .left
  · refine .entry ⟨.int (.inr (.inr rfl)) n.toNat_lt, fun _ => ?_⟩
    rw [readWord_nat n.toNat_lt]
    simp

lemma entered_bool (b) : Entered d readBool false key (boolEntry key b) b := by
  cases b with
  | false => exact .left
  | true => exact .entry ⟨.bool true, fun _ => rfl⟩

lemma entered_float (bits) : Entered d readFloat 0 key (floatEntry key bits) (plainZero bits) := by
  unfold floatEntry plainZero
  split
  · exact .left
  · exact .entry ⟨.float bits, fun _ => rfl⟩

lemma entered_node {tidy : β → β} {read : Item → Option (Option β)} {o : Option β}
    (h : ∀ b ∈ o, Told d read (toItem b) (some (tidy b))) :
    Entered d read none key (nodeEntry key (o.map toItem)) (o.map tidy) := by
  cases o with
  | none => exact .left
  | some b => exact .entry (h b rfl)

lemma entered_list {read : Item → Option (Option (List β))}
    (hnone : items = none → l = none)
    (hsome : ∀ is ∈ items, ∃ ns ∈ l, is.length = ns.length ∧ Told d read (.list is) (some ns)) :
    Entered d read none key (listEntry false key items) (filled l) := by
  cases items with
  | none =>
    rw [hnone rfl]
    exact .left
  | some is =>
    obtain ⟨ns, hl, hlen, htold⟩ := hsome is rfl
    cases hl
    cases ns with
    | nil =>
      cases length_eq_zero_iff.1 hlen
      exact .left
    | cons b ns =>
      cases is with
      | nil => cases hlen
      | cons i is => exact .entry htold

lemma readOver_blank {read : Option β → Item → Option (Option β)}
    (h : Forall₂ (fun i n => read none i = some n) items ns) :
    readOver read [] items = some ns := by
  induction h with
  | nil => rfl
  | cons hi _ ih => simp [readOver, hi, ih]

lemma entered_nodes {tidy : β → β} {read : Option β → Item → Option (Option β)}
    (hnil : read none .nil = some none) (hlen : ∀ ns ∈ l, ns.length < lengthLimit)
    (h : ∀ ns ∈ l, ∀ b, some b ∈ ns → Told d (read none) (toItem b) (some (tidy b))) :
    Entered d (readNodes read none) none key (listEntry false key (nodeItems toItem l)) (tidyNodes tidy l) := by
  refine entered_list (by cases l <;> simp [nodeItems]) fun is his => ?_
  cases l with
  | none => cases his
  | some ns =>
    simp only [nodeItems, Option.map_some, Option.mem_def, Option.some.injEq] at his
    subst his
    refine ⟨_, rfl, by simp, .list (by simpa using hlen ns rfl) fun i hi => ?_, fun hle => ?_⟩
    · obtain ⟨o, ho, rfl⟩ := mem_map.1 hi
      cases o with
      | none => exact .nil
      | some b => exact (h ns rfl b ho).fits
    · have hover : readOver read [] (ns.map fun n => n.elim .nil toItem) = some (ns.map (Option.map tidy)) := by
        refine readOver_blank (forall₂_map_left_iff.2 (forall₂_map_right_iff.2 (forall₂_same.2 fun o ho => ?_)))
        cases o with
        | none => exact hnil
        | some b =>
          have hlt := length_write_lt_list (mem_map_of_mem (f := fun n => n.elim .nil toItem) ho)
          simp only [Option.elim_some] at hlt
          exact (h ns rfl b ho).read (by omega)
      simp [readNodes, Nodes.items, hover]

end

attribute [local simp] TypeRef.set Import.set Expr.set Expr.setPlain

lemma TypeRef.told (h : t.Sized) : Told d (readType none) t.toItem (some t) := by
  have hsets : Sets d 2 TypeRef.set (textEntry "name" t.name ++ byteEntry "ptr" t.depth) {} t := by
    refine .next (.one (fun t name => { t with name }) (fun _ => readText) (entered_text h)) ?_
    exact .one (fun (t : TypeRef) depth => { t with depth }) (fun _ => readByte) (entered_byte _)

  exact hsets.told (by decide) (Nat.le_succ d)

lemma Import.Sized.told (h : i.Sized) : Told d (readImport none) i.toItem (some i) := by
  have hsets : Sets d 2 Import.set (textEntry "name" i.name ++ textEntry "target" i.target) {} i := by
    refine .next (.one (fun i name => { i with name }) (fun _ => readText) (entered_text h.name)) ?_
    exact .one (fun (i : Import) target => { i with target }) (fun _ => readText) (entered_text h.target)

  exact hsets.told (by decide) (Nat.le_succ d)

lemma exprItem_eq (keep) (o) : exprItem keep o = o.map (Expr.toItem keep) := by
  cases o <;> rfl

lemma exprItems_eq (keep) (l) :
    exprItems keep l = l.map fun n => n.elim .nil (Expr.toItem keep) := by
  induction l with
  | nil => rw [exprItems, map_nil]
  | cons o l ih => cases o <;> simp [exprItems, ih]

lemma Expr.toItem_eq (e : Expr) : e.toItem false =
    .map (byteEntry "kind" e.kind ++ wordEntry "int" e.int ++ byteEntry "bits" e.bits
      ++ floatEntry "float" e.float ++ boolEntry "bool" e.bool ++ textEntry "str" e.str
      ++ textEntry "name" e.name ++ textEntry "op" e.op ++ nodeEntry "x" (e.x.map (toItem false))
      ++ nodeEntry "y" (e.y.map (toItem false)) ++ nodeEntry "cond" (e.cond.map (toItem false))
      ++ listEntry false "args" (nodeItems (toItem false) e.args) ++ nodeEntry "type" (e.type.map TypeRef.toItem)
      ++ nodeEntry "count" (e.count.map (toItem false))) := by
  obtain ⟨_, _, _, _, _, _, _, _, _, _, _, args, _, _⟩ := e
  cases args <;> simp [toItem, exprItem_eq, exprItemsIn, exprItems_eq, nodeItems]

lemma entered_type (h : ∀ t ∈ o, t.Sized) :
    Entered d (readType none) none key (nodeEntry key (o.map TypeRef.toItem)) o := by
  cases o with
  | none => exact .left
  | some t => exact .entry (TypeRef.told (h t rfl))

lemma Told.zero {read read' : Item → Option β} {v : β} (h : Told d read i v) :
    Told 0 read' i v where
  fits := h.fits
  read hle := absurd (length_write_pos i) (by omega)

lemma Expr.Sized.told {e : Expr} (h : e.Sized) : ∀ d, Told d (readExpr d none) (e.toItem false) (some e.tidy) := by
  induction h with
  | @mk e str name op type x y cond count length args ihx ihy ihcond ihcount ihargs =>
    have hsucc : ∀ d, Told (d + 1) (readExpr (d + 1) none) (e.toItem false) (some e.tidy) := by
      intro d
      rw [Expr.toItem_eq, Expr.tidy_eq]
      simp only [append_assoc]
      refine Sets.told (?_ : Sets d 14 (Expr.set (readExpr d)) _ _ _) (by decide) (Nat.le_refl _)
      refine .next (.one (fun e kind => { e with kind }) (fun _ => readByte) (entered_byte _)) ?_
      refine .next (.one (fun e int => { e with int }) (fun _ => readWord) (entered_word _)) ?_
      refine .next (.one (fun e bits => { e with bits }) (fun _ => readByte) (entered_byte _)) ?_
      refine .next (.one (fun e float => { e with float }) (fun _ => readFloat) (entered_float _)) ?_
      refine .next (.one (fun e bool => { e with bool }) (fun _ => readBool) (entered_bool _)) ?_
      refine .next (.one (fun e str => { e with str }) (fun _ => readText) (entered_text str)) ?_
      refine .next (.one (fun e name => { e with name }) (fun _ => readText) (entered_text name)) ?_
      refine .next (.one (fun e op => { e with op }) (fun _ => readText) (entered_text op)) ?_
      refine .next (.one (fun e x => { e with x }) (fun e => readExpr d e.x) (entered_node fun a ha => ihx a ha d)) ?_
      refine .next (.one (fun e y => { e with y }) (fun e => readExpr d e.y) (entered_node fun a ha => ihy a ha d)) ?_
      refine .next (.one (fun e cond => { e with cond }) (fun e => readExpr d e.cond)
        (entered_node fun a ha => ihcond a ha d)) ?_
      refine .next (.one (fun e args => { e with args }) (fun e => readNodes (readExpr d) e.args)
        (entered_nodes rfl length fun l hl a ha => ihargs l hl a ha d)) ?_
      refine .next (.one (fun e type => { e with type }) (fun e => readType e.type) (entered_type type)) ?_
      exact .one (fun (e : Expr) count => { e with count }) (fun e => readExpr d e.count)
        (entered_node fun a ha => ihcount a ha d)
    intro d
    cases d with
    | zero => exact (hsucc 0).zero
    | succ d => exact hsucc d

end Arbor.Tree
