import Mathlib
import Arbor.Run.Library

/-! Formats are read exactly. A format is a sequence of pieces, bytes that stand for themselves and complete
directives; it can be filled in if and only if it is one and the arguments suffice, and what is written is the
pieces' own output in order. -/

namespace Arbor.Run.Library

open List

def verbs : Text := "diuxXocfFeEgGsp"

inductive Piece where
  | byte (b : UInt8)
  | directive (flags numbers lengths : Text) (verb : UInt8)

namespace Piece

def text : Piece → Text
  | byte b => [b]
  | directive flags numbers lengths verb => 37 :: (flags ++ (numbers ++ (lengths ++ [verb])))

def Complete : Piece → Prop
  | byte b => b ≠ 37
  | directive flags numbers lengths verb => (∀ b ∈ flags, isFlag b) ∧ (∀ b ∈ numbers, isNumber b) ∧
      (∀ b ∈ lengths, isLength b) ∧ (verb = 37 ∨ verb ∈ verbs)

def slot? : Piece → Option (Text × UInt8)
  | byte _ => none
  | directive flags numbers _ verb => if verb = 37 then none else some (flags ++ numbers, verb)

end Piece

def Consists (t : Text) (ps : List Piece) : Prop := (∀ p ∈ ps, p.Complete) ∧ t = ps.flatMap Piece.text

def slots (ps : List Piece) : List (Text × UInt8) := ps.filterMap Piece.slot?

def Readable (m : Memory) (v : Value) : Prop :=
  ∃ object offset o, v = .ptr object offset ∧ m.object? object = some o ∧ o.freed = false

def Supplied (m : Memory) (ps : List Piece) (args : List Value) : Prop :=
  (slots ps).length ≤ args.length ∧ ∀ x ∈ (slots ps).zip args, x.1.2 = 115 → Readable m x.2

def rendered (m : Memory) (spec : Text) (verb : UInt8) (v : Value) : Text := (fill m spec verb v).toOption.getD []

def written (m : Memory) : List Piece → List Value → Text
  | [], _ => []
  | .byte b :: ps, args => b :: written m ps args
  | .directive flags numbers _ verb :: ps, args =>
    if verb = 37 then 37 :: written m ps args
    else match args with
      | [] => []
      | v :: args => rendered m (flags ++ numbers) verb v ++ written m ps args

variable {m : Memory} {t out : Text} {args : List Value} {ps : List Piece}

lemma textOf_ok_iff : (∃ x, textOf m v = .ok x) ↔ Readable m v := by
  constructor
  · rintro ⟨x, h⟩
    unfold textOf at h
    split at h
    · next object offset =>
      cases ho : m.object? object with
      | none => simp [ho] at h
      | some o =>
        refine ⟨object, offset, o, rfl, ho, ?_⟩
        simp only [ho] at h
        split at h
        · cases h
        · next hf => exact Bool.eq_false_iff.2 hf
    · cases h
  · rintro ⟨object, offset, o, rfl, ho, hf⟩
    exact ⟨Memory.textAt o offset, by simp [textOf, ho, hf]⟩

lemma fill_ok_iff : (∃ x, fill m spec verb v = .ok x) ↔ verb ∈ verbs ∧ (verb = 115 → Readable m v) := by
  have hfloat : Text.ofString "fFeEgG" = [102, 70, 101, 69, 103, 71] := by decide +kernel
  have hverbs : verbs = [100, 105, 117, 120, 88, 111, 99, 102, 70, 101, 69, 103, 71, 115, 112] := by decide +kernel
  rw [hverbs, ← textOf_ok_iff]
  by_cases h : verb = 115
  · subst h
    cases ht : textOf m v <;> simp [fill, hfloat, ht]
  · unfold fill
    split_ifs <;> simp_all <;> tauto

lemma verb_outside (h : verb = 37 ∨ verb ∈ verbs) :
    isFlag verb = false ∧ isNumber verb = false ∧ isLength verb = false := by
  have hall : ∀ b ∈ 37 :: verbs, isFlag b = false ∧ isNumber b = false ∧ isLength b = false := by decide +kernel
  exact hall verb (mem_cons.2 h)

lemma length_outside (h : isLength b) : isFlag b = false ∧ isNumber b = false := by
  have hall : ∀ b ∈ Text.ofString "hlLqjzt", isFlag b = false ∧ isNumber b = false := by decide +kernel
  exact hall b (contains_iff_mem.1 h)

lemma while_append (xs) {ys : Text} (h : ∀ b ∈ ys.head?, p b = false) :
    (xs ++ ys).takeWhile p = xs.takeWhile p ∧ (xs ++ ys).dropWhile p = xs.dropWhile p ++ ys := by
  induction xs with
  | nil => cases ys <;> simp_all
  | cons x xs ih => cases hx : p x <;> simp [hx, ih]

lemma directive_reads (hf : ∀ b ∈ flags, isFlag b)
    (hn : ∀ b ∈ numbers, isNumber b) (hl : ∀ b ∈ lengths, isLength b) (hv : verb = 37 ∨ verb ∈ verbs) :
    directive? (flags ++ (numbers ++ (lengths ++ verb :: rest))) = some (flags ++ numbers, verb, rest) := by
  obtain ⟨hvf, hvn, hvl⟩ := verb_outside hv
  have hhead : ∀ b ∈ (lengths ++ verb :: rest).head?, isFlag b = false ∧ isNumber b = false := by
    intro b hb
    cases lengths with
    | nil =>
      cases hb
      exact ⟨hvf, hvn⟩
    | cons c lengths =>
      cases hb
      exact length_outside (hl b mem_cons_self)
  have hrest : ∀ b ∈ (flags ++ numbers).dropWhile isFlag, isNumber b := by
    rw [dropWhile_append_of_pos hf]
    exact fun b hb => hn b ((dropWhile_sublist _).subset hb)
  obtain ⟨htake, hdrop⟩ := while_append (flags ++ numbers) fun b hb => (hhead b hb).1
  obtain ⟨htake', hdrop'⟩ := while_append ((flags ++ numbers).dropWhile isFlag) fun b hb => (hhead b hb).2
  have hend : (lengths ++ verb :: rest).dropWhile isLength = verb :: rest := by
    rw [dropWhile_append_of_pos hl, dropWhile_cons_of_neg (by simp [hvl])]
  rw [← append_assoc, directive?, htake, hdrop, htake', hdrop', takeWhile_eq_self_iff.2 hrest,
    dropWhile_eq_nil_iff.2 hrest, nil_append, hend, takeWhile_append_dropWhile]

lemma directive_split (h : directive? t = some (spec, verb, rest)) : ∃ flags numbers lengths,
    t = flags ++ (numbers ++ (lengths ++ verb :: rest)) ∧ spec = flags ++ numbers ∧ (∀ b ∈ flags, isFlag b) ∧
      (∀ b ∈ numbers, isNumber b) ∧ ∀ b ∈ lengths, isLength b := by
  unfold directive? at h
  split at h
  · cases h
  next hend =>
    cases h
    refine ⟨_, _, ((t.dropWhile isFlag).dropWhile isNumber).takeWhile isLength, ?_, rfl,
      fun b => mem_takeWhile_imp, fun b => mem_takeWhile_imp, fun b => mem_takeWhile_imp⟩
    rw [← hend, takeWhile_append_dropWhile, takeWhile_append_dropWhile, takeWhile_append_dropWhile]

lemma bind_pure_ok_iff {x : Except ε Text} {w : Text} (h : ∀ o, x = .ok o ↔ S ∧ o = w)
    (f : Text → Text) : (x >>= fun tail => pure (f tail)) = .ok out ↔ S ∧ out = f w := by
  cases x with
  | error e => simpa [Except.bind] using fun hs => absurd ((h w).2 ⟨hs, rfl⟩) nofun
  | ok o =>
    obtain ⟨hs, rfl⟩ := (h o).1 rfl
    simp [bind, Except.bind, pure, Except.pure, hs, eq_comm]

lemma slots_directive (h : verb ≠ 37) :
    slots (.directive flags numbers lengths verb :: ps) = (flags ++ numbers, verb) :: slots ps := by
  simp [slots, Piece.slot?, h]

lemma format_pieces (hp : ∀ p ∈ ps, p.Complete) :
    format m (ps.flatMap Piece.text) args = .ok out ↔ Supplied m ps args ∧ out = written m ps args := by
  induction ps generalizing args out with
  | nil => simp [format, Supplied, slots, written]
  | cons p ps ih =>
    obtain ⟨hhead, hrest⟩ := forall_mem_cons.1 hp
    cases p with
    | byte b =>
      rw [flatMap_cons, Piece.text, singleton_append, format, if_pos (by exact hhead)]
      exact bind_pure_ok_iff (fun _ => ih hrest) (b :: ·)
    | directive flags numbers lengths verb =>
      obtain ⟨hf, hn, hl, hv⟩ := hhead
      have hread : format m ((Piece.directive flags numbers lengths verb :: ps).flatMap Piece.text) args =
          format m (37 :: (flags ++ (numbers ++ (lengths ++ verb :: ps.flatMap Piece.text)))) args := by
        simp [Piece.text]
      rw [hread, format_percent, directive_reads hf hn hl hv]
      by_cases h : verb = 37
      · subst h
        exact bind_pure_ok_iff (fun _ => ih hrest) (37 :: ·)
      · simp only [h, written]
        cases args with
        | nil => simp [Supplied, slots_directive h]
        | cons v args =>
          have hsupplied : Supplied m (.directive flags numbers lengths verb :: ps) (v :: args) ↔
              (verb = 115 → Readable m v) ∧ Supplied m ps args := by
            simp only [Supplied, slots_directive h, length_cons, zip_cons_cons, forall_mem_cons, Nat.succ_le_succ_iff]
            tauto
          rw [hsupplied]
          have hfill : (∃ w, fill m (flags ++ numbers) verb v = .ok w) ↔ (verb = 115 → Readable m v) :=
            fill_ok_iff.trans (and_iff_right (hv.resolve_left h))
          by_cases hs : verb = 115 → Readable m v
          · obtain ⟨w, hw⟩ := hfill.2 hs
            have hr : rendered m (flags ++ numbers) verb v = w := by simp [rendered, hw, Except.toOption]
            simp only [hw, hr]
            rw [and_iff_right hs]
            exact bind_pure_ok_iff (fun _ => ih hrest) (w ++ ·)
          · cases hw : fill m (flags ++ numbers) verb v with
            | ok w => exact absurd (hfill.1 ⟨w, hw⟩) hs
            | error e => simp [hw, hs, bind, Except.bind]

lemma pieces_cons (h : directive? t = some (spec, verb, rest)) (hv : verb = 37 ∨ verb ∈ verbs)
    (hrest : ∃ ps, Consists rest ps) : ∃ ps, Consists (37 :: t) ps := by
  obtain ⟨ps, hps, rfl⟩ := hrest
  obtain ⟨flags, numbers, lengths, rfl, -, hf, hn, hl⟩ := directive_split h
  exact ⟨.directive flags numbers lengths verb :: ps, forall_mem_cons.2 ⟨⟨hf, hn, hl, hv⟩, hps⟩, by simp [Piece.text]⟩

lemma ok_of_bind {x : Except ε Text} {f : Text → Except ε Text} (h : (x >>= f) = .ok out) :
    ∃ w, x = .ok w ∧ f w = .ok out := by
  cases x with
  | error e => cases h
  | ok w => exact ⟨w, rfl, h⟩

lemma pieces_of_format (h : format m t args = .ok out) : ∃ ps, Consists t ps := by
  fun_induction format m t args generalizing out with
  | case1 => exact ⟨[], by simp [Consists]⟩
  | case2 args b t hb ih =>
    obtain ⟨w, hw, -⟩ := ok_of_bind h
    obtain ⟨ps, hps, rfl⟩ := ih hw
    exact ⟨.byte b :: ps, forall_mem_cons.2 ⟨hb, hps⟩, rfl⟩
  | case3 args b t hb hd => cases h
  | case4 args b t hb spec rest hd ih =>
    obtain rfl := not_not.1 hb
    obtain ⟨w, hw, -⟩ := ok_of_bind h
    exact pieces_cons hd (.inl rfl) (ih hw)
  | case5 b t hb spec verb rest hd hv => cases h
  | case6 b t hb spec verb rest hd hv v args ih =>
    obtain rfl := not_not.1 hb
    obtain ⟨w, hw, hr⟩ := ok_of_bind h
    obtain ⟨w', hw', -⟩ := ok_of_bind hr
    exact pieces_cons hd (.inr (fill_ok_iff.1 ⟨w, hw⟩).1) (ih hw')

lemma slots_append (ps qs) : slots (ps ++ qs) = slots ps ++ slots qs := filterMap_append

lemma written_append (h : (slots ps).length = args.length) :
    written m (ps ++ qs) (args ++ args') = written m ps args ++ written m qs args' := by
  induction ps generalizing args with
  | nil =>
    cases args with
    | nil => rfl
    | cons v args => cases h
  | cons p ps ih =>
    cases p with
    | byte b => simp only [cons_append, written, ih h]
    | directive flags numbers lengths verb =>
      by_cases hv : verb = 37
      · subst hv
        simp only [cons_append, written, if_true, ih h]
      · rw [slots_directive hv] at h
        cases args with
        | nil => cases h
        | cons v args => simp only [cons_append, written, hv, if_false, ih (Nat.succ.inj h), append_assoc]

/-- A format is filled in if and only if it consists of bytes that stand for themselves and complete directives,
there is an argument for each directive other than `%%` and a text can be read where one is asked for; what is
written is what the pieces write. If a format uses all of its arguments, another one can follow it. -/
theorem format_exact (m : Memory) (t : Text) (args : List Value) :
    (∀ out, format m t args = .ok out ↔
      ∃ ps, Consists t ps ∧ Supplied m ps args ∧ out = written m ps args) ∧
    ∀ t' args' out out', format m t args = .ok out → format m t' args' = .ok out' →
      (∃ ps, Consists t ps ∧ (slots ps).length = args.length) →
      format m (t ++ t') (args ++ args') = .ok (out ++ out') := by
  constructor
  · intro out
    constructor
    · intro h
      obtain ⟨ps, hps, rfl⟩ := pieces_of_format h
      exact ⟨ps, ⟨hps, rfl⟩, (format_pieces hps).1 h⟩
    · rintro ⟨ps, ⟨hps, rfl⟩, h⟩
      exact (format_pieces hps).2 h
  · rintro t' args' out out' h h' ⟨ps, ⟨hps, rfl⟩, hlen⟩
    obtain ⟨qs, hqs, rfl⟩ := pieces_of_format h'
    obtain ⟨⟨-, hread⟩, rfl⟩ := (format_pieces hps).1 h
    obtain ⟨⟨hle, hread'⟩, rfl⟩ := (format_pieces hqs).1 h'
    rw [← List.flatMap_append, format_pieces (List.forall_mem_append.2 ⟨hps, hqs⟩), written_append hlen]
    refine ⟨⟨?_, ?_⟩, rfl⟩
    · rw [slots_append, List.length_append, List.length_append]
      omega
    · rw [slots_append, List.zip_append hlen]
      exact List.forall_mem_append.2 ⟨hread, hread'⟩

end Arbor.Run.Library
