import Mathlib
import Arbor.Proofs.Appending
import Arbor.Run.Machine

/-! Integers of every width are computed in 64 bits and cut to their width afterwards. For each width the results are
those of two's-complement words. -/

namespace Arbor.Run

open IR BitVec Exec

def InRange (w : Width) (n : Int64) : Prop := -(2 ^ (w.bits - 1) : Int) ≤ n.toInt ∧ n.toInt < 2 ^ (w.bits - 1)

instance (w : Width) (n : Int64) : Decidable (InRange w n) := inferInstanceAs (Decidable (_ ∧ _))

def word (w : Width) (n : Int64) : BitVec w.bits := BitVec.ofInt w.bits n.toInt

lemma word_eq_setWidth (w n) : word w n = n.toBitVec.setWidth w.bits := by
  have hle : w.bits ≤ 64 := by cases w <;> decide
  apply eq_of_toInt_eq
  rw [word, toInt_ofInt, ← signExtend_eq_setWidth_of_le _ hle, toInt_signExtend, Nat.min_eq_left hle]
  rfl

lemma toInt_word (h : InRange w n) : (word w n).toInt = n.toInt := by
  have hpow : ((2 ^ w.bits : Nat) : Int) = 2 * 2 ^ (w.bits - 1) := by cases w <;> decide
  obtain ⟨hlow, hhigh⟩ := h
  rw [word, toInt_ofInt]
  apply Int.bmod_eq_of_le_mul_two
  · omega
  · omega

lemma inRange_of_toInt (h : (word w n).toInt = n.toInt) : InRange w n := by
  have hpow : ((2 : Int) ^ w.bits) = 2 * 2 ^ (w.bits - 1) := by cases w <;> decide
  have hlow := le_two_mul_toInt (x := word w n)
  have hhigh := two_mul_toInt_lt (x := word w n)
  exact ⟨by omega, by omega⟩

lemma toInt_wrap (hw : w ≠ .w1) (n) : (wrap w n).toInt = (word w n).toInt := by
  rw [word, toInt_ofInt]
  cases w with
  | w1 => exact absurd rfl hw
  | w8 | w16 | w32 => simp [wrap, Width.bits]
  | w64 => exact (Int64.toInt_bmod n).symm

lemma word_wrap (hw : w ≠ .w1) (n) : word w (wrap w n) = word w n := by
  rw [word, toInt_wrap hw, ofInt_toInt]

/-! ### Operations on words -/

/-- The operation on words of any width. -/
def onWords {N : Nat} (op : IntOp) (x y : BitVec N) : BitVec N :=
  match op with
  | .add => x + y
  | .sub => x - y
  | .mul => x * y
  | .sdiv => x.sdiv y
  | .srem => x.srem y
  | .and => x &&& y
  | .or => x ||| y
  | .xor => x ^^^ y
  | .shl => x <<< y
  | .ashr => x.sshiftRight' y

/-- Divisors are not zero, and shifts are by less than the width. -/
def InDomain {N : Nat} (op : IntOp) (y : BitVec N) : Prop :=
  match op with
  | .sdiv | .srem => y ≠ 0
  | .shl | .ashr => y.toNat < N
  | _ => True

def compareWords {N : Nat} (c : Comparison) (x y : BitVec N) : Bool :=
  match c with
  | .eq => x == y
  | .ne => x != y
  | .gt => y.slt x
  | .ge => y.sle x
  | .lt => x.slt y
  | .le => x.sle y

lemma word_inj (hx : InRange w x) (hy : InRange w y) : word w x = word w y ↔ x = y := by
  constructor
  · intro h
    rw [← Int64.toInt_inj, ← toInt_word hx, h, toInt_word hy]
  · rintro rfl
    rfl

lemma bits_le (w : Width) : w.bits ≤ 64 := by cases w <;> decide

lemma word_sdiv (hx : InRange w x) (hy : InRange w y) : word w (x / y) = (word w x).sdiv (word w y) := by
  apply eq_of_toInt_eq
  rw [toInt_sdiv, toInt_word hx, toInt_word hy, word, toInt_ofInt, Int64.toInt_div]
  exact Int.bmod_bmod_of_dvd (Nat.pow_dvd_pow 2 (bits_le w))

lemma word_srem (hx : InRange w x) (hy : InRange w y) : word w (x % y) = (word w x).srem (word w y) := by
  rw [word, Int64.toInt_mod, ← toInt_word hx, ← toInt_word hy, ← toInt_srem, ofInt_toInt]

lemma amount_eq (k : Fin 64) : ((BitVec.ofNat 64 k &&& 63).smod 64).toNat = k := by
  revert k
  decide +kernel

lemma shift_amount (hw : w ≠ .w1) (hy : InRange w y) (hlt : (word w y).toNat < w.bits) :
    ((y &&& 63).toBitVec.smod 64).toNat = (word w y).toNat := by
  have hsmall : 2 * (word w y).toNat < 2 ^ w.bits := by
    cases w with
    | w1 => exact absurd rfl hw
    | _ =>
      simp only [Width.bits] at hlt ⊢
      omega
  have hint : y.toInt = ((word w y).toNat : Int) := by
    rw [← toInt_word hy, toInt_eq_toNat_of_lt hsmall]
  have hvec : y.toBitVec = BitVec.ofNat 64 (word w y).toNat := by
    apply eq_of_toInt_eq
    rw [← ofInt_natCast, ← hint, toInt_ofInt]
    exact (Int64.toInt_bmod y).symm
  rw [Int64.toBitVec_and, hvec]
  exact amount_eq ⟨_, hlt.trans_le (bits_le w)⟩

lemma intOp_word (hw : w ≠ .w1) (op) (hx : InRange w x) (hy : InRange w y) (hd : InDomain op (word w y)) :
    ∃ r, intOp op x y = some r ∧ word w r = onWords op (word w x) (word w y) := by
  have hle := bits_le w
  have hne : word w y ≠ 0 → y ≠ 0 := by
    rintro h rfl
    exact h (by simp [word])
  cases op with
  | add =>
    refine ⟨_, rfl, ?_⟩
    simp only [onWords, word_eq_setWidth, Int64.toBitVec_add, setWidth_add _ _ hle]
  | sub =>
    refine ⟨_, rfl, ?_⟩
    simp only [onWords, word_eq_setWidth, Int64.toBitVec_sub, sub_eq_add_neg, setWidth_add _ _ hle,
      setWidth_neg_of_le hle]
  | mul =>
    refine ⟨_, rfl, ?_⟩
    simp only [onWords, word_eq_setWidth, Int64.toBitVec_mul, setWidth_mul _ _ hle]
  | sdiv => exact ⟨_, if_neg (hne hd), word_sdiv hx hy⟩
  | srem => exact ⟨_, if_neg (hne hd), word_srem hx hy⟩
  | and =>
    refine ⟨_, rfl, ?_⟩
    simp only [onWords, word_eq_setWidth, Int64.toBitVec_and, setWidth_and]
  | or =>
    refine ⟨_, rfl, ?_⟩
    simp only [onWords, word_eq_setWidth, Int64.toBitVec_or, setWidth_or]
  | xor =>
    refine ⟨_, rfl, ?_⟩
    simp only [onWords, word_eq_setWidth, Int64.toBitVec_xor, setWidth_xor]
  | shl =>
    refine ⟨_, rfl, ?_⟩
    rw [word_eq_setWidth, Int64.toBitVec_shiftLeft, shiftLeft_eq', shift_amount hw hy hd,
      setWidth_shiftLeft_of_le hle, ← word_eq_setWidth]
    rfl
  | ashr =>
    refine ⟨_, rfl, ?_⟩
    apply eq_of_toInt_eq
    simp only [onWords, sshiftRight']
    have hshift : (x >>> (y &&& 63)).toInt = x.toInt >>> (word w y).toNat := by
      change (x >>> (y &&& 63)).toBitVec.toInt = _
      rw [Int64.toBitVec_shiftRight, sshiftRight', shift_amount hw hy hd, toInt_sshiftRight]
      rfl
    rw [word, hshift, ← toInt_word hx, ← toInt_sshiftRight, ofInt_toInt]

lemma compareInts_word (c) (hx : InRange w x) (hy : InRange w y) :
    compareInts c x y = compareWords c (word w x) (word w y) := by
  cases c with
  | eq => simp [compareInts, compareWords, beq_eq_decide, word_inj hx hy]
  | ne => simp [compareInts, compareWords, bne, beq_eq_decide, word_inj hx hy]
  | gt | lt => simp [compareInts, compareWords, slt_eq_decide, toInt_word hx, toInt_word hy, Int64.lt_iff_toInt_lt]
  | ge | le => simp [compareInts, compareWords, sle_eq_decide, toInt_word hx, toInt_word hy, Int64.le_iff_toInt_le]

lemma word_narrowed (hle : u.bits ≤ w.bits) (hx : InRange w x) : word u x = (word w x).setWidth u.bits := by
  rw [← signExtend_eq_setWidth_of_le _ hle]
  apply eq_of_toInt_eq
  rw [toInt_signExtend, toInt_word hx, Nat.min_eq_left hle, word, toInt_ofInt]

lemma word_widened (hle : w.bits ≤ u.bits) (hx : InRange w x) :
    InRange u x ∧ word u x = (word w x).signExtend u.bits := by
  have hword : word u x = (word w x).signExtend u.bits := by
    rw [word, ← toInt_word hx]
    rfl
  refine ⟨inRange_of_toInt ?_, hword⟩
  rw [hword, toInt_signExtend_of_le hle, toInt_word hx]

/-! ### Instructions on integers -/

section Computing

/-- The instruction computes this word, as the integer of the width that stands for it. -/
def Gives (S : Store) (f : Frame) (m : Machine) (i : InstInfo) (w : Width) (z : BitVec w.bits) : Prop :=
  ∃ r, Exec.compute S f i m = .ok (.int r) m ∧ InRange w r ∧ word w r = z

lemma gives_wrap (hw : w ≠ .w1) (h : compute S f i m = .ok (.int (wrap w n)) m) : Gives S f m i w (word w n) :=
  ⟨_, h, inRange_of_toInt (by rw [word_wrap hw, toInt_wrap hw]), word_wrap hw n⟩

lemma compute_int (op) (hi : i.inst = .int op a b) (ta : S.tyOf a = .int w) (ea : eval S f a m = .ok (.int x) m)
    (eb : eval S f b m = .ok (.int y) m) (hr : intOp op x y = some r) :
    compute S f i m = .ok (.int (wrap w r)) m := by
  unfold compute
  simp only [hi, bind, EStateM.bind, ea, eb, Value.toInt, hr, ta]
  rfl

lemma gives_int (hw : w ≠ .w1) (op) (hi : i.inst = .int op a b) (ta : S.tyOf a = .int w)
    (ea : eval S f a m = .ok (.int x) m) (eb : eval S f b m = .ok (.int y) m) (hx : InRange w x)
    (hy : InRange w y) (hd : InDomain op (word w y)) : Gives S f m i w (onWords op (word w x) (word w y)) := by
  obtain ⟨r, hr, hword⟩ := intOp_word hw op hx hy hd
  rw [← hword]
  exact gives_wrap hw (compute_int op hi ta ea eb hr)

lemma compute_icmp (c) (hi : i.inst = .icmp c a b) (ea : eval S f a m = .ok (.int x) m)
    (eb : eval S f b m = .ok (.int y) m) (hx : InRange w x) (hy : InRange w y) :
    compute S f i m = .ok (.int (ofBool (compareWords c (word w x) (word w y)))) m := by
  unfold compute
  simp only [hi, bind, EStateM.bind, ea, eb, ← compareInts_word c hx hy]
  rfl

lemma compute_cast {target : Ty} (hi : i.inst = .cast c a target) (ta : S.tyOf a = .int w)
    (ea : eval S f a m = .ok (.int x) m) :
    compute S f i m = .ok (cast c (.int w) target (.int x)) m := by
  unfold compute
  simp only [hi, bind, EStateM.bind, ea, ta]
  rfl

lemma inRange_ofBool (hw : w ≠ .w1) (z) :
    InRange w (ofBool z) ∧ word w (ofBool z) = (BitVec.ofBool z).zeroExtend w.bits := by
  cases w with
  | w1 => exact absurd rfl hw
  | _ => cases z <;> decide

/-- Arithmetic on integers of 8, 16, 32 and 64 bits is that of words. Whatever two operands hold within the range of
their width, an operation yields the word that the operation on words does, within the range again; so do the
comparisons, the negative and the complement as they are put into a block, and the casts to other widths. -/
theorem integers_are_words (hw : w ≠ .w1) (ta : S.tyOf a = .int w) (ea : Exec.eval S f a m = .ok (.int x) m)
    (eb : Exec.eval S f b m = .ok (.int y) m) (hx : InRange w x) (hy : InRange w y) :
    (∀ op i, i.inst = .int op a b → InDomain op (word w y) → Gives S f m i w (onWords op (word w x) (word w y))) ∧
    (∀ c i, i.inst = .icmp c a b →
      Exec.compute S f i m = .ok (.int (ofBool (compareWords c (word w x) (word w y)))) m) ∧
    (∀ s v h s', s.Coherent → s.operand? v = some a → s.tyOf a = .int w →
      (Emit.unary .neg v s = .ok h s' → ∃ i, s'.inst? h = some i ∧ Gives S f m i w (-word w x)) ∧
      (Emit.unary .flip v s = .ok h s' → ∃ i, s'.inst? h = some i ∧ Gives S f m i w (~~~word w x))) ∧
    (∀ (u : Width) (i : InstInfo), u ≠ .w1 → u.bits < w.bits → i.inst = .cast .trunc a (.int u) →
      Gives S f m i u ((word w x).setWidth u.bits)) ∧
    (∀ (u : Width) (i : InstInfo), w.bits < u.bits → i.inst = .cast .sext a (.int u) →
      Gives S f m i u ((word w x).signExtend u.bits)) ∧
    ∀ (u : Width) (i : InstInfo) c z, u ≠ .w1 → S.tyOf c = .int .w1 →
      Exec.eval S f c m = .ok (.int (ofBool z)) m → i.inst = .cast .zext c (.int u) →
      Gives S f m i u ((BitVec.ofBool z).zeroExtend u.bits) := by
  refine ⟨fun op i hi hd => gives_int hw op hi ta ea eb hx hy hd, fun c i hi => compute_icmp c hi ea eb hx hy,
    fun s v h s' hs hv hty => ⟨fun hrun => ?_, fun hrun => ?_⟩, fun u i hu hlt hi => ?_, fun u i hlt hi => ?_,
    fun u i c z hu tc ec hi => ?_⟩
  · obtain ⟨i, hi, hneg, -⟩ := ((Emit.unary_moves (B := fun _ => False) hs .neg v).of_ok hrun).2 a w hv hty hw
    refine ⟨i, hi, ?_⟩
    have hsub := gives_int hw .sub (hneg rfl) rfl rfl ea (by cases w <;> decide) hx trivial
    have hzero : word w 0 = 0#w.bits := by simp [word]
    rwa [hzero, onWords, BitVec.zero_sub] at hsub
  · obtain ⟨i, hi, -, hflip⟩ := ((Emit.unary_moves (B := fun _ => False) hs .flip v).of_ok hrun).2 a w hv hty hw
    refine ⟨i, hi, ?_⟩
    have hxor := gives_int hw .xor (hflip rfl) ta ea rfl hx (by cases w <;> decide) trivial
    have hones : word w (-1) = BitVec.allOnes w.bits := by cases w <;> decide
    rwa [hones, onWords, BitVec.xor_allOnes] at hxor
  · rw [← word_narrowed hlt.le hx]
    exact gives_wrap hu (compute_cast hi ta ea)
  · obtain ⟨hrange, hword⟩ := word_widened hlt.le hx
    refine ⟨x, (compute_cast hi ta ea).trans ?_, hrange, hword⟩
    cases w with
    | w1 => exact absurd rfl hw
    | _ => rfl
  · obtain ⟨hrange, hword⟩ := inRange_ofBool hu z
    refine ⟨_, (compute_cast hi tc ec).trans ?_, hrange, hword⟩
    cases z <;> rfl

/-- The least integer divided by minus one is itself again. -/
theorem integers_are_words_least : InRange .w8 (-128) ∧ Gives .initial default {}
      { inst := .int .sdiv (.const (.int .w8 (-128))) (.const (.int .w8 (-1))), ty := .i8, block := noHandle } .w8
      (onWords .sdiv (word .w8 (-128)) (word .w8 (-1))) ∧
    onWords .sdiv (word .w8 (-128)) (word .w8 (-1)) = word .w8 (-128) := by
  have hwords := integers_are_words (w := .w8) (S := .initial) (f := default) (m := {}) (a := .const (.int .w8 (-128)))
    (b := .const (.int .w8 (-1))) (y := -1) (by decide) rfl rfl rfl (by decide) (by decide)
  exact ⟨by decide, hwords.1 .sdiv _ rfl (by change word .w8 (-1) ≠ 0; decide), by decide⟩

end Computing

end Arbor.Run
