import Arbor.IR.Types

/-! Sizes and alignments: System V on 64-bit machines, fields in order, each at its natural
alignment. -/

namespace Arbor.IR

structure Extent where
  size : Nat
  align : Nat
deriving DecidableEq

namespace Extent

def address : Extent := ⟨8, 8⟩

end Extent

def alignTo (n align : Nat) : Nat := if align ≤ 1 then n else (n + align - 1) / align * align

/-- The places of fields laid one after another. -/
structure Placement where
  offsets : List Nat := []
  size : Nat := 0
  align : Nat := 1
deriving DecidableEq

namespace Placement

def add (p : Placement) (field : Extent) : Placement :=
  let start := alignTo p.size field.align
  { offsets := p.offsets ++ [start], size := start + field.size, align := max p.align field.align }

def extent (p : Placement) : Extent := ⟨alignTo p.size p.align, p.align⟩

end Placement

def Width.extent : Width → Extent
  | .w1 | .w8 => ⟨1, 1⟩
  | .w16 => ⟨2, 2⟩
  | .w32 => ⟨4, 4⟩
  | .w64 => ⟨8, 8⟩

def Precision.extent : Precision → Extent
  | .single => ⟨4, 4⟩
  | .double => ⟨8, 8⟩

def maxArrayLength : Nat := 0x7FFFFFFFFFFFFFFF

namespace Store

def unopened (s : Store) (inside : List Handle) : Nat :=
  (List.range s.entries.size).countP (· ∉ inside)

theorem unopened_cons_lt {s : Store} {inside : List Handle} {h : Handle} {i : StructInfo}
    (hi : s.struct? h = some i) (hm : h ∉ inside) :
    s.unopened (h :: inside) < s.unopened inside := by
  have hlt : h < s.entries.size := by
    apply Nat.lt_of_not_le
    intro hle
    rw [struct?, entry, Array.getD_eq_getD_getElem?, Array.getElem?_eq_none hle] at hi
    cases hi
  have hcount : 0 < (List.range s.entries.size).countP (· == h) :=
    List.countP_pos_iff.2 ⟨h, List.mem_range.2 hlt, by simp⟩
  have hsplit : s.unopened inside =
      s.unopened (h :: inside) + (List.range s.entries.size).countP (· == h) := by
    unfold unopened
    induction List.range s.entries.size with
    | nil => rfl
    | cons k ks ih =>
      simp only [List.countP_cons, ih]
      by_cases hk : k = h <;> simp [hk, hm] <;> omega
  omega

mutual

/-- The extent of a type. `inside` holds the structs being laid out: meeting one again means that
it contains itself. -/
def extentIn (s : Store) (inside : List Handle) : Ty → Except Refusal Extent
  | .int w => .ok w.extent
  | .float p => .ok p.extent
  | .ptr _ => .ok .address
  | .func .. => .ok .address
  | .array n e => do
    let x ← s.extentIn inside e
    if n ≤ maxArrayLength then pure ⟨x.size * n, x.align⟩ else throw .arrayLength
  | .struct h =>
    match s.struct? h with
    | none => throw (.noSize "<invalid>")
    | some i => do
      if i.fields.isNone then throw (.noBody i.label)
      let p ← s.placementIn inside h
      pure p.extent
  | t => throw (.noSize (s.tyText t))
termination_by t => (s.unopened inside, sizeOf t)

def placementIn (s : Store) (inside : List Handle) (h : Handle) : Except Refusal Placement :=
  match _hi : s.struct? h with
  | none => throw (.noSize "<invalid>")
  | some i =>
    if _hm : h ∈ inside then throw (.containsItself i.label)
    else (i.fields.getD []).foldlM
      (fun p t => do pure (p.add (← s.extentIn (h :: inside) t))) ({} : Placement)
termination_by (s.unopened inside, 0)
decreasing_by exact Prod.Lex.left _ _ (unopened_cons_lt _hi _hm)

end

def extent (s : Store) (t : Ty) : Except Refusal Extent := s.extentIn [] t

def placement (s : Store) (h : Handle) : Except Refusal Placement := s.placementIn [] h

end Store

end Arbor.IR
