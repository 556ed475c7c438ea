import Arbor.Trace.Tracer
import Mathlib

/-! The ring holds the latest events. What was pushed before is either still there as it was or has given way, oldest
first, so a snapshot is the end of all that was kept. -/

namespace Arbor.Trace

open List

namespace Ring

structure Sound (r : Ring) : Prop where
  bounded : r.count ≤ r.slots.size
  inside : r.next < r.slots.size

variable {r : Ring}

lemma sound_ofSize (n) : (ofSize n).Sound := by
  constructor
  · exact Nat.zero_le _
  · unfold ofSize
    simp only [Array.size_replicate]
    split
    · simpa using ‹0 < n›
    · exact Nat.succ_pos _

lemma size_push (s) : (r.push s).slots.size = r.slots.size := Array.size_setIfInBounds

lemma Sound.push (h : r.Sound) (s) : (r.push s).Sound := by
  refine ⟨?_, ?_⟩
  · rw [size_push]
    exact Nat.min_le_right _ _
  · rw [size_push]
    exact Nat.mod_lt _ (Nat.zero_lt_of_lt h.inside)

lemma mod_eq_ite {x n : Nat} (h : x < 2 * n) : x % n = if x < n then x else x - n := by
  split
  · exact Nat.mod_eq_of_lt ‹_›
  · rw [Nat.mod_eq_sub_mod (by omega), Nat.mod_eq_of_lt (by omega)]

/-- The slot of the `i`th of the stored events, the oldest first. -/
def place (r : Ring) (i : Nat) : Nat := (r.next + r.slots.size - r.count + i) % r.slots.size

lemma snapshot_eq (r : Ring) : r.snapshot = (range r.count).map fun i => r.slots.getD (r.place i) blank := by
  simp only [snapshot, place, Nat.mod_add_mod]

lemma Sound.place_eq (h : r.Sound) (hi : i < r.count) :
    r.place i = if r.next + i < r.count then r.next + r.slots.size - r.count + i else r.next + i - r.count := by
  have hb := h.bounded
  have hn := h.inside
  rw [place, mod_eq_ite (by omega)]
  split <;> split <;> omega

lemma Sound.place_push (h : r.Sound) (s) (hi : i < (r.push s).count) :
    (r.push s).place i = if i + 1 = (r.push s).count then r.next else r.place (i + (r.count + 1 - r.slots.size)) := by
  have hb := h.bounded
  have hn := h.inside
  have hcount : (r.push s).count = min (r.count + 1) r.slots.size := rfl
  have hnext : (r.push s).next = if r.next + 1 < r.slots.size then r.next + 1 else 0 := by
    rw [show (r.push s).next = (r.next + 1) % r.slots.size from rfl, mod_eq_ite (by omega)]
    split <;> omega
  rw [(h.push s).place_eq hi, size_push]
  split
  all_goals split
  all_goals try rw [h.place_eq (by omega)]
  all_goals split at hnext <;> try split
  all_goals omega

lemma Sound.snapshot_push (h : r.Sound) (s) : (r.push s).snapshot = (r.snapshot ++ [s]).rtake r.slots.size := by
  have hb := h.bounded
  have hn := h.inside
  have hcount : (r.push s).count = min (r.count + 1) r.slots.size := rfl
  have hlen : r.snapshot.length = r.count := by simp [snapshot]
  refine ext_getElem ?_ fun i hi _ => ?_
  · simp only [snapshot, rtake, length_map, length_range, length_drop, length_append, length_singleton]
    omega
  · rw [snapshot_eq, length_map, length_range] at hi
    simp only [snapshot_eq (r.push s), rtake, getElem_map, getElem_range, getElem_drop, length_append, hlen,
      length_singleton, getElem_append, h.place_push s hi]
    -- The newest is in the slot that was written; the others are where they were.
    by_cases hlast : i + 1 = (r.push s).count
    · rw [if_pos hlast, dif_neg (by omega)]
      simp [Ring.push, hn]
    · have hold : r.place (i + (r.count + 1 - r.slots.size)) ≠ r.next := by
        rw [h.place_eq (by omega)]
        split <;> omega
      rw [if_neg hlast, dif_pos (by omega)]
      simp only [snapshot_eq, getElem_map, getElem_range, Nat.add_comm (r.count + 1 - r.slots.size) i, Ring.push,
        Array.getD_eq_getD_getElem?, Array.getElem?_setIfInBounds, if_neg hold.symm]

end Ring

def stamps (count : Nat) (now : Int) (es : List Event) : List Stamped :=
  es.zipIdx.map fun x => ⟨x.1, count + x.2 + 1, now⟩

variable {count : Nat} {now : Int} {es : List Event}

lemma stamps_concat (e) : stamps count now (es ++ [e]) = stamps count now es ++ [⟨e, count + es.length + 1, now⟩] := by
  simp [stamps, zipIdx_append]

lemma events_stamps : (stamps count now es).map Stamped.event = es := by
  simp [stamps, Function.comp_def]

lemma stamps_increase : (stamps count now es).Pairwise (·.seq < ·.seq) := by
  rw [pairwise_iff_getElem]
  simp [stamps]

namespace Tracer

/-- A tracer that keeps events in a ring and has given `count` numbers so far. -/
def holding (level : Level) (r : Ring) (count : Nat) (now : Int) : Tracer :=
  { recorder := { level }, storage := { ring := some r, count, now } }

lemma emit_holding (level r count now e) :
    (holding level r count now).emit e = if e.passes level then holding level (r.push ⟨e, count + 1, now⟩) (count + 1) now
      else holding level r count now := by
  unfold emit settle holding Recorder.emit
  split <;> simp [Storage.keep, Storage.toStream, Storage.toRing]

lemma foldl_emit (level capacity count now) (es : List Event) : ∃ r : Ring,
    r.Sound ∧ r.slots.size = (Ring.ofSize capacity).slots.size ∧
    r.snapshot = (stamps count now (es.filter (·.passes level))).rtake r.slots.size ∧
    es.foldl emit (holding level (.ofSize capacity) count now) =
      holding level r (count + (es.filter (·.passes level)).length) now := by
  induction es using reverseRecOn with
  | nil => exact ⟨_, Ring.sound_ofSize capacity, rfl, by simp [stamps, Ring.snapshot, Ring.ofSize], rfl⟩
  | append_singleton es e ih =>
    obtain ⟨r, hr, hcap, hsnap, hrun⟩ := ih
    rw [foldl_append, hrun, foldl_cons, emit_holding, filter_append]
    by_cases he : e.passes level
    · have hone : [e].filter (·.passes level) = [e] := by simp [he]
      rw [if_pos he, hone, stamps_concat, length_append]
      refine ⟨_, hr.push _, (Ring.size_push _).trans hcap, ?_, rfl⟩
      obtain ⟨n, hn⟩ := Nat.exists_eq_succ_of_ne_zero (Nat.ne_of_gt (Nat.zero_lt_of_lt hr.inside))
      rw [hr.snapshot_push, hsnap, Ring.size_push, hn, rtake_concat_succ]
      simp [rtake_eq_reverse_take_reverse, take_take]
    · have hnone : [e].filter (·.passes level) = [] := by simp [he]
      rw [if_neg he, hnone, append_nil]
      exact ⟨r, hr, hcap, hsnap, rfl⟩

/-- A snapshot shows the latest of the events that pass, the oldest first, with growing numbers. What one snapshot shows
under a number no later one shows otherwise. -/
theorem snapshot_latest (level : Level) (capacity : Int) (count : Nat) (now : Int) (es later : List Event) :
    let kept := es.filter (·.passes level)
    let latest := kept.rtake (min kept.length (if 0 < capacity then capacity.toNat else 4096))
    let t := es.foldl emit (holding level (.ofSize capacity) count now)
    ∃ l l', t.snapshot? = some latest ∧ t.storage.ring.map Ring.snapshot = some l ∧ l.map Stamped.event = latest ∧
      l.Pairwise (·.seq < ·.seq) ∧ (later.foldl emit t).storage.ring.map Ring.snapshot = some l' ∧
      ∀ x ∈ l, ∀ y ∈ l', x.seq = y.seq → x = y := by
  intro kept latest t
  obtain ⟨r, -, hcap, hsnap, hrun⟩ := foldl_emit level capacity count now es
  obtain ⟨r', -, -, hsnap', hrun'⟩ := foldl_emit level capacity count now (es ++ later)
  have hlatest : r.snapshot.map Stamped.event = latest := by
    have hlen : (stamps count now kept).length = kept.length := by simp [stamps]
    rw [hsnap, rtake, map_drop, events_stamps, hlen, hcap, ← tsub_min, Ring.ofSize, Array.size_replicate]
    rfl
  rw [foldl_append] at hrun'
  refine ⟨r.snapshot, r'.snapshot, ?_, ?_, hlatest, ?_, ?_, ?_⟩
  · rw [← hlatest, show t = _ from hrun]
    rfl
  · rw [show t = _ from hrun]
    rfl
  · rw [hsnap]
    exact stamps_increase.sublist (drop_sublist _ _)
  · rw [show later.foldl emit t = _ from hrun']
    rfl
  · intro x hx y hy hseq
    rw [hsnap] at hx
    rw [hsnap', filter_append] at hy
    refine inj_on_of_nodup_map ((pairwise_map.2 stamps_increase).imp ne_of_lt) ?_ (mem_of_mem_drop hy) hseq
    rw [stamps, zipIdx_append, map_append]
    exact mem_append_left _ (mem_of_mem_drop hx)

end Tracer

end Arbor.Trace
