import Mathlib
import Arbor.Project.Graph

/-! Modules in waves. The counts that the waves are read off always say how many imports a module
still waits for, so each wave is exactly what can be built then. A module is in wave `k` if its
longest chain of imports has length `k`, and in no wave if its imports lead to a cycle. -/

namespace Arbor.Project

open Relation Nat
open List (mem_filter mem_range mem_append mem_cons)

def ChainFrom {α : Type} (r : α → α → Prop) : Nat → α → Prop
  | 0, _ => True
  | n + 1, a => ∃ b, r a b ∧ ChainFrom r n b

namespace ChainFrom

variable {α β : Type} {r : α → α → Prop}

lemma of_succ (h : ChainFrom r (n + 1) a) : ChainFrom r n a := by
  induction n generalizing a with
  | zero => trivial
  | succ n ih =>
    obtain ⟨b, hab, hb⟩ := h
    exact ⟨b, hab, ih hb⟩

lemma of_le (hle : m ≤ n) (h : ChainFrom r n a) : ChainFrom r m a := by
  induction hle with
  | refl => exact h
  | step _ ih => exact ih h.of_succ

lemma lift (f : α → β) (hf : ∀ a b, r a b → p (f a) (f b)) (h : ChainFrom r n a) : ChainFrom p n (f a) := by
  induction n generalizing a with
  | zero => trivial
  | succ n ih =>
    obtain ⟨b, hab, hb⟩ := h
    exact ⟨f b, hf a b hab, ih hb⟩

lemma back (hb : ChainFrom r n b) (h : ReflTransGen r a b) : ChainFrom r n a := by
  induction h using ReflTransGen.head_induction_on with
  | refl => exact hb
  | head hac _ ih => exact of_succ ⟨_, hac, ih⟩

lemma of_cycle (h : TransGen r a a) (n) : ChainFrom r n a := by
  induction n with
  | zero => trivial
  | succ n ih =>
    obtain ⟨b, hab, hba⟩ := TransGen.head'_iff.1 h
    exact ⟨b, hab, ih.back hba⟩

end ChainFrom

namespace Graph

variable {g : Graph} {done : List ModuleId} {id dep : ModuleId} {counts : Counts}

def Imports (g : Graph) (id dep : ModuleId) : Prop := dep ∈ g.presentDeps id

/-- What holds of the graph of a list of nodes. -/
structure Sound (g : Graph) : Prop where
  lt : ∀ id, g.isPresent id → id < g.names.length
  nodup : ∀ id, (g.presentDeps id).Nodup
  present : ∀ id dep, g.Imports id dep → g.isPresent id

lemma Imports.present (h : g.Imports id dep) : g.isPresent dep := (mem_filter.1 h).2

lemma mem_collect (hg : g.Sound) : id ∈ g.collect keep ↔ g.isPresent id ∧ keep id := by
  simp only [collect, ids, mem_filter, mem_range, Bool.and_eq_true]
  exact ⟨fun h => h.2, fun h => ⟨hg.lt id h.1, h⟩⟩

lemma collect_sorted (keep) : (g.collect keep).Pairwise (· < ·) := List.pairwise_lt_range.filter _

lemma mem_users (hg : g.Sound) : id ∈ g.users dep ↔ g.Imports id dep := by
  simp only [users, ids, mem_filter, mem_range, decide_eq_true_eq]
  exact ⟨fun h => h.2, fun h => ⟨hg.lt id (hg.present id dep h), h⟩⟩

/-! ### What can be built -/

def ready (g : Graph) (done : List ModuleId) : List ModuleId :=
  g.collect fun id => id ∉ done && (g.presentDeps id).all (· ∈ done)

def stage (g : Graph) : Nat → List ModuleId
  | 0 => []
  | k + 1 => g.stage k ++ g.ready (g.stage k)

lemma mem_ready (hg : g.Sound) :
    id ∈ g.ready done ↔ g.isPresent id ∧ id ∉ done ∧ ∀ dep, g.Imports id dep → dep ∈ done := by
  simp [ready, mem_collect hg, Imports]

lemma mem_stage (hg : g.Sound) (k) : id ∈ g.stage k ↔ g.isPresent id ∧ ¬ChainFrom g.Imports k id := by
  induction k generalizing id with
  | zero => simp [stage, ChainFrom]
  | succ k ih =>
    rw [stage, mem_append, mem_ready hg, ih]
    constructor
    · rintro (⟨hp, hchain⟩ | ⟨hp, -, hdeps⟩)
      · exact ⟨hp, fun h => hchain h.of_succ⟩
      · refine ⟨hp, ?_⟩
        rintro ⟨dep, hdep, h⟩
        exact (ih.1 (hdeps dep hdep)).2 h
    · rintro ⟨hp, hchain⟩
      by_cases hk : ChainFrom g.Imports k id
      · refine .inr ⟨hp, fun h => h.2 hk, fun dep hdep => ih.2 ⟨hdep.present, fun h => ?_⟩⟩
        exact hchain ⟨dep, hdep, h⟩
      · exact .inl ⟨hp, hk⟩

lemma stage_closed (hg : g.Sound) (h : id ∈ g.stage k) (hdep : g.Imports id dep) : dep ∈ g.stage k := by
  obtain ⟨-, hchain⟩ := (mem_stage hg k).1 h
  exact (mem_stage hg k).2 ⟨hdep.present, fun h => hchain (ChainFrom.of_succ ⟨dep, hdep, h⟩)⟩

lemma stage_nodup (hg : g.Sound) (k) : (g.stage k).Nodup := by
  induction k with
  | zero => exact List.nodup_nil
  | succ k ih =>
    refine List.nodup_append'.2 ⟨ih, (collect_sorted _).imp ne_of_lt, fun id hid h => ?_⟩
    exact ((mem_ready hg).1 h).2.1 hid

lemma stage_length_le (hg : g.Sound) (k) : (g.stage k).length ≤ g.names.length := by
  have hsub : g.stage k ⊆ List.range g.names.length := fun id h => mem_range.2 (hg.lt id ((mem_stage hg k).1 h).1)
  simpa using (List.subperm_of_subset (stage_nodup hg k) hsub).length_le

/-! ### The counts -/

/-- The counts say how many imports are not built yet. -/
structure Waiting (g : Graph) (done : List ModuleId) (counts : Counts) : Prop where
  size : counts.size = g.names.length
  count : ∀ id < g.names.length, counts.getD id 0 = ((g.presentDeps id).countP (· ∉ done) : Nat)

lemma foldl_takeOff (users : List ModuleId) (counts : Counts) (next)
    (hlt : ∀ id ∈ users, id < counts.size) (hle : ∀ id, (users.count id : Int) ≤ counts.getD id 0) :
    ∃ counts' new, users.foldl takeOff (counts, next) = (counts', next ++ new) ∧ counts'.size = counts.size ∧
      (∀ id, counts'.getD id 0 = counts.getD id 0 - users.count id) ∧ new.Nodup ∧
      ∀ id, id ∈ new ↔ id ∈ users ∧ counts.getD id 0 = users.count id := by
  induction users generalizing counts next with
  | nil => exact ⟨counts, [], by simp, rfl, by simp, .nil, by simp⟩
  | cons user users ih =>
    have hget : ∀ id, (counts.setIfInBounds user (counts.getD user 0 - 1)).getD id 0 =
        if id = user then counts.getD user 0 - 1 else counts.getD id 0 := by
      have hsize := hlt user (by simp)
      intro id
      simp only [Array.getD_eq_getD_getElem?, Array.getElem?_setIfInBounds]
      grind
    have hcount : ∀ id, ((user :: users).count id : Int) = users.count id + if id = user then 1 else 0 := by
      intro id
      simp only [List.count_cons, beq_iff_eq, cast_add, eq_comm (a := user)]
      split <;> rfl
    have hle' : ∀ id, (users.count id : Int) ≤
        (counts.setIfInBounds user (counts.getD user 0 - 1)).getD id 0 := by
      intro id
      have := hle id
      rw [hcount] at this
      rw [hget]
      split at this <;> simp_all
    obtain ⟨counts', new, heq, hsize, hcounts, hnodup, hnew⟩ := ih
      (counts.setIfInBounds user (counts.getD user 0 - 1))
      (if counts.getD user 0 - 1 = 0 then next ++ [user] else next)
      (fun id hid => by simpa using hlt id (by simp [hid])) hle'
    have hfold : (user :: users).foldl takeOff (counts, next) =
      (counts', (if counts.getD user 0 - 1 = 0 then next ++ [user] else next) ++ new) := heq
    have hcounts' : ∀ id, counts'.getD id 0 = counts.getD id 0 - (user :: users).count id := by
      intro id
      rw [hcounts, hcount, hget]
      split <;> simp_all
      omega
    by_cases hzero : counts.getD user 0 - 1 = 0
    · -- The last import of this user: it does not occur again.
      have hlast : user ∉ users := by
        have := hle' user
        rw [hget, if_pos rfl, hzero] at this
        exact List.count_eq_zero.1 (by omega)
      refine ⟨counts', user :: new, by rw [hfold, if_pos hzero]; simp, by simpa using hsize, hcounts', ?_, fun id => ?_⟩
      · exact List.nodup_cons.2 ⟨fun h => hlast ((hnew user).1 h).1, hnodup⟩
      · rw [mem_cons, hnew, hcount, hget, mem_cons]
        by_cases hid : id = user
        · subst hid
          refine iff_of_true (.inl rfl) ⟨.inl rfl, ?_⟩
          rw [List.count_eq_zero.2 hlast, if_pos rfl]
          omega
        · simp [hid]
    · refine ⟨counts', new, by rw [hfold, if_neg hzero], by simpa using hsize, hcounts', hnodup, fun id => ?_⟩
      rw [hnew, hcount, hget, mem_cons]
      by_cases hid : id = user
      · subst hid
        simp only [if_pos, true_or, true_and]
        constructor
        · rintro ⟨-, h⟩
          omega
        · intro h
          have hpos : 0 < users.count id := by omega
          exact ⟨List.count_pos_iff.1 hpos, by omega⟩
      · simp [hid]

lemma count_users (hg : g.Sound) {wave : List ModuleId} (hwave : wave.Nodup) (id) :
    (wave.flatMap g.users).count id = (g.presentDeps id).countP (· ∈ wave) := by
  have hone : ∀ dep, (g.users dep).count id = if dep ∈ g.presentDeps id then 1 else 0 := by
    intro dep
    by_cases h : dep ∈ g.presentDeps id
    · rw [if_pos h]
      exact List.count_eq_one_of_mem (List.nodup_range.filter _) ((mem_users hg).2 h)
    · rw [if_neg h, List.count_eq_zero.2 fun hmem => h ((mem_users hg).1 hmem)]
  have hleft : (wave.flatMap g.users).count id = (wave.filter (· ∈ g.presentDeps id)).length := by
    rw [List.count_flatMap]
    induction wave with
    | nil => rfl
    | cons m wave ih =>
      rw [List.map_cons, List.sum_cons, ih hwave.of_cons, Function.comp_apply, hone]
      by_cases h : m ∈ g.presentDeps id <;> simp [h, add_comm]
  rw [hleft, List.countP_eq_length_filter]
  refine (List.perm_of_nodup_nodup_toFinset_eq (hwave.filter _) ((hg.nodup id).filter _) ?_).length_eq
  ext dep
  simp [and_comm]

lemma countP_ready (hg : g.Sound) (done) (id) : (g.presentDeps id).countP (· ∉ done) =
    (g.presentDeps id).countP (· ∈ g.ready done) + (g.presentDeps id).countP (· ∉ done ++ g.ready done) := by
  induction g.presentDeps id with
  | nil => rfl
  | cons dep deps ih =>
    have hnew : dep ∈ g.ready done → dep ∉ done := fun h => ((mem_ready hg).1 h).2.1
    simp only [List.countP_cons, mem_append]
    split_ifs <;> simp_all <;> omega

lemma ready_nodup (done) : (g.ready done).Nodup := (collect_sorted _).imp ne_of_lt

lemma Waiting.count_users_le (hg : g.Sound) (h : g.Waiting done counts) (id) :
    (((g.ready done).flatMap g.users).count id : Int) ≤ counts.getD id 0 := by
  rw [count_users hg (ready_nodup done)]
  by_cases hid : id < g.names.length
  · rw [h.count id hid, countP_ready hg]
    omega
  · have hnone : g.presentDeps id = [] := List.eq_nil_iff_forall_not_mem.2 fun dep hdep =>
      hid (hg.lt id (hg.present id dep hdep))
    have hout : counts.getD id 0 = 0 := by
      rw [Array.getD_eq_getD_getElem?, Array.getElem?_eq_none (h.size ▸ Nat.le_of_not_lt hid), Option.getD_none]
    simp [hnone, hout]

lemma Waiting.mem_ready_next (hg : g.Sound) (hclosed : ∀ id ∈ done, ∀ dep, g.Imports id dep → dep ∈ done)
    (h : g.Waiting (done ++ g.ready done) counts) (id) :
    (id ∈ (g.ready done).flatMap g.users ∧ counts.getD id 0 = 0) ↔ id ∈ g.ready (done ++ g.ready done) := by
  rw [mem_ready hg, List.mem_flatMap]
  constructor
  · rintro ⟨⟨dep, hdep, hid⟩, hcount⟩
    have himports := (mem_users hg).1 hid
    have hpresent := hg.present id dep himports
    have hwait : dep ∉ done := ((mem_ready hg).1 hdep).2.1
    refine ⟨hpresent, fun hdone => ?_, fun dep' hdep' => ?_⟩
    · rcases mem_append.1 hdone with hdone | hnow
      · exact hwait (hclosed id hdone dep himports)
      · exact hwait (((mem_ready hg).1 hnow).2.2 dep himports)
    · have hzero := (h.count id (hg.lt id hpresent)).symm.trans hcount
      have hnone := List.countP_eq_zero.1 (cast_eq_zero.1 hzero) dep' hdep'
      simpa [-mem_append] using hnone
  · rintro ⟨hpresent, hnot, hdeps⟩
    refine ⟨?_, ?_⟩
    · by_contra hno
      refine hnot (List.mem_append_right _ ((mem_ready hg).2 ⟨hpresent, fun h => hnot (List.mem_append_left _ h), ?_⟩))
      intro dep hdep
      refine (mem_append.1 (hdeps dep hdep)).resolve_right fun hnow => ?_
      exact hno ⟨dep, hnow, (mem_users hg).2 hdep⟩
    · rw [h.count id (hg.lt id hpresent), List.countP_eq_zero.2 fun dep hdep => by
        simpa [-mem_append] using hdeps dep hdep]
      rfl

lemma passOn_waiting (hg : g.Sound) (hclosed : ∀ id ∈ done, ∀ dep, g.Imports id dep → dep ∈ done)
    (h : g.Waiting done counts) : ∃ counts', g.passOn counts (g.ready done) = (counts', g.ready (done ++ g.ready done)) ∧
      g.Waiting (done ++ g.ready done) counts' := by
  have hlt : ∀ id ∈ (g.ready done).flatMap g.users, id < counts.size := by
    intro id hid
    obtain ⟨dep, -, hdep⟩ := List.mem_flatMap.1 hid
    exact h.size ▸ hg.lt id (hg.present id dep ((mem_users hg).1 hdep))
  obtain ⟨counts', new, heq, hsize, hcounts, hnew, hmem⟩ := foldl_takeOff _ counts [] hlt (h.count_users_le hg)
  have hwaiting : g.Waiting (done ++ g.ready done) counts' := by
    refine ⟨hsize.trans h.size, fun id hid => ?_⟩
    rw [hcounts, count_users hg (ready_nodup done), h.count id hid, countP_ready hg]
    omega
  have hperm : new.mergeSort.Perm (g.ready (done ++ g.ready done)) := by
    refine (List.mergeSort_perm new _).trans (List.perm_of_nodup_nodup_toFinset_eq hnew (ready_nodup _) ?_)
    ext id
    rw [List.mem_toFinset, List.mem_toFinset, hmem, ← hwaiting.mem_ready_next hg hclosed, hcounts, sub_eq_zero]
  refine ⟨counts', ?_, hwaiting⟩
  rw [passOn, heq]
  exact congrArg (Prod.mk counts')
    (hperm.eq_of_sortedLE List.sortedLE_mergeSort ((collect_sorted _).imp le_of_lt).sortedLE)

lemma stage_eq_of_ready (h : g.ready (g.stage k) = []) (j) : g.stage (k + j) = g.stage k := by
  induction j with
  | zero => rfl
  | succ j ih => rw [← add_assoc, stage, ih, h, List.append_nil]

def WavesAt (g : Graph) (k : Nat) (r : List (List ModuleId) × Counts) : Prop :=
  (∀ j, r.1.getD j [] = g.ready (g.stage (k + j))) ∧ ∃ last, g.Waiting (g.stage last) r.2 ∧ g.ready (g.stage last) = []

lemma WavesAt.nil (h : g.Waiting (g.stage k) counts) (hnone : g.ready (g.stage k) = []) :
    g.WavesAt k ([], counts) :=
  ⟨fun j => by rw [stage_eq_of_ready hnone, hnone]; simp, k, h, hnone⟩

lemma WavesAt.cons {k : Nat} (h : g.WavesAt (k + 1) r) :
    g.WavesAt k (g.ready (g.stage k) :: r.1, r.2) := by
  refine ⟨fun j => ?_, h.2⟩
  cases j with
  | zero => rfl
  | succ j => rw [List.getD_cons_succ, h.1, add_assoc, add_comm 1]

section

variable (hg : g.Sound)

include hg

lemma wavesFrom_eq (fuel k : Nat) (h : g.Waiting (g.stage k) counts)
    (hfuel : g.names.length ≤ (g.stage k).length + fuel) :
    g.WavesAt k (g.wavesFrom fuel counts (g.ready (g.stage k))) := by
  induction fuel generalizing k counts with
  | zero =>
    refine .nil h (List.eq_nil_iff_forall_not_mem.2 fun id hid => ?_)
    have hle := stage_length_le hg (k + 1)
    rw [stage, List.length_append] at hle
    have := List.length_pos_of_mem hid
    omega
  | succ fuel ih =>
    rw [wavesFrom]
    by_cases hempty : g.ready (g.stage k) = []
    · rw [if_pos (by simpa using hempty)]
      exact .nil h hempty
    · rw [if_neg (by simpa using hempty)]
      obtain ⟨counts', heq, hwaiting⟩ := passOn_waiting hg (fun id hid dep => stage_closed hg hid) h
      rw [heq]
      have hpos := List.length_pos_iff.2 hempty
      have hlen : g.names.length ≤ (g.stage (k + 1)).length + fuel := by
        rw [stage, List.length_append]
        omega
      exact .cons (ih (k + 1) hwaiting hlen)

lemma schedule_wavesAt : ∃ left, g.WavesAt 0 (g.schedule.waves, left) ∧
    g.schedule.stuck = g.collect fun id => 0 < left.getD id 0 := by
  have hstart : g.Waiting [] g.counts := ⟨by simp [counts, ids], fun id hid => by simp [counts, ids, hid]⟩
  have hfirst : (g.collect fun id => g.counts.getD id 0 = 0) = g.ready [] := by
    refine List.filter_congr fun id hid => ?_
    beta_reduce
    rw [hstart.count id (mem_range.1 hid)]
    cases g.presentDeps id with
    | nil => simp
    | cons dep deps =>
      simp
      omega
  have hwaves := wavesFrom_eq hg g.names.length 0 hstart (by simp)
  refine ⟨_, ?_, rfl⟩
  rw [← show (g.collect fun id => g.counts.getD id 0 = 0) = g.ready (g.stage 0) from hfirst] at hwaves
  exact hwaves

/-! ### The schedule -/

lemma mem_wave (k) :
    id ∈ g.schedule.waves.getD k [] ↔ g.isPresent id ∧ IsGreatest { n | ChainFrom g.Imports n id } k := by
  obtain ⟨left, ⟨hwaves, -⟩, -⟩ := schedule_wavesAt hg
  have hstep : id ∈ g.ready (g.stage k) ↔ id ∈ g.stage (k + 1) ∧ id ∉ g.stage k := by
    rw [stage, mem_append]
    exact ⟨fun h => ⟨.inr h, ((mem_ready hg).1 h).2.1⟩, fun h => h.1.resolve_left h.2⟩
  rw [hwaves k, zero_add, hstep, mem_stage hg, mem_stage hg]
  constructor
  · rintro ⟨⟨hp, hlong⟩, hnot⟩
    refine ⟨hp, by_contra fun h => hnot ⟨hp, h⟩, fun n hn => ?_⟩
    by_contra hlt
    exact hlong (hn.of_le (Nat.lt_of_not_le hlt))
  · rintro ⟨hp, hk, hmax⟩
    exact ⟨⟨hp, fun h => absurd (hmax h) (not_succ_le_self k)⟩, fun h => h.2 hk⟩

lemma order_eq_stage : g.schedule.order = g.stage g.schedule.waves.length := by
  obtain ⟨left, ⟨hwaves, -⟩, -⟩ := schedule_wavesAt hg
  have htake : ∀ k ≤ g.schedule.waves.length, (g.schedule.waves.take k).flatten = g.stage k := by
    intro k hk
    induction k with
    | zero => rfl
    | succ k ih =>
      have hget := hwaves k
      rw [List.getD_eq_getElem _ _ hk, zero_add] at hget
      rw [List.take_succ_eq_append_getElem hk, List.flatten_append, ih (le_of_succ_le hk), stage, ← hget]
      simp
  rw [Schedule.order, ← htake _ (le_refl _), List.take_length]

lemma order_before (h : g.schedule.order = before ++ id :: after) (hdep : g.Imports id dep) : dep ∈ before := by
  rw [order_eq_stage hg] at h
  generalize g.schedule.waves.length = k at h
  induction k generalizing after with
  | zero => simp [stage] at h
  | succ k ih =>
    rw [stage, List.append_eq_append_iff] at h
    rcases h with ⟨rest, rfl, hready⟩ | ⟨rest, hstage, hready⟩
    · have hid : id ∈ g.ready (g.stage k) := by rw [hready]; simp
      exact List.mem_append_left _ (((mem_ready hg).1 hid).2.2 dep hdep)
    · cases rest with
      | nil =>
        have hid : id ∈ g.ready (g.stage k) := by simp at hready; rw [← hready]; simp
        rw [List.append_nil] at hstage
        exact hstage ▸ ((mem_ready hg).1 hid).2.2 dep hdep
      | cons head rest =>
        obtain ⟨rfl, rfl⟩ := List.cons.inj hready
        exact ih hstage

lemma exists_last_stage : ∃ last, g.ready (g.stage last) = [] ∧
    ∀ id, id ∈ g.schedule.stuck ↔ g.isPresent id ∧ id ∉ g.stage last := by
  obtain ⟨left, ⟨-, last, hwaiting, hnone⟩, hstuck⟩ := schedule_wavesAt hg
  refine ⟨last, hnone, fun id => ?_⟩
  rw [hstuck, mem_collect hg]
  refine and_congr_right fun hp => ?_
  rw [decide_eq_true_eq, hwaiting.count id (hg.lt id hp), cast_pos, List.countP_pos_iff]
  constructor
  · rintro ⟨dep, hdep, hnot⟩ hid
    exact absurd (stage_closed hg hid hdep) (by simpa using hnot)
  · intro hid
    by_contra hall
    have hready : id ∈ g.ready (g.stage last) := (mem_ready hg).2 ⟨hp, hid, fun dep hdep => by
      by_contra hnot
      exact hall ⟨dep, hdep, by simpa using hnot⟩⟩
    rw [hnone] at hready
    cases hready

lemma mem_stuck : id ∈ g.schedule.stuck ↔ g.isPresent id ∧ ∀ n, ChainFrom g.Imports n id := by
  obtain ⟨last, hnone, hstuck⟩ := exists_last_stage hg
  rw [hstuck, mem_stage hg]
  refine and_congr_right fun hp => ⟨fun h n => by_contra fun hn => ?_, fun h hmem => hmem.2 (h last)⟩
  have hlater : id ∈ g.stage (last + n) := (mem_stage hg _).2 ⟨hp, fun hc => hn (hc.of_le (Nat.le_add_left ..))⟩
  rw [stage_eq_of_ready hnone] at hlater
  exact h ((mem_stage hg _).1 hlater)

lemma exists_stuck_import (h : id ∈ g.schedule.stuck) : ∃ dep ∈ g.schedule.stuck, g.Imports id dep := by
  obtain ⟨last, hnone, hstuck⟩ := exists_last_stage hg
  obtain ⟨hp, hid⟩ := (hstuck id).1 h
  by_contra hall
  have hready : id ∈ g.ready (g.stage last) := (mem_ready hg).2 ⟨hp, hid, fun dep hdep => by
    by_contra hnot
    exact hall ⟨dep, (hstuck dep).2 ⟨hdep.present, hnot⟩, hdep⟩⟩
  rw [hnone] at hready
  cases hready

end

lemma walk_closes (hpresent : ∀ id ∈ stuck, g.isPresent id)
    (hstuck : ∀ id ∈ stuck, ∃ dep ∈ stuck, g.Imports id dep) (fuel)
    (trail here) (hnodup : trail.Nodup) (hsub : ∀ id ∈ trail, id ∈ stuck)
    (hhere : here ∈ stuck) (hway : (trail ++ [here]).IsChain g.Imports) (hfuel : stuck.length < trail.length + fuel) :
    ∃ before on mid, (∀ more, g.walk stuck (fuel + more) trail here = on :: mid ++ [on]) ∧
      (before ++ on :: mid).Nodup ∧ (∀ id ∈ before ++ on :: mid, id ∈ stuck) ∧
      (before ++ on :: mid ++ [on]).IsChain g.Imports ∧ trail ++ [here] <+: before ++ on :: mid ++ [on] := by
  induction fuel generalizing trail here with
  | zero =>
    have hle := (List.subperm_of_subset hnodup hsub).length_le
    omega
  | succ fuel ih =>
    by_cases hseen : here ∈ trail
    · obtain ⟨before, mid, rfl, hbefore⟩ := List.eq_append_cons_of_mem hseen
      refine ⟨before, here, mid, fun more => ?_, hnodup, hsub, hway, List.prefix_rfl⟩
      have hpast : ∀ id ∈ before, decide (id ≠ here) = true := fun id hid =>
        decide_eq_true fun heq => hbefore (heq ▸ hid)
      rw [succ_add, walk, List.dropWhile_append_of_pos hpast]
      simp
    · cases hnext : (g.deps here).find? (· ∈ stuck) with
      | none =>
        obtain ⟨dep, hdep, himports⟩ := hstuck here hhere
        exact absurd hdep (by simpa using List.find?_eq_none.1 hnext dep (mem_filter.1 himports).1)
      | some next =>
        have hmem : next ∈ stuck := by simpa using List.find?_some hnext
        have himports : g.Imports here next := mem_filter.2 ⟨List.mem_of_find?_eq_some hnext, hpresent next hmem⟩
        obtain ⟨before, on, mid, hwalk, hnodup', hsub', hway', hprefix⟩ := ih (trail ++ [here]) next
          (List.nodup_append'.2 ⟨hnodup, by simp, by simpa using hseen⟩) (by simpa [or_imp, forall_and, hhere] using hsub)
          hmem (hway.append (.singleton next) (by simpa using himports)) (by simp; omega)
        refine ⟨before, on, mid, fun more => ?_, hnodup', hsub', hway', (List.prefix_append _ _).trans hprefix⟩
        rw [succ_add, walk, if_neg hseen, hnext]
        exact hwalk more

lemma transGen_of_isChain {r : α → α → Prop} {l : List α} {a b : α} (h : (a :: l ++ [b]).IsChain r) :
    TransGen r a b := by
  induction l generalizing a with
  | nil => exact .single (by simpa using h)
  | cons c l ih =>
    rw [List.cons_append, List.cons_append, List.isChain_cons_cons] at h
    exact .head h.1 (ih h.2)

lemma schedule_walk (hg : g.Sound) (h : id ∈ g.schedule.stuck) : ∃ before on mid,
    (∀ more, g.walk g.schedule.stuck (g.schedule.stuck.length + 1 + more) [] id = on :: mid ++ [on]) ∧
      (before ++ on :: mid).Nodup ∧ (∀ id ∈ before ++ on :: mid, id ∈ g.schedule.stuck) ∧
      (before ++ on :: mid ++ [on]).IsChain g.Imports ∧ [id] <+: before ++ on :: mid ++ [on] :=
  walk_closes (fun _ hid => ((mem_stuck hg).1 hid).1) (fun _ => exists_stuck_import hg) _ [] id .nil (by simp) h
    (.singleton _) (by simp)

lemma mem_stuck_iff_cycle (hg : g.Sound) : id ∈ g.schedule.stuck ↔
    g.isPresent id ∧ ∃ on, ReflTransGen g.Imports id on ∧ TransGen g.Imports on on := by
  constructor
  · intro h
    obtain ⟨before, on, mid, -, -, -, hway, hstart⟩ := schedule_walk hg h
    refine ⟨((mem_stuck hg).1 h).1, on, ?_, transGen_of_isChain (List.append_assoc .. ▸ hway).right_of_append⟩
    cases before with
    | nil =>
      cases (List.cons_prefix_cons.1 hstart).1
      exact .refl
    | cons first before =>
      cases (List.cons_prefix_cons.1 hstart).1
      refine (transGen_of_isChain (l := before) ?_).to_reflTransGen
      exact (List.isChain_split.1 (by simpa using hway)).1
  · rintro ⟨hp, on, hpath, hcycle⟩
    exact (mem_stuck hg).2 ⟨hp, fun n => (ChainFrom.of_cycle hcycle n).back hpath⟩

lemma mem_order (hg : g.Sound) : id ∈ g.schedule.order ↔ g.isPresent id ∧ ∃ n, ¬ChainFrom g.Imports n id := by
  constructor
  · intro h
    rw [order_eq_stage hg, mem_stage hg] at h
    exact ⟨h.1, _, h.2⟩
  · rintro ⟨hp, hn⟩
    classical
    have hshort := Nat.find_spec hn
    obtain ⟨k, hk⟩ := Nat.exists_eq_succ_of_ne_zero fun h0 : Nat.find hn = 0 => by
      rw [h0] at hshort
      exact hshort trivial
    have hwave : id ∈ g.schedule.waves.getD k [] := by
      refine (mem_wave hg k).2 ⟨hp, not_not.1 (Nat.find_min hn (by omega)), fun n hchain => ?_⟩
      by_contra hlt
      exact hshort (ChainFrom.of_le (by omega) hchain)
    by_cases hlen : k < g.schedule.waves.length
    · rw [List.getD_eq_getElem _ _ hlen] at hwave
      exact List.mem_flatten.2 ⟨_, List.getElem_mem hlen, hwave⟩
    · simp [Nat.le_of_not_lt hlen] at hwave

lemma mem_order_append_stuck (hg : g.Sound) : id ∈ g.schedule.order ++ g.schedule.stuck ↔ g.isPresent id := by
  rw [mem_append, mem_order hg, mem_stuck hg, ← and_or_left]
  exact and_iff_left (by rw [← not_forall]; exact (em _).symm)

lemma order_append_stuck_nodup (hg : g.Sound) : (g.schedule.order ++ g.schedule.stuck).Nodup := by
  obtain ⟨left, -, hstuck⟩ := schedule_wavesAt hg
  refine List.nodup_append'.2 ⟨order_eq_stage hg ▸ stage_nodup hg _, ?_, fun id hid h => ?_⟩
  · exact hstuck ▸ (collect_sorted _).imp ne_of_lt
  · obtain ⟨-, n, hn⟩ := (mem_order hg).1 hid
    exact hn (((mem_stuck hg).1 h).2 n)

end Graph

end Arbor.Project
