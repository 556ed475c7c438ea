import Arbor.Proofs.Ordering
import Arbor.Diag.Bag

/-! Clean findings. Sorting compares less than what makes two findings the same, and it is stable, so it does not
matter whether repetitions are dropped before it, after it, or as they come. -/

namespace Arbor.Diag

open List

variable {a b : Diagnostic} {l l' : List Diagnostic}

namespace Diagnostic

def before (a b : Diagnostic) : Bool := !b.precedes a

lemma before_total (a b : Diagnostic) : a.before b || b.before a := by
  have hle := Text.le_total a.module b.module
  unfold before precedes Text.lt
  grind

lemma before_trans (a b c : Diagnostic) (hab : a.before b) (hbc : b.before c) : a.before c := by
  have htrans := Text.le_trans a.module b.module c.module
  have hanti := Text.le_antisymm a.module b.module
  have hrank (x y : Severity) h : x = y := congrArg Severity.mk h
  unfold before precedes Text.lt at *
  grind

/-- Sorting does not tell the findings apart. -/
def level (a b : Diagnostic) : Bool := a.before b && b.before a

lemma level_of_key (h : a.key = b.key) : a.level b := by
  obtain ⟨⟩ := b
  cases h
  simp [level, before, precedes]

lemma level_congr (h : a.key = b.key) (d : Diagnostic) : d.level a = d.level b := by
  have hab := level_of_key h
  rw [Bool.eq_iff_iff]
  simp only [level, Bool.and_eq_true] at hab ⊢
  exact ⟨fun k => ⟨before_trans _ _ _ k.1 hab.1, before_trans _ _ _ hab.2 k.2⟩,
    fun k => ⟨before_trans _ _ _ k.1 hab.2, before_trans _ _ _ hab.1 k.2⟩⟩

end Diagnostic

open Diagnostic

namespace Bag

/-! ### Sorting -/

lemma filter_sort (d : Diagnostic) (l : List Diagnostic) :
    (l.mergeSort before).filter d.level = l.filter d.level := by
  have hlevel : (l.filter d.level).Pairwise fun a b => a.before b := by
    refine pairwise_of_forall_mem_list fun a ha b hb => ?_
    simp only [mem_filter, level, Bool.and_eq_true] at ha hb
    exact before_trans a d b ha.2.2 hb.2.1
  have hsub := (sublist_mergeSort before_trans before_total hlevel filter_sublist).filter d.level
  simp only [filter_filter, Bool.and_self] at hsub
  exact (hsub.eq_of_length ((mergeSort_perm l _).symm.filter _).length_eq).symm

lemma eq_of_sorted (h : l.Pairwise fun a b => a.before b) (h' : l'.Pairwise fun a b => a.before b)
    (hsame : ∀ d, l.filter (level d) = l'.filter (level d)) : l = l' := by
  have hself (d : Diagnostic) : d.level d := level_of_key rfl
  induction l generalizing l' with
  | nil =>
    cases l' with
    | nil => rfl
    | cons b l' => simpa [hself] using hsame b
  | cons a l ih =>
    cases l' with
    | nil => simpa [hself] using hsame a
    | cons b l' =>
      rw [pairwise_cons] at h h'
      have hb : b ∈ a :: l := (mem_filter.1 ((hsame b).symm ▸ mem_filter.2 ⟨mem_cons_self, hself b⟩)).1
      have ha : a ∈ b :: l' := (mem_filter.1 (hsame a ▸ mem_filter.2 ⟨mem_cons_self, hself a⟩)).1
      have hlevel : a.level b := by
        rcases mem_cons.1 hb with rfl | hb
        · exact hself b
        · rcases mem_cons.1 ha with rfl | ha
          · exact hself a
          · simp [level, h.1 b hb, h'.1 a ha]
      have hhead := hsame a
      rw [filter_cons_of_pos (hself a), filter_cons_of_pos hlevel] at hhead
      obtain ⟨rfl, -⟩ := cons.inj hhead
      refine congrArg _ (ih h.2 h'.2 fun d => ?_)
      have hd := hsame d
      rw [filter_cons, filter_cons] at hd
      split at hd
      · exact (cons.inj hd).2
      · exact hd

/-! ### Dropping repetitions -/

lemma freshItems_concat (seen l d) : freshItems seen (l ++ [d]) =
    freshItems seen l ++ if d.key ∈ seen ∨ d.key ∈ l.map key then [] else [d] := by
  induction l generalizing seen with
  | nil => simp [freshItems]
  | cons x l ih =>
    simp only [cons_append, freshItems, map_cons]
    by_cases hx : x.key ∈ seen
    · grind
    · rw [if_neg hx, if_neg hx, ih, cons_append]
      simp only [mem_cons, or_assoc, or_left_comm]

lemma fresh_concat (l d) :
    freshItems [] (l ++ [d]) = freshItems [] l ++ if d.key ∈ l.map key then [] else [d] := by
  simp [freshItems_concat]

lemma mem_keys_fresh (k l) : k ∈ (freshItems [] l).map key ↔ k ∈ l.map key := by
  induction l using reverseRecOn with
  | nil => rfl
  | append_singleton l d ih =>
    rw [fresh_concat, map_append, map_append, mem_append, mem_append, ih]
    split
    · next h => simp_all
    · rfl

lemma fresh_eq_filter (l) : freshItems [] l =
    (l.zipIdx.filter fun x => x.1.key ∉ (l.take x.2).map key).map Prod.fst := by
  induction l using reverseRecOn with
  | nil => rfl
  | append_singleton l d ih =>
    have hold : (l.zipIdx.filter fun x => x.1.key ∉ ((l ++ [d]).take x.2).map key) =
        l.zipIdx.filter fun x => x.1.key ∉ (l.take x.2).map key := by
      refine filter_congr fun x hx => ?_
      have hi : x.2 ≤ l.length := (mem_zipIdx hx).2.1.le.trans (by simp)
      rw [take_append_of_le_length hi]
    rw [fresh_concat, zipIdx_append, filter_append, map_append, hold, ← ih]
    by_cases hd : d.key ∈ l.map key <;> simp [hd]

lemma fresh_fresh (l) : freshItems [] (freshItems [] l) = freshItems [] l := by
  induction l using reverseRecOn with
  | nil => rfl
  | append_singleton l d ih =>
    rw [fresh_concat]
    by_cases hd : d.key ∈ l.map key
    · rw [if_pos hd, append_nil, ih]
    · rw [if_neg hd, fresh_concat, ih, if_neg (mt (mem_keys_fresh _ l).1 hd)]

lemma fresh_filter (d : Diagnostic) (l) :
    freshItems [] (l.filter d.level) = (freshItems [] l).filter d.level := by
  induction l using reverseRecOn with
  | nil => rfl
  | append_singleton l x ih =>
    rw [fresh_concat, filter_append]
    by_cases hx : d.level x
    · have hkey : x.key ∈ (l.filter d.level).map key ↔ x.key ∈ l.map key := by
        simp only [mem_map, mem_filter]
        exact ⟨fun ⟨y, hy, h⟩ => ⟨y, hy.1, h⟩, fun ⟨y, hy, h⟩ => ⟨y, ⟨hy, level_congr h d ▸ hx⟩, h⟩⟩
      rw [filter_cons_of_pos hx, filter_nil, fresh_concat, ih, if_congr hkey rfl rfl]
      split <;> simp [hx]
    · rw [filter_cons_of_neg hx, filter_nil, append_nil, ih]
      split <;> simp [hx]

lemma fresh_sublist (l) : freshItems [] l <+ l := by
  rw [fresh_eq_filter]
  simpa using (filter_sublist (l := l.zipIdx)).map Prod.fst

lemma fresh_sort (l) : freshItems [] (l.mergeSort before) = (freshItems [] l).mergeSort before := by
  have hsorted l := pairwise_mergeSort before_trans before_total l
  refine eq_of_sorted ((hsorted l).sublist (fresh_sublist _)) (hsorted _) fun d => ?_
  rw [← fresh_filter, filter_sort, filter_sort, fresh_filter]

/-- Findings reported through a filter into a bag without a limit. -/
def reported (l : List Diagnostic) : Filter × Bag := l.foldl (fun (r, b) => r.report b) ({}, {})

lemma reported_eq (l) :
    ∃ seen, (∀ k, k ∈ seen ↔ k ∈ l.map key) ∧ reported l = ({ seen }, { items := freshItems [] l }) := by
  induction l using reverseRecOn with
  | nil => exact ⟨[], by simp, rfl⟩
  | append_singleton l d ih =>
    obtain ⟨seen, hseen, hl⟩ := ih
    rw [reported, foldl_append, ← reported, hl, fresh_concat]
    simp only [foldl_cons, Filter.report, hseen]
    by_cases hd : d.key ∈ l.map key
    · exact ⟨seen, by grind, by simp [hd]⟩
    · exact ⟨d.key :: seen, by simp [hseen, or_comm], by simp [hd, add, isFull]⟩

lemma foldl_add (l : List Diagnostic) : l.foldl add {} = { items := l } := by
  induction l using reverseRecOn with
  | nil => rfl
  | append_singleton l d ih => simp [ih, add, isFull]

/-! ### Bags in use -/

inductive Deed where
  | add (d : Diagnostic)
  | merge (other : Bag)
  | sort
  | dedup

def after (b : Bag) : Deed → Bag
  | .add d => b.add d
  | .merge other => b.merge other
  | .sort => b.sort
  | .dedup => b.dedup

lemma after_bounded {b : Bag} (hpos : 0 < b.limit) (h : b.items.length ≤ b.limit) (u) :
    0 < (b.after u).limit ∧ (b.after u).items.length ≤ (b.after u).limit := by
  cases u with
  | add d =>
    simp only [after, add]
    split
    · exact ⟨hpos, h⟩
    · next hfull =>
      simp only [isFull, hpos] at hfull
      exact ⟨hpos, by simpa using hfull⟩
  | merge other =>
    simp only [after, merge, length_append, hpos, decide_true, Bool.true_and, decide_eq_true_eq]
    split <;> omega
  | sort => exact ⟨hpos, by simpa [after, sort] using h⟩
  | dedup => exact ⟨hpos, (fresh_sublist _).length_le.trans h⟩

/-- The order in which findings are cleaned does not matter, and a bag never holds more than its limit. -/
theorem cleanup_robust :
    (∀ b : Bag, b.dedup.items = (b.items.zipIdx.filter fun x => x.1.key ∉ (b.items.take x.2).map key).map Prod.fst) ∧
    (∀ b : Bag, b.dedup.dedup = b.dedup ∧ b.sort.dedup = b.dedup.sort) ∧
    (∀ l : List Diagnostic, (reported l).2 = (l.foldl add {}).dedup) ∧
    ∀ (limit : Nat) (deeds : List Deed), limit = 0 ∨
      (deeds.foldl after { limit }).items.length ≤ (deeds.foldl after { limit }).limit := by
  refine ⟨fun b => fresh_eq_filter b.items, fun b => ⟨?_, ?_⟩, fun l => ?_, fun limit deeds => ?_⟩
  · simp only [dedup, fresh_fresh]
  · simp only [dedup, sort]
    exact congrArg (Bag.mk · b.limit) (fresh_sort b.items)
  · obtain ⟨seen, -, h⟩ := reported_eq l
    rw [h, foldl_add]
    rfl
  · refine or_iff_not_imp_left.2 fun hne => ?_
    have hrun : ∀ b : Bag, 0 < b.limit → b.items.length ≤ b.limit →
        (deeds.foldl after b).items.length ≤ (deeds.foldl after b).limit := by
      induction deeds with
      | nil => exact fun _ _ h => h
      | cons u deeds ih => exact fun b hpos h => ih _ (after_bounded hpos h u).1 (after_bounded hpos h u).2
    exact hrun { limit } (Nat.pos_of_ne_zero hne) (Nat.zero_le _)

end Bag

end Arbor.Diag
