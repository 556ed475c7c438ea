import Arbor.Proofs.Bindings

/-! The parents of scopes. A scope goes under any id that is given, also under one that is not there. -/

namespace Arbor.Build.Scopes

def Falls (s : Scopes) : Prop := ∀ id, 0 < id → s.parent id < id

lemma Records.parent_falls (h : Records sp H s) : s.Falls := by
  intro k hk
  unfold parent
  obtain ⟨hg, -⟩ | ⟨sc, b, hsc, hb, hparent, -⟩ := h.scope k
  · rw [hg]
    exact hk
  · rw [hsc]
    exact hparent.trans_lt (h.falls k b hb)

lemma falls_edits (ho : initial.Orderly es) : (es.foldl edit initial).Falls := by
  have h : Orderly {} [.child 0 none, .child 1 none, .child 1 none] := by simp [Orderly, edit, addChild, get?]
  have hrec : Records .types _ initial := (records_empty.edits records_empty h).1
  exact (hrec.edits hrec ho).1.parent_falls

lemma parent_addChild (s : Scopes) (p func) (hs : 0 < s.data.size) : (s.addChild p func).2.parent s.data.size = p := by
  have htold := told_addChild hs p func .types s.data.size
  obtain ⟨sc, hsc, heq⟩ := Option.map_eq_some_iff.1 (htold.trans (if_pos rfl))
  rw [parent, hsc]
  exact congrArg Prod.fst heq

/-- From every scope the parents lead out, as long as new ones go under scopes that are there. One that goes under the
id it is about to get is its own parent. -/
theorem parents_end (es : List Edit) (h : initial.Orderly es) (id : ScopeId) :
    (∃ n ≤ id, (es.foldl edit initial).parent^[n] id = 0) ∧
      ∀ (s : Scopes) (func), 0 < s.data.size → (s.addChild s.data.size func).2.parent s.data.size = s.data.size := by
  refine ⟨?_, fun s func => parent_addChild s _ func⟩
  have hfalls := falls_edits h
  induction id using Nat.strong_induction_on with
  | _ id ih =>
    rcases Nat.eq_zero_or_pos id with rfl | hid
    · exact ⟨0, le_rfl, rfl⟩
    · obtain ⟨n, hn, hend⟩ := ih _ (hfalls id hid)
      exact ⟨n + 1, hn.trans_lt (hfalls id hid), hend⟩

theorem parents_end_nested : initial.Orderly [.child 3 none, .child 4 none] ∧
    ∃ n ≤ 5, ([.child 3 none, .child 4 none].foldl edit initial).parent^[n] 5 = 0 := by
  have h : initial.Orderly [.child 3 none, .child 4 none] := by
    simp [Orderly, edit, initial, addChild, get?]
  exact ⟨h, (parents_end _ h 5).1⟩

end Arbor.Build.Scopes
