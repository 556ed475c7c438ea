import Arbor.Run.Program
import Arbor.Proofs.Lowering

/-! Which definition a name stands for in a linked program. -/

namespace Arbor.Run

open IR

lemma getElem?_foldl_insertIfNew (l : List (Text × Handle)) (defs : Std.HashMap Text Handle) (name) :
    (l.foldl (fun defs (name, h) => defs.insertIfNew name h) defs)[name]? = defs[name]?.or (l.lookup name) := by
  induction l generalizing defs with
  | nil => simp
  | cons x l ih =>
    obtain ⟨n, h⟩ := x
    rw [List.foldl_cons, ih, Std.HashMap.getElem?_insertIfNew, List.lookup_cons]
    by_cases hn : name = n
    · subst hn
      by_cases hmem : name ∈ defs <;> simp [hmem]
    · have hne : (name == n) = false := beq_false_of_ne hn
      have hne' : (n == name) = false := beq_false_of_ne (Ne.symm hn)
      simp [hne, hne']

def linkOrder (s : Store) (entry : Handle) (m : ModuleInfo) : List (Text × Handle) :=
  definitions s m ++ ((liveModules s).filter fun (h, _) => h ≠ entry).flatMap fun (_, other) => definitions s other

lemma getElem?_link (s) (entry) (m) (name) :
    (link s entry m)[name]? = (linkOrder s entry m).lookup name := by
  rw [link, getElem?_foldl_insertIfNew]
  simp [linkOrder]

end Arbor.Run
