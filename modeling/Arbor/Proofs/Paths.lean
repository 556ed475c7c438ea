import Arbor.Build.Context
import Arbor.Proofs.Along

/-! Paths by their parts, and where the file of a module is put. -/

namespace Arbor

namespace Text

lemma splitByte_ne_nil (sep t) : splitByte sep t ≠ [] := by
  cases t with
  | nil => exact List.cons_ne_nil _ _
  | cons b t =>
    unfold splitByte
    split <;> split <;> exact List.cons_ne_nil _ _

lemma splitByte_append (sep a t) : splitByte sep (a ++ sep :: t) = splitByte sep a ++ splitByte sep t := by
  induction a with
  | nil =>
    obtain ⟨piece, rest, h⟩ := List.exists_cons_of_ne_nil (splitByte_ne_nil sep t)
    simp [splitByte, h]
  | cons b a ih =>
    obtain ⟨piece, rest, h⟩ := List.exists_cons_of_ne_nil (splitByte_ne_nil sep a)
    rw [List.cons_append, splitByte, ih, splitByte, h]
    dsimp only [List.cons_append]
    split <;> rfl

lemma splitByte_of_notMem {sep : UInt8} {t : Text} (h : sep ∉ t) : splitByte sep t = [t] := by
  induction t with
  | nil => rfl
  | cons b t ih =>
    rw [List.mem_cons, not_or] at h
    simp [splitByte, ih h.2, Ne.symm h.1]

lemma join_cons (t l) : join "/" (t :: l) = t ++ if l = [] then [] else Path.slash :: join "/" l := by
  cases l with
  | nil => simp [join]
  | cons u l =>
    rw [join, show ofString "/" = [Path.slash] by decide +kernel, if_neg (List.cons_ne_nil _ _)]
    · simp
    · exact fun h => List.cons_ne_nil _ _ h

lemma join_concat (l t) : join "/" (l ++ [t]) = l.flatMap (· ++ [Path.slash]) ++ t := by
  induction l with
  | nil => rfl
  | cons u l ih => simp [join_cons, ih]

end Text

namespace Path

/-- A part of a path that names something: neither empty nor the place itself. -/
def Plain (part : Text) : Prop := part ≠ [] ∧ part ≠ Text.ofString "." ∧ slash ∉ part

/-- What is left of the parts of a path when each `..` has taken away the part before it. -/
def names (p : Text) : List Text := fold (isAbsolute p) [] (parts p)

lemma fold_append {absolute : Bool} {done l : List Text} {x : Text} (hx : x ≠ Text.ofString "..") :
    fold absolute done (l ++ [x]) = fold absolute done l ++ [x] := by
  fun_induction fold absolute done l with
  | case1 done => simp [fold, hx]
  | _ => simp_all [fold]

/-- What stands before the name of a file in a directory: its own names, each with the slash behind it. -/
def stem (dir : Text) : Text := (if isAbsolute dir then [slash] else []) ++ (names dir).flatMap (· ++ [slash])

lemma join_leaf {dir x : Text} (hdir : dir ≠ []) (hx : Plain x) (hup : x ≠ Text.ofString "..") :
    join [dir, x] = stem dir ++ x := by
  obtain ⟨hne, hdot, hslash⟩ := hx
  have habs : isAbsolute (dir ++ slash :: x) = isAbsolute dir := by cases dir <;> simp_all [isAbsolute]
  have hparts : parts (dir ++ slash :: x) = parts dir ++ [x] := by
    simp [parts, Text.splitByte_append, Text.splitByte_of_notMem hslash, hne, hdot]
  have hjoin : join [dir, x] = clean (dir ++ slash :: x) := by
    simp [join, hdir, hne, Text.join_cons]
  rw [hjoin, clean, habs, hparts, fold_append hup, Text.join_concat, stem, names]
  split <;> simp [hne]

open Build IR Proofs

variable {σ : Type}

def emitDir (w : World σ) : Text := if w.outDir.isEmpty then Text.ofString "." else w.outDir

def emitName (w : World σ) (m : Handle) : Text := (w.store.module? m).elim [] ModuleInfo.name

lemma emitFile_path {w w' : World σ} {m : Handle} {p : Text} (h : Act.emitFile m w = .ok (.ok p) w') :
    p = Path.join [emitDir w, emitName w m ++ ".ll"] := by
  have hany : ∀ {α : Type} (v : World σ) (a : Act σ α), Obeys v a (fun _ _ => True) fun _ _ => True := fun v a => by
    unfold Obeys
    split <;> trivial
  have hall : Obeys w (Act.emitFile m) (fun r _ => ∀ p, r = .ok p → p = Path.join [emitDir w, emitName w m ++ ".ll"])
      fun _ _ => True := by
    unfold Act.emitFile
    refine .bind (P := fun _ v => v = w) rfl ?_
    rintro s v rfl
    split
    · exact fun p h => by cases h
    · refine .bind (P := fun x u => x = v ∧ u = v) ⟨rfl, rfl⟩ ?_
      rintro _ _ ⟨rfl, rfl⟩
      dsimp only
      split
      · exact fun p h => by cases h
      · refine .bind (hany _ _) fun _ v _ => .bind (hany _ _) fun _ v _ => .bind (hany _ _) fun u v _ => ?_
        split
        · exact fun p h => by cases h
        · exact .bind (hany _ _) fun _ v _ p h => (Except.ok.inj h).symm
  unfold Obeys at hall
  rw [h] at hall
  exact hall p rfl

/-- Modules whose names have no slash in them are written to different files, each of them in the output directory
itself. -/
theorem emitted_apart {w v w' v' : World σ} {m n : Handle} {p q : Text} (hp : Act.emitFile m w = .ok (.ok p) w')
    (hq : Act.emitFile n v = .ok (.ok q) v') (hdir : emitDir v = emitDir w) (hm : slash ∉ emitName w m)
    (hn : slash ∉ emitName v n) : p = stem (emitDir w) ++ (emitName w m ++ ".ll") ∧
      q = stem (emitDir w) ++ (emitName v n ++ ".ll") ∧ (p = q ↔ emitName w m = emitName v n) := by
  have hpath : ∀ {u u' : World σ} {k : Handle} {r : Text}, Act.emitFile k u = .ok (.ok r) u' → slash ∉ emitName u k →
      r = stem (emitDir u) ++ (emitName u k ++ ".ll") := by
    intro u u' k r hr hslash
    have hne : emitDir u ≠ [] := by
      unfold emitDir
      split
      · decide +kernel
      · next h => simpa using h
    rw [emitFile_path hr]
    have hll : Text.ofString ".ll" = [46, 108, 108] := by decide +kernel
    refine join_leaf hne ⟨by simp [hll], ?_, ?_⟩ ?_
    · rw [hll, show Text.ofString "." = [46] by decide +kernel]
      exact fun h => by simpa using congrArg List.length h
    · simp [hll, slash] at hslash ⊢
      exact hslash
    · rw [hll, show Text.ofString ".." = [46, 46] by decide +kernel]
      exact fun h => by simpa using congrArg List.length h
  have hp' := hpath hp hm
  have hq' := hpath hq hn
  rw [hdir] at hq'
  refine ⟨hp', hq', ?_⟩
  rw [hp', hq']
  simp

theorem emitted_apart_letters : let world (name : Text) : World Unit :=
      { user := (), store := { entries := #[.reserved, .module { name }], types := {}, values := {} } }
    ∃ p q w v, Act.emitFile 1 (world [97]) = .ok (.ok p) w ∧ Act.emitFile 1 (world [98]) = .ok (.ok q) v ∧ p ≠ q := by
  intro world
  have hok : ∀ name, ((Act.emitFile 1).run' (world name)).elim false Except.isOk = true →
      ∃ p w, Act.emitFile 1 (world name) = .ok (.ok p) w := fun name h => by
    rw [EStateM.run', EStateM.run] at h
    cases hr : Act.emitFile 1 (world name) with
    | error => simp [hr] at h
    | ok r w =>
      cases r with
      | ok p => exact ⟨p, w, rfl⟩
      | error => simp [hr, Except.isOk, Except.toBool] at h
  obtain ⟨p, w, hp⟩ := hok [97] (by decide +kernel)
  obtain ⟨q, v, hq⟩ := hok [98] (by decide +kernel)
  refine ⟨p, q, w, v, hp, hq, fun heq => ?_⟩
  cases (emitted_apart hp hq rfl (by decide) (by decide)).2.2.1 heq

end Path

end Arbor
