import Arbor.Run.Machine

/-! Linking the modules of a store into a program and running its entry function. -/

namespace Arbor.Run

open IR

/-- Why a program could not be run to its end. -/
inductive Failure where
  | refused (r : Refusal)
  | defective (defects : List Store.Defect)
  | noMain (module : Text)
  | mainParameters
  | trapped (calls : List Text) (trap : Trap)
  | unfinished

namespace Failure

def message : Failure → Text
  | .refused r => r.message
  | .defective ds => Text.lines (ds.map Store.Defect.message)
  | .noMain m => "jit: module " ++ m.quoted ++ " has no main function"
  | .mainParameters => "jit: main must take no parameters"
  | .trapped calls t => calls.flatMap (fun (name : Text) => name ++ Text.ofString ": ") ++ t.message
  | .unfinished => "jit: unfinished"

end Failure

def definitions (s : Store) (m : ModuleInfo) : List (Text × Handle) :=
  m.funcs.toList.filterMap fun h => do
    let f ← s.func? h
    if f.blocks.size = 0 then none else some (f.ident.spoken, h)

def liveModules (s : Store) : List (Handle × ModuleInfo) :=
  s.entries.toList.zipIdx.filterMap fun (e, h) =>
    match e with
    | .module m => if m.dropped then none else some (h, m)
    | _ => none

/-- All definitions of the modules in use. The entry module comes first, and of two definitions of
one name the first counts. -/
def link (s : Store) (entry : Handle) (m : ModuleInfo) : Std.HashMap Text Handle :=
  let others := (liveModules s).filter fun (h, _) => h ≠ entry
  (definitions s m ++ others.flatMap fun (_, other) => definitions s other).foldl
    (fun defs (name, h) => defs.insertIfNew name h) {}

def program (s : Store) (entry : Handle) (maxSteps : Nat) : Except Failure Int64 × Text :=
  match s.module? entry with
  | none => (.error (.refused (.notModule entry)), [])
  | some m =>
    let defects := s.defects entry m
    if m.dropped then (.error (.refused (.dropped m.name)), [])
    else if !defects.isEmpty then (.error (.defective defects), [])
    else
      let defs := link s entry m
      match defs[Text.ofString "main"]?.bind fun h => (s.func? h).map fun f => (h, f) with
      | none => (.error (.noMain m.name), [])
      | some (h, f) =>
        if f.module ≠ entry then (.error (.noMain m.name), [])
        else if f.params.size ≠ 0 then (.error .mainParameters, [])
        else
          let img : Image := { store := s, defs, maxSteps }
          match img.run (Image.frameFor h f [] [] 0) [] {} with
          | none => (.error .unfinished, [])
          | some (ending, machine) =>
            let result := match ending with
              | .finished (.int n) => .ok n
              | .finished _ => .ok 0
              | .trapped calls t => .error (.trapped calls t)
            (result, machine.printed)

end Arbor.Run
