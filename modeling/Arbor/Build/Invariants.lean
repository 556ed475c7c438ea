import Arbor.Build.Prelude

/-! Checks on a context: that its modules are well terminated and were loaded after what they
depend on. -/

namespace Arbor.Build

open IR Diag

variable {σ : Type}

namespace Act

def checkTerminators (names : List Text) : Act σ Unit := do
  let loaded := (← get).registry.map Prod.fst
  let names := if names.isEmpty then loaded else names
  let faults ← names.filterMapM fun name => do
    match ← loaded? name with
    | none => pure (some (Fault.plain ("module " ++ name.quoted ++ " is not loaded")))
    | some m =>
      match ← attempt (verify m) with
      | .ok () => pure none
      | .error f => pure (some f)
  if !faults.isEmpty then raise (.many faults)

def misplaced? (order : List Text) (index : Nat) (name : Text) : List Text → Option Text
  | [] => none
  | dep :: rest =>
    match order.idxOf? dep with
    | none => some ("module " ++ name.quoted ++ " depends on unloaded " ++ dep.quoted)
    | some place =>
      if index ≤ place then
        some ("module " ++ name.quoted ++ " (#" ++ Text.ofNat index
          ++ ") loaded before its dependency " ++ dep.quoted ++ " (#" ++ Text.ofNat place ++ ")")
      else misplaced? order index name rest

def checkLoadOrder : Act σ Unit := do
  let registry := (← get).registry
  let order := registry.map Prod.fst
  registry.zipIdx.forM fun ((name, m), index) => do
    let info ← module m
    match misplaced? order index name info.deps with
    | some problem => raise (.plain problem)
    | none => pure ()

end Act

end Arbor.Build
