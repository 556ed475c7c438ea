import Arbor.Build.World
import Arbor.Tree.Codec

/-! Reading the files of a run, and what the run tells about its modules on the way. -/

namespace Arbor.Project

open Diag Build

inductive Phase where
  | decode | build | verify
deriving DecidableEq

namespace Phase

def name : Phase → Text
  | .decode => "decode"
  | .build => "build"
  | .verify => "verify"

end Phase

inductive PhaseStatus where
  | start | done | failed
  | skipped
deriving DecidableEq

namespace PhaseStatus

def number : PhaseStatus → Nat
  | .start => 0
  | .done => 1
  | .failed => 2
  | .skipped => 3

end PhaseStatus

/-- A phase of a module begins or ends. The name is not known before the file is read. -/
structure ModuleEvent where
  module : Text := []
  file : Text
  phase : Phase
  status : PhaseStatus
  fault : Option Fault := none

/-- What became of one file. -/
structure Decoded where
  path : Text
  module : Option Tree.Module := none
  bag : Bag := {}

def stem (path : Text) : Text := Text.trimTail Tree.fileExt (Path.base path)

namespace Decoded

def name (d : Decoded) : Text := (d.module.map Tree.Module.name).getD (stem d.path)

end Decoded

/-- How a run is watched and stopped. -/
structure Watch (σ : Type) where
  notify : ModuleEvent → Act σ Unit
  cancelled : Act σ Bool

variable {σ : Type}

def Watch.checkpoint (w : Watch σ) : Act σ Unit := do
  if ← w.cancelled then Act.raise .cancelled

def decodeFile (w : Watch σ) (limit : Nat) (path : Text) : Act σ Decoded := do
  w.checkpoint
  w.notify { file := path, phase := .decode, status := .start }
  match Tree.openModule (← get).files path with
  | .ok m =>
    w.notify { module := m.name, file := path, phase := .decode, status := .done }
    pure { path, module := some m, bag := { limit } }
  | .error f =>
    let module := stem path
    w.notify { module, file := path, phase := .decode, status := .failed, fault := some f }
    pure { path, bag := Bag.addFault { limit } module f }

def decodeFiles (w : Watch σ) (limit : Nat) (files : List Text) : Act σ (List Decoded) :=
  files.mapM (decodeFile w limit)

end Arbor.Project
