import Arbor.Build.Context
import Arbor.Project.Plan
import Arbor.Project.Sources

/-! Building all modules of a project, each after what it imports. A module that fails is reported,
and those that need it are passed over; the others are still built. -/

namespace Arbor.Project

open Diag IR Build

variable {σ : Type}

/-- What a run does with each module. -/
structure Tools (σ : Type) extends Watch σ where
  load : Tree.Module → Act σ Handle
  verify : Handle → Act σ Unit

def Watch.tools (w : Watch σ) : Tools σ :=
  { w with
    load := fun m => Act.loadModule m.name (Lower.build w.cancelled m)
    verify := Act.verify }

def Tools.tell (t : Tools σ) (j : Job) (phase : Phase) (status : PhaseStatus) : Act σ Unit :=
  t.notify { module := j.name, file := j.path, phase, status }

def Tools.tellFailed (t : Tools σ) (j : Job) (phase : Phase) (f : Fault) : Act σ Unit :=
  t.notify { module := j.name, file := j.path, phase, status := .failed, fault := some f }

def Tools.make (t : Tools σ) (j : Job) : Act σ Handle := do
  let m ← t.load (← Act.need j.tree)
  t.tell j .verify .start
  match ← Act.attempt (t.verify m) with
  | .ok () => pure m
  | .error f =>
    t.tellFailed j .verify f
    Act.raise f

namespace Plan

def fail (p : Plan) (id : ModuleId) (place : Nat) (j : Job) (f : Fault) : Plan :=
  let d := Diagnostic.ofFault j.name f
  let p := { p with
    slots := p.slots.modify id fun _ => { broken := true, firstError := some d.message } }
  p.update place fun j => { j with bag := j.bag.add d, broken := true }

def construct (t : Tools σ) (p : Plan) (id : ModuleId) (place : Nat) (j : Job) : Act σ Plan := do
  t.tell j .build .start
  match ← Act.attempt (t.make j) with
  | .ok m =>
    t.tell j .build .done
    pure (p.update place fun j => { j with built := some m })
  | .error f =>
    if f.isCancelled then Act.raise f
    t.tellFailed j .build f
    pure (p.fail id place j f)

def step (t : Tools σ) (p : Plan) (id : ModuleId) : Act σ Plan := do
  t.checkpoint
  match p.graph.place? id with
  | none => pure p
  | some place =>
    let (slots, found) := p.graph.propagate p.slots id
    let p := { p with slots }
    let p := match found with
      | some d => p.report ⟨place, d⟩
      | none => p
    let j := p.jobs.getD place default
    if (slotOf slots id).broken then
      t.tell j .build .skipped
      pure (p.update place fun j => { j with broken := true })
    else construct t p id place j

def run (t : Tools σ) (p : Plan) : Act σ Plan := p.schedule.order.foldlM (step t) p

end Plan

/-- What a run came to. -/
structure Outcome where
  files : List Text
  /-- The modules by name, in building order; those that could not be ordered last. -/
  modules : List Job
  bag : Bag

namespace Outcome

def module? (o : Outcome) (name : Text) : Option Job := o.modules.find? fun j => j.name = name

def order (o : Outcome) : List Text :=
  (o.modules.filter fun j => j.built.isSome).map Job.name

def hasErrors (o : Outcome) : Bool := o.bag.hasErrors

end Outcome

/-- The modules of a plan and all findings. Files whose module another file declared are no modules
of their own, but what was found in them counts. -/
def Plan.outcome (files : List Text) (p : Plan) : Outcome :=
  let places := p.places
  let modules := places.filterMap (p.jobs[·]?)
  let others := (List.range p.jobs.length).filter (· ∉ places)
  let bags := (modules ++ others.filterMap (p.jobs[·]?)).map Job.bag
  { files, modules, bag := (bags.foldl Bag.merge {}).dedup }

/-- How a project is built. -/
structure Options where
  /-- The directory that relative imports stay in, or nothing. -/
  root : Text := []
  /-- The findings kept of each module, if positive. -/
  limit : Nat := 0

def inPass {α : Type} (name : Text) (parent : Nat) (body : Act σ (α × List (Text × Text))) :
    Act σ α := do
  let span ← Act.beginSpan .pass [] name parent
  match ← Act.attempt body with
  | .ok (x, facts) =>
    Act.endSpan (facts.foldl (fun s (k, v) => s.withExtra k v) span) []
    pure x
  | .error f =>
    Act.endSpan span []
    Act.raise f

def buildFiles (w : Watch σ) (o : Options) (parent : Nat) (files : List Text) :
    Act σ Outcome := do
  let cwd := (← get).files.cwd
  let files := files.map (Path.absolute cwd)
  let root := if o.root.isEmpty then [] else Path.absolute cwd o.root
  let decoded ← inPass "decode" parent do
    pure (← decodeFiles w o.limit files, [])
  let plan ← inPass "order" parent do
    let loaded := (← get).registry.map Prod.fst
    let count := Text.ofNat decoded.length
    pure (Plan.ofDecoded loaded root decoded, [(Text.ofString "modules", count)])
  inPass "build" parent do
    let plan ← plan.run w.tools
    pure (plan.outcome files, [])

def findSources (parent : Nat) (paths : List Text) : Act σ (List Text) := do
  let found := discover (← get).files paths
  let span ← Act.beginSpan .pass [] "discover" parent
  let count := (found.toOption.map List.length).getD 0
  Act.endSpan (span.withExtra "files" (Text.ofNat count)) []
  match found with
  | .error f => Act.raise (.wrap .loadFile f "discover sources")
  | .ok [] => Act.raise (.error .noSources ("no " ++ Tree.fileExt ++ " files found"))
  | .ok files => pure files

def build (w : Watch σ) (o : Options) (parent : Nat) (paths : List Text) : Act σ Outcome := do
  let span ← Act.beginSpan .driver [] "driver" parent
  Act.ensuring (do
      let files ← findSources span.id paths
      buildFiles w o span.id files)
    (Act.endSpan span [])

end Arbor.Project
