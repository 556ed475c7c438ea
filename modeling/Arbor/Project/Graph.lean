import Arbor.Diag.Bag
import Arbor.Text.Quoted

/-! Modules and their imports as a graph: which names occur, who imports whom, in which waves the
modules can be built, and which of them wait for a cycle. -/

namespace Arbor.Project

open Diag

/-- A module offered to the graph. -/
structure Node where
  name : Text
  imports : List Text := []
  broken : Bool := false
  /-- The message of the first error found in it. -/
  firstError : Option Text := none

abbrev ModuleId := Nat

/-- Nodes with the names that occur in them. Of several nodes of one name the first counts. -/
structure Graph where
  nodes : List Node
  /-- Every name of a node or an import, in order. -/
  names : List Text
  /-- The node of each name as a position in `nodes`; imported names may have none. -/
  places : Array (Option Nat)
  /-- The modules that each module imports, itself left out, in order. -/
  imports : Array (List ModuleId)

namespace Graph

def namesOf (nodes : List Node) : List Text :=
  Text.sort ((nodes.flatMap fun n => n.name :: n.imports).filter (· ≠ [])).eraseDups

def importsOf (names : List Text) (n : Node) : List ModuleId :=
  let others := (n.imports.filter fun dep => dep ≠ [] && dep ≠ n.name).map names.idxOf
  others.eraseDups.mergeSort

def ofNodes (nodes : List Node) : Graph :=
  let names := namesOf nodes
  let places := names.map fun name => nodes.findIdx? fun n => n.name = name
  { nodes, names
    places := places.toArray
    imports := (places.map fun p =>
      ((p.bind (nodes[·]?)).map (importsOf names)).getD []).toArray }

def ids (g : Graph) : List ModuleId := List.range g.names.length

def nameOf (g : Graph) (id : ModuleId) : Text := g.names.getD id []

def place? (g : Graph) (id : ModuleId) : Option Nat := g.places.getD id none

def node? (g : Graph) (id : ModuleId) : Option Node := (g.place? id).bind (g.nodes[·]?)

def isPresent (g : Graph) (id : ModuleId) : Bool := (g.place? id).isSome

def deps (g : Graph) (id : ModuleId) : List ModuleId := g.imports.getD id []

def presentDeps (g : Graph) (id : ModuleId) : List ModuleId := (g.deps id).filter g.isPresent

def users (g : Graph) (id : ModuleId) : List ModuleId :=
  g.ids.filter fun user => id ∈ g.presentDeps user

/-! ### Order -/

abbrev Counts := Array Int

def counts (g : Graph) : Counts :=
  (g.ids.map fun id => ((g.presentDeps id).length : Int)).toArray

def collect (g : Graph) (keep : ModuleId → Bool) : List ModuleId :=
  g.ids.filter fun id => g.isPresent id && keep id

def takeOff (s : Counts × List ModuleId) (user : ModuleId) : Counts × List ModuleId :=
  let left := s.1.getD user 0 - 1
  (s.1.setIfInBounds user left, if left = 0 then s.2 ++ [user] else s.2)

def passOn (g : Graph) (counts : Counts) (wave : List ModuleId) : Counts × List ModuleId :=
  let (counts, next) := (wave.flatMap g.users).foldl takeOff (counts, [])
  (counts, next.mergeSort)

def wavesFrom (g : Graph) : Nat → Counts → List ModuleId → List (List ModuleId) × Counts
  | 0, counts, _ => ([], counts)
  | fuel + 1, counts, wave =>
    if wave.isEmpty then ([], counts)
    else
      let (counts, next) := g.passOn counts wave
      let (waves, left) := wavesFrom g fuel counts next
      (wave :: waves, left)

/-- Follows imports within `stuck` until a module comes up again. `trail` are the modules passed;
the result starts and ends with the module that repeats. -/
def walk (g : Graph) (stuck : List ModuleId) :
    Nat → List ModuleId → ModuleId → List ModuleId
  | 0, trail, _ => trail
  | fuel + 1, trail, here =>
    if here ∈ trail then trail.dropWhile (· ≠ here) ++ [here]
    else match (g.deps here).find? (· ∈ stuck) with
      | some next => walk g stuck fuel (trail ++ [here]) next
      | none => trail ++ [here]

def cycleIn (g : Graph) (stuck : List ModuleId) : List ModuleId :=
  match stuck with
  | [] => []
  | first :: _ => g.walk stuck (stuck.length + 1) [] first

end Graph

/-- A graph put in order. -/
structure Schedule where
  waves : List (List ModuleId) := []
  stuck : List ModuleId := []
  /-- One cycle, its first module again at the end. -/
  cycle : List ModuleId := []

namespace Schedule

def order (s : Schedule) : List ModuleId := s.waves.flatten

end Schedule

def Graph.schedule (g : Graph) : Schedule :=
  let counts := g.counts
  let first := g.collect fun id => counts.getD id 0 = 0
  let (waves, left) := g.wavesFrom g.names.length counts first
  let stuck := g.collect fun id => 0 < left.getD id 0
  { waves, stuck, cycle := g.cycleIn stuck }

/-! ### Findings -/

/-- Something to report about the node at a position. -/
structure Finding where
  place : Nat
  diagnostic : Diagnostic

/-- What is known about a module while the graph is worked through. -/
structure Slot where
  broken : Bool := false
  firstError : Option Text := none
deriving DecidableEq

abbrev Slots := Array Slot

def slotOf (slots : Slots) (id : ModuleId) : Slot := slots.getD id {}

namespace Graph

def duplicate (name : Text) : Diagnostic :=
  .error .duplicateName name ("duplicate module " ++ name.quoted)

def selfImport (name : Text) : Diagnostic :=
  .error .importCycle name ("module " ++ name.quoted ++ " imports itself")

def missingImport (name dep : Text) : Diagnostic :=
  .error .unresolvedImport name
    ("module " ++ name.quoted ++ " imports missing module " ++ dep.quoted)

def duplicates (seen : List Text) (place : Nat) : List Node → List Finding
  | [] => []
  | n :: rest =>
    if n.name ∈ seen then ⟨place, duplicate n.name⟩ :: duplicates seen (place + 1) rest
    else duplicates (if n.name = [] then seen else n.name :: seen) (place + 1) rest

def importFaults (g : Graph) (name : Text) (seen : List Text) : List Text → List Diagnostic
  | [] => []
  | dep :: rest =>
    if dep = [] then importFaults g name seen rest
    else if dep = name then selfImport name :: importFaults g name seen rest
    else if dep ∈ seen || g.nodes.any (·.name = dep) then importFaults g name seen rest
    else missingImport name dep :: importFaults g name (dep :: seen) rest

def faultsOf (g : Graph) (id : ModuleId) : List Diagnostic :=
  match g.node? id with
  | some n => g.importFaults n.name [] n.imports
  | none => []

def findings (g : Graph) : List Finding :=
  duplicates [] 0 g.nodes ++ g.ids.flatMap fun id =>
    match g.place? id with
    | some place => (g.faultsOf id).map (Finding.mk place)
    | none => []

def slots (g : Graph) : Slots :=
  (g.ids.map fun id =>
    match g.node? id with
    | some n => (⟨n.broken || !(g.faultsOf id).isEmpty, n.firstError⟩ : Slot)
    | none => {}).toArray

def cycleFault (g : Graph) (s : Schedule) (id : ModuleId) : Diagnostic :=
  let name := g.nameOf id
  let relation : Text :=
    if id ∈ s.cycle then " participates in an import cycle: " else " depends on an import cycle: "
  .error .importCycle name
    ("module " ++ name.quoted ++ relation ++ Text.join " -> " (s.cycle.map g.nameOf))

def reportCycles (g : Graph) (s : Schedule) (slots : Slots) : Slots × List Finding :=
  (s.stuck.foldl (fun slots id => slots.modify id ({ · with broken := true })) slots,
   s.stuck.filterMap fun id => (g.place? id).map fun place => ⟨place, g.cycleFault s id⟩)

def brokenDep? (g : Graph) (slots : Slots) (id : ModuleId) : Option ModuleId :=
  (g.presentDeps id).find? fun dep => (slotOf slots dep).broken

/-- Why a module cannot be built when what it imports is broken; the first error there is passed
on from user to user. -/
def dependencyFault (g : Graph) (slots : Slots) (id dep : ModuleId) : Diagnostic :=
  let d := Diagnostic.error .dependencyFailed (g.nameOf id)
    ("dependency module " ++ (g.nameOf dep).quoted ++ " has errors")
  match (slotOf slots dep).firstError with
  | some message => { d with notes := ["first error in dependency: " ++ message] }
  | none => d

def breakFor (g : Graph) (slots : Slots) (id dep : ModuleId) : Slots :=
  let cause := (slotOf slots dep).firstError.getD (g.dependencyFault slots id dep).message
  slots.modify id fun s => { broken := true, firstError := some (s.firstError.getD cause) }

def propagate (g : Graph) (slots : Slots) (id : ModuleId) : Slots × Option Diagnostic :=
  if (slotOf slots id).broken then (slots, none)
  else match g.brokenDep? slots id with
    | some dep => (g.breakFor slots id dep, some (g.dependencyFault slots id dep))
    | none => (slots, none)

def reportBrokenDeps (g : Graph) : List ModuleId → Slots → Slots × List Finding
  | [], slots => (slots, [])
  | id :: rest, slots =>
    let (slots, found) := g.propagate slots id
    let (slots, more) := reportBrokenDeps g rest slots
    match found, g.place? id with
    | some d, some place => (slots, ⟨place, d⟩ :: more)
    | _, _ => (slots, more)

end Graph

end Arbor.Project
