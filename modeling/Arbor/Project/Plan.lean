import Arbor.Lower.Decls
import Arbor.Project.Decoded
import Arbor.Project.Graph
import Arbor.Project.Names

/-! The plan of a run: the modules of the files that were read, their imports resolved, in the order
in which they can be built. -/

namespace Arbor.Project

open Diag IR

/-- The module of one file in a run. -/
structure Job where
  name : Text
  path : Text
  tree : Option Tree.Module := none
  imports : List Text := []
  bag : Bag := {}
  broken : Bool := false
  /-- Present once the module was built and verified. -/
  built : Option Handle := none
deriving Inhabited

/-- What the imports of a module come to. -/
structure Resolved where
  imports : List Tree.Import := []
  needs : List Text := []
  faults : List ImportError := []

/-- What a run knows when imports are resolved. -/
structure Known where
  loaded : List Text := []
  /-- The modules of the files read, by path; the last counts. -/
  byPath : List (Text × Text) := []
  /-- The directory that relative imports stay in, or nothing. -/
  root : Text := []

def nameImport (k : Known) (i : Tree.Import) (target : Text) : Tree.Import :=
  match k.byPath.reverse.lookup target with
  | some name => if i.name.isEmpty then { i with name } else i
  | none => i

def Resolved.need (r : Resolved) (k : Known) (i : Tree.Import) : Resolved :=
  let name := Lower.importName i
  { r with
    imports := r.imports ++ [i]
    needs := if k.loaded.contains name then r.needs else r.needs ++ [name] }

def resolveImport (k : Known) (file : Text) (r : Resolved) (i : Tree.Import) : Resolved :=
  if i.isRelative then
    match importPath k.root file i.target Tree.fileExt with
    | .error e => { r with imports := r.imports ++ [i], faults := r.faults ++ [e] }
    | .ok target => r.need k (nameImport k i target)
  else r.need k i

def resolveImports (k : Known) (file : Text) (imports : List Tree.Import) : Resolved :=
  imports.foldl (resolveImport k file) {}

def unresolved (module : Text) (e : ImportError) : Diagnostic :=
  .error .unresolvedImport module e.message

def Decoded.job (k : Known) (d : Decoded) : Job × Node :=
  match d.module with
  | none =>
    ({ name := d.name, path := d.path, bag := d.bag },
     { name := d.name, broken := true, firstError := d.bag.items.head?.map Diagnostic.message })
  | some m =>
    let r := resolveImports k d.path (m.imports.items.filterMap id)
    let bag := (r.faults.map (unresolved m.name)).foldl Bag.add d.bag
    let tree := { m with imports := m.imports.map fun _ => r.imports.map some }
    ({ name := m.name, path := d.path, tree := some tree, imports := r.needs, bag },
     { name := m.name, imports := r.needs, broken := !r.faults.isEmpty
       firstError := if r.faults.isEmpty then none
         else bag.items.getLast?.map Diagnostic.message })

structure Plan where
  jobs : List Job
  graph : Graph
  schedule : Schedule
  slots : Slots

namespace Plan

def update (p : Plan) (place : Nat) (f : Job → Job) : Plan :=
  { p with jobs := p.jobs.modify place f }

def report (p : Plan) (f : Finding) : Plan :=
  p.update f.place fun j => { j with bag := j.bag.add f.diagnostic }

def ofDecoded (loaded : List Text) (root : Text) (decoded : List Decoded) : Plan :=
  let k : Known := {
    loaded, root
    byPath := decoded.filterMap fun d => d.module.map fun m => (d.path, m.name) }
  let pairs := decoded.map (Decoded.job k)
  let graph := Graph.ofNodes (pairs.map Prod.snd)
  let schedule := graph.schedule
  let (slots, cyclic) := graph.reportCycles schedule graph.slots
  let p : Plan := { jobs := pairs.map Prod.fst, graph, schedule, slots }
  let p := (graph.findings ++ cyclic).foldl report p
  schedule.stuck.foldl (fun p id =>
    match graph.place? id with
    | some place => p.update place fun j => { j with broken := true }
    | none => p) p

def isFirst (p : Plan) (place : Nat) : Bool :=
  match p.jobs[place]? with
  | some j => p.jobs.findIdx? (fun i => i.name = j.name) = some place
  | none => false

def places (p : Plan) : List Nat :=
  let ordered := p.schedule.order.filterMap p.graph.place?
  let firsts := (List.range p.jobs.length).filter p.isFirst
  ordered ++ firsts.filter (· ∉ ordered)

end Plan

end Arbor.Project
