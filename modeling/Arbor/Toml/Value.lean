import Arbor.Text.Utf8

/-! TOML values, and tables in the making: which keys a document has defined so far, which tables
exist only because a longer key named them, and where new keys go. -/

namespace Arbor.Toml

inductive Value where
  | text (t : Text)
  | int (n : Int)
  | float (t : Text)
  | bool (b : Bool)
  | moment (t : Text)
  | list (items : List Value)
  | table (entries : List (Text × Value))
  | tables (all : List (List (Text × Value)))

abbrev Table := List (Text × Value)

def Table.put (key : Text) (v : Value) : Table → Table
  | [] => [(key, v)]
  | (k, w) :: rest => if k = key then (key, v) :: rest else (k, w) :: put key v rest

def Table.change (f : Table → Option Table) : List Text → Table → Option Table
  | [], t => f t
  | key :: path, t =>
    match t.lookup key with
    | some (.table u) => do some (Table.put key (.table (← change f path u)) t)
    | some (.tables us) => do
      let u ← us.getLast?
      some (Table.put key (.tables (us.dropLast ++ [← change f path u])) t)
    | _ => none

def Table.at? : List Text → Table → Option Table
  | [], t => some t
  | key :: path, t =>
    match t.lookup key with
    | some (.table u) => at? path u
    | some (.tables us) => us.getLast?.bind (at? path)
    | _ => none

/-- A document being read. -/
structure Draft where
  rest : Text
  root : Table := []
  context : List Text := []
  key : Text := []
  implied : List (List Text) := []
  lists : List (List Text) := []

namespace Draft

def imply (path : List Text) (d : Draft) : Draft := { d with implied := path :: d.implied }

def settle (path : List Text) (d : Draft) : Draft :=
  { d with implied := d.implied.filter (· ≠ path) }

def mark (key : Text) (isList : Bool) (d : Draft) : Draft :=
  let path := if key.isEmpty then d.context else d.context ++ [key]
  let path := if path.isEmpty then [[]] else path
  let others := d.lists.filter (· ≠ path)
  { d with lists := if isList then path :: others else others }

/-- Defines a key of the current table. A key that has a value may be defined again only if it
holds a list, or is a table that was implied; such a table stays what it is. -/
def define (key : Text) (v : Value) (d : Draft) : Option Draft := do
  let path := d.context ++ [key]
  let t ← Table.at? d.context d.root
  let put : Option Draft := do
    some { d with root := ← Table.change (fun t => some (Table.put key v t)) d.context d.root }
  if (t.lookup key).isNone then put
  else if path ∈ d.lists then (← put).settle path
  else if path ∈ d.implied then d.settle path
  else none

def establish (done : List Text) : List Text → Draft → Option Draft
  | [], d => some d
  | key :: path, d => do
    let t ← Table.at? done d.root
    match t.lookup key with
    | none =>
      let root ← Table.change (fun t => some (Table.put key (.table []) t)) done d.root
      establish (done ++ [key]) path ({ d with root }.imply (done ++ [key]))
    | some (.table _) | some (.tables _) => establish (done ++ [key]) path d
    | some _ => none

def extend (key : Text) (t : Table) : Option Table :=
  match t.lookup key with
  | none => some (Table.put key (.tables [[]]) t)
  | some (.tables us) => some (Table.put key (.tables (us ++ [[]])) t)
  | some _ => none

def enter (path : List Text) (inList : Bool) (d : Draft) : Option Draft := do
  let key ← path.getLast?
  let d ← d.establish [] path.dropLast
  let d := { d with context := path.dropLast }
  let d ← if inList then do
      some { d with root := ← Table.change (extend key) d.context d.root }
    else d.define key (.table [])
  some { d with context := path }

def descend : List Text → Draft → Option Draft
  | [], d => some d
  | key :: path, d => do
    let place := d.context ++ [key]
    descend path (← (d.imply place).enter place false)

end Draft

end Arbor.Toml
