import Arbor.Build.World

/-! Scopes and the names bound in them. Names are compared in composed form. A name is bound once
in each scope, as a type and as a value independently. -/

namespace Arbor.Build

open IR Diag

namespace Scopes

def get? (s : Scopes) (id : ScopeId) : Option Scope := if id = 0 then none else s.data[id]?

def size (s : Scopes) : Nat := s.data.size - 1

def parent (s : Scopes) (id : ScopeId) : ScopeId := (s.get? id).elim 0 Scope.parent

def children (s : Scopes) (id : ScopeId) : List ScopeId :=
  (s.get? id).elim [] fun sc => sc.children.toList

def func (s : Scopes) (id : ScopeId) : Option ValueId := (s.get? id).bind Scope.func

def types (s : Scopes) (id : ScopeId) : List Symbol := (s.get? id).elim [] fun sc => sc.types.order.toList

def values (s : Scopes) (id : ScopeId) : List Symbol :=
  (s.get? id).elim [] fun sc => sc.values.order.toList

def addChild (s : Scopes) (parent : ScopeId) (func : Option ValueId) : ScopeId × Scopes :=
  let id := s.data.size
  match s.get? parent with
  | none => (id, { data := s.data.push { parent, func } })
  | some p =>
    let data := s.data.setIfInBounds parent { p with children := p.children.push id }
    (id, { data := data.push { parent, func := func <|> p.func } })

/-- Walks from a scope outwards until `probe` finds something; only the scope itself is looked at
unless `outward` is set. Where the parents lead round in a circle the walk does not end. -/
def search (s : Scopes) (id : ScopeId) (outward : Bool) (probe : Scope → Option Symbol) :
    Option Symbol :=
  match s.get? id with
  | none => none
  | some sc =>
    match probe sc with
    | some sym => some sym
    | none =>
      if outward then by
        apply search
        · exact s
        · exact sc.parent
        · exact outward
        · exact probe
      else none
partial_fixpoint

def lookupType (s : Scopes) (id : ScopeId) (name : Text) (outward : Bool) : Option Symbol :=
  let name := name.composed
  s.search id outward fun sc => sc.types.get? name

def lookupValue (s : Scopes) (id : ScopeId) (name : Text) (outward : Bool) : Option Symbol :=
  let name := name.composed
  s.search id outward fun sc => sc.values.get? name

def findType (s : Scopes) (id : ScopeId) (p : Symbol → Bool) (outward : Bool) : Option Symbol :=
  s.search id outward fun sc => sc.types.find? p

def findValue (s : Scopes) (id : ScopeId) (p : Symbol → Bool) (outward : Bool) : Option Symbol :=
  s.search id outward fun sc => sc.values.find? p

def invalidScope (id : ScopeId) : Fault := .error .semantic ("invalid scope " ++ Text.ofNat id)

def addType (s : Scopes) (id : ScopeId) (name : Text) (t : Option TypeId) : Except Fault Scopes :=
  let name := name.composed
  match s.get? id with
  | none => .error (invalidScope id)
  | some sc =>
    match sc.types.add { name, type := t } with
    | (true, types) => .ok { data := s.data.setIfInBounds id { sc with types } }
    | (false, _) =>
      .error (.error .redefinition
        ("type " ++ name.quoted ++ " is already defined in this scope"))

def addValue (s : Scopes) (id : ScopeId) (name : Text) (t : Option TypeId) (v : Option ValueId) :
    Except Fault Scopes :=
  let name := name.composed
  match s.get? id with
  | none => .error (invalidScope id)
  | some sc =>
    match sc.values.add { name, type := t, value := v } with
    | (true, values) => .ok { data := s.data.setIfInBounds id { sc with values } }
    | (false, _) => .error (.error .redefinition (name.quoted ++ " is already defined in this scope"))

def initial : Scopes :=
  let (root, s) := ({} : Scopes).addChild 0 none
  let (_, s) := s.addChild root none
  (s.addChild root none).2

end Scopes

end Arbor.Build
