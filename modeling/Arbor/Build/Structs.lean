import Arbor.Build.Symbols

/-! Structs and their members. A struct that extends another holds it as the member `base` and
repeats its other members. -/

namespace Arbor.Build

open IR Diag

variable {σ : Type}

namespace Act

def newStruct (m : Handle) (name : Text) : Act σ TypeId := do
  let h ← backend m ("struct " ++ name) (Emit.struct m name)
  backend m ("struct " ++ name) (Emit.setStructBody h [])
  let t ← need (← typeAt m h)
  updateType t fun v => { v with name }
  pure t

def members (t : TypeId) : Act σ (List Member) := do pure (← view t).members.toList

def memberIndex? (t : TypeId) (name : Text) : Act σ (Option Nat) := do pure (← view t).places[name]?

def member? (t : TypeId) (name : Text) : Act σ (Option Member) := do
  let v ← view t
  pure (v.places[name]?.bind fun i => v.members[i]?)

def memberAt? (t : TypeId) (i : Int) : Act σ (Option Member) := do
  let all ← members t
  pure (if i < 0 then none else all[i.toNat]?)

/-- Whether a value of type `t` has the struct inside it, not counting what is behind pointers.
`seen` are the structs already searched; they come back with those searched now. -/
def holds (struct : Handle) : Nat → List Handle → TypeId → Act σ (Bool × List Handle)
  | 0, seen, _ => pure (false, seen)
  | fuel + 1, seen, t => do
    let v ← view t
    if v.kind ≠ .struct then pure (false, seen)
    else if t.handle = struct then pure (true, seen)
    else if seen.contains t.handle then pure (false, seen)
    else
      v.members.toList.foldlM
        (fun (found, seen) mem =>
          if found then pure (found, seen) else holds struct fuel seen mem.type)
        (false, t.handle :: seen)

def syncBody (t : TypeId) : Act σ Unit := do
  let v ← view t
  match ← emit (Emit.setStructBody t.handle (v.members.toList.map fun m => m.type.handle)) with
  | .ok () => pure ()
  | .error r => raise (.wrap .backend (.plain r.message) ("struct " ++ v.name))

def addMember (struct : TypeId) (name : Text) (type : Option TypeId) (value : Option ValueId) :
    Act σ Member := do
  let v ← view struct
  if v.places.contains name then
    raise (.error .duplicateMember
      ("struct " ++ v.name ++ " already has a member " ++ name.quoted))
  let type ← match type, value with
    | some t, _ => pure t
    | none, some value => typeOf value
    | none, none =>
      raise (.error .memberWithoutType
        ("member " ++ name.quoted ++ " of " ++ v.name ++ " needs a type or a value"))
  let (inside, _) ← holds struct.handle ((← store).entries.size + 2) [] type
  if inside then
    raise (.error .semantic
      ("member " ++ name.quoted ++ " of " ++ v.name ++ " contains " ++ v.name ++ " by value"))
  let mem : Member := { name, type, value }
  updateType struct fun v =>
    { v with members := v.members.push mem, places := v.places.insert name v.members.size }
  match ← attempt (syncBody struct) with
  | .ok () => pure mem
  | .error f =>
    updateType struct fun v => { v with members := v.members.pop, places := v.places.erase name }
    raise f

def extendStruct (struct : TypeId) (base : Option TypeId) : Act σ Unit := do
  let v ← view struct
  match base with
  | none => raise (.error .notAStruct (v.name ++ " extends a non-struct type"))
  | some base =>
    if base.handle = struct.handle then
      raise (.error .semantic ("struct " ++ v.name ++ " cannot extend itself"))
    let inherited ← members base
    let _ ← addMember struct "base" (some base) none
    inherited.forM fun mem => do
      if mem.name ≠ Text.ofString "base" then
        let _ ← addMember struct mem.name (some mem.type) mem.value

def extendNamed (struct : TypeId) (name : Text) : Act σ Unit := do
  let v ← view struct
  match (← typeSymbol struct.module name true).bind Symbol.type with
  | none =>
    raise (.error .unresolvedType
      ("base type " ++ name.quoted ++ " of " ++ v.name ++ " is not defined"))
  | some base =>
    if (← typeKind base) ≠ .struct then
      raise (.error .notAStruct
        ("base type " ++ name.quoted ++ " of " ++ v.name ++ " is not a struct"))
    extendStruct struct (some base)

end Act

end Arbor.Build
