import Arbor.Build.Scopes

/-! Types and values as modules see them. A module has one view of each type, made when it first
meets the type. -/

namespace Arbor.Build

open IR Diag

variable {σ : Type}

/-- The primitive types. -/
inductive Prim where
  | void | i8 | i16 | i32 | i64 | f32 | f64 | bool | bytes
deriving DecidableEq

namespace Prim

def all : List Prim := [.void, .i8, .i16, .i32, .i64, .f32, .f64, .bool, .bytes]

def ty : Prim → Ty
  | .void => .void
  | .i8 => .i8
  | .i16 => .i16
  | .i32 => .i32
  | .i64 => .i64
  | .f32 => .f32
  | .f64 => .f64
  | .bool => .bool
  | .bytes => .bytes

end Prim

namespace Act

def typeAt (m : Handle) (h : Handle) : Act σ (Option TypeId) := do
  if h = noHandle then pure none
  else
    let info ← module m
    if !info.types.contains h then
      let s ← store
      let view : TypeView := { name := s.typeName h, kind := s.typeKind h }
      update m fun i => { i with types := i.types.insert h view }
    pure (some ⟨m, h⟩)

def valueOf (m : Handle) (t : Option TypeId) (h : Handle) : Act σ (Option ValueId) := do
  if h = noHandle then pure none
  else
    update m fun i => { i with values := i.values.insertIfNew h t }
    pure (some ⟨m, h⟩)

def valueAt (m : Handle) (h : Handle) : Act σ (Option ValueId) := do
  if h = noHandle then pure none
  else
    let info ← module m
    if info.values.contains h then pure (some ⟨m, h⟩)
    else
      let t ← emitQuiet (Emit.valueType h)
      valueOf m (← typeAt m t) h

def view (t : TypeId) : Act σ TypeView := do
  let info ← module t.module
  need info.types[t.handle]?

def typeName (t : TypeId) : Act σ Text := do pure (← view t).name

def typeKind (t : TypeId) : Act σ Kind := do pure (← view t).kind

def updateType (t : TypeId) (f : TypeView → TypeView) : Act σ Unit :=
  update t.module fun i => { i with types := i.types.modify t.handle f }

def typeOf (v : ValueId) : Act σ TypeId := do
  let info ← module v.module
  let t ← need info.values[v.handle]?
  need t

def sameType (a b : TypeId) : Bool := a.handle == b.handle

def adoptWith (m : Handle) (adopt : TypeId → Act σ TypeId) : Option ValueId → Act σ (Option ValueId)
  | none => pure none
  | some v => do
    if v.module = m then pure (some v)
    else
      let t ← adopt (← typeOf v)
      valueOf m (some t) v.handle

/-- The module's own view of a type of another module, with what is known about its members and
what it points to. `depth` bounds the nesting. -/
def adoptType (m : Handle) : Nat → TypeId → Act σ TypeId
  | 0, _ => throw .endless
  | depth + 1, t => do
    if t.module = m then pure t
    else
      let theirs ← view t
      let own : TypeId := ⟨m, t.handle⟩
      let _ ← typeAt m t.handle
      match theirs.elem with
      | none => pure ()
      | some e =>
        if (← view own).elem.isNone then
          let e ← adoptType m depth e
          updateType own fun v => { v with elem := some e }
      if (← view own).kind = .struct && (← view own).members.isEmpty then
        theirs.members.toList.forM fun mem => do
          -- The place is noted before the types behind the member are looked at.
          updateType own fun v => { v with places := v.places.insert mem.name v.members.size }
          let type ← adoptType m depth mem.type
          let value ← adoptWith m (adoptType m depth) mem.value
          updateType own fun v =>
            { v with members := v.members.push { name := mem.name, type, value } }
      pure own

/-- Every chain of types that ends is shorter than this: a type comes back in it only after
another struct got its first member or another pointer its target. -/
def adoptDepth : Act σ Nat := do
  let size := (← store).entries.size
  pure ((size + 1) * (size + 1))

def ownType (m : Handle) (t : TypeId) : Act σ TypeId := do adoptType m (← adoptDepth) t

def ownValue (m : Handle) (v : Option ValueId) : Act σ (Option ValueId) := adoptWith m (ownType m) v

def prim (m : Handle) (p : Prim) : Act σ TypeId := do
  let h ← emitQuiet (Emit.internType p.ty)
  need (← typeAt m h)

def pointer (m : Handle) (t : TypeId) : Act σ TypeId := do
  let name ← typeName t
  let h ← backend m ("pointer to " ++ name) (Emit.pointer t.handle)
  let p ← need (← typeAt m h)
  if (← view p).elem.isNone then
    let e ← ownType m t
    updateType p fun v => { v with elem := some e }
  pure p

def pointerTo (t : TypeId) : Act σ TypeId := pointer t.module t

def elem (t : TypeId) : Act σ (Option TypeId) := do
  let v ← view t
  match v.elem with
  | some e => pure (some e)
  | none => if v.kind = .bytes then some <$> prim t.module .i8 else pure none

def funcType (m : Handle) (ret : Option TypeId) (args : List TypeId) (variadic : Bool) :
    Act σ TypeId := do
  let r ← match ret with
    | some r => pure r
    | none => prim m .void
  let h ← backend m "function type" (Emit.func r.handle (args.map TypeId.handle) variadic)
  need (← typeAt m h)

def canCast (a b : TypeId) : Act σ Bool := do pure ((← store).canCast a.handle b.handle)

end Act

end Arbor.Build
