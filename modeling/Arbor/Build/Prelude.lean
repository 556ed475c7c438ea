import Arbor.Build.Context

/-! The modules that are there before any source: `cstd` with functions of the C library, and
`core` with the names of the primitive types and the structs that all objects share. -/

namespace Arbor.Build

open IR Diag

variable {σ : Type}

def coreName : Text := "core"
def cstdName : Text := "cstd"

/-- A function declared by its name and types. -/
structure Declared where
  name : String
  ret : Prim
  args : List Prim
  variadic : Bool := false

def cstdFuncs : List Declared :=
  [{ name := "printf", ret := .i32, args := [.bytes], variadic := true },
   { name := "sprintf", ret := .i32, args := [.bytes, .bytes], variadic := true },
   { name := "malloc", ret := .bytes, args := [.i64] },
   { name := "free", ret := .void, args := [.bytes] },
   { name := "strlen", ret := .i64, args := [.bytes] },
   { name := "puts", ret := .i32, args := [.bytes] }]

def coreAliases : List (String × Prim) :=
  [("i8", .i8), ("i16", .i16), ("i32", .i32), ("i64", .i64),
   ("u8", .i8), ("u16", .i16), ("u32", .i32), ("u64", .i64),
   ("f32", .f32), ("f64", .f64), ("bool", .bool), ("$cstr", .bytes)]

namespace Act

def declareAll (m : Handle) : List Declared → Act σ Unit
  | [] => pure ()
  | d :: rest => do
    let args ← d.args.mapM (prim m)
    let ret ← prim m d.ret
    let fn ← declareFunc m d.name (some ret) args d.variadic
    addValueSymbol m d.name (some fn)
    declareAll m rest

def building (name : Text) (fill : Handle → Act σ Unit) : Act σ Built := do
  match ← attempt (newModule name) with
  | .error f => pure { module := none, fault := some f }
  | .ok m =>
    match ← attempt (fill m) with
    | .ok () => pure { module := some m }
    | .error f => pure { module := some m, fault := some f }

def fillCstd (m : Handle) : Act σ Unit := do
  declareAll m cstdFuncs
  exportAll m

def addMethod (m : Handle) (struct : TypeId) (name : Text) (ret self : TypeId) : Act σ Unit := do
  let owner ← typeName struct
  let fn ← declareFunc m (owner ++ "." ++ name) (some ret) [self] false
  let _ ← addMember struct name none (some fn)

def addField (struct : TypeId) (name : Text) (t : TypeId) : Act σ Unit := do
  let _ ← addMember struct name (some t) none

def fillCore (m : Handle) : Act σ Unit := do
  coreAliases.forM fun (name, p) => do
    let t ← prim m p
    addTypeSymbol m name (some t)
  let object ← newStruct m "Object"
  let typeInfo ← newStruct m "TypeInfo"
  let str ← newStruct m "String"
  [object, typeInfo, str].forM fun t => do
    let name ← typeName t
    addTypeSymbol m name (some t)
  let objectPtr ← pointerTo object
  let typeInfoPtr ← pointerTo typeInfo
  let strPtr ← pointerTo str
  let bytes ← prim m .bytes
  let i32 ← prim m .i32
  let i64 ← prim m .i64
  addMethod m object "typeinfo" typeInfoPtr objectPtr
  addMethod m object "string" strPtr objectPtr
  addMethod m object "hash" i64 objectPtr
  extendStruct typeInfo (some object)
  addField typeInfo "name" bytes
  addField typeInfo "fields" i32
  addField typeInfo "methods" i32
  addMethod m typeInfo "make" objectPtr typeInfoPtr
  extendStruct str (some object)
  addField str "data" bytes
  addField str "len" i64
  addMethod m str "length" i64 strPtr
  addMethod m str "toUpper" strPtr strPtr
  addMethod m str "toLower" strPtr strPtr
  let print ← declareFunc m "print" (some i32) [bytes] false
  addValueSymbol m "print" (some print)
  exportAll m

def loadDefaults : Act σ Unit := do
  let _ ← loadModule cstdName (building cstdName fillCstd)
  let _ ← loadModule coreName (building coreName fillCore)

end Act

end Arbor.Build
