import Arbor.Text

/-! Types of the intermediate representation and the operators on their values. -/

namespace Arbor.IR

/-- The number that stands for an object of the store: a type, constant, function, block,
instruction or module. Zero stands for nothing. -/
abbrev Handle := Nat

def noHandle : Handle := 0

/-- The widths of integers; one bit holds a truth value. -/
inductive Width where
  | w1 | w8 | w16 | w32 | w64
deriving DecidableEq, Hashable

namespace Width

def bits : Width → Nat
  | .w1 => 1
  | .w8 => 8
  | .w16 => 16
  | .w32 => 32
  | .w64 => 64

def ofBits? : Nat → Option Width
  | 1 => some .w1
  | 8 => some .w8
  | 16 => some .w16
  | 32 => some .w32
  | 64 => some .w64
  | _ => none

end Width

inductive Precision where
  | single | double
deriving DecidableEq, Hashable

/-- A type. A struct is known by its own handle, so two structs with equal fields differ. -/
inductive Ty where
  | void
  | label
  | int (width : Width)
  | float (precision : Precision)
  | ptr (elem : Ty)
  | func (ret : Ty) (params : List Ty) (variadic : Bool)
  | array (length : Nat) (elem : Ty)
  | struct (handle : Handle)
deriving Hashable

namespace Ty

abbrev bool : Ty := .int .w1
abbrev i8 : Ty := .int .w8
abbrev i16 : Ty := .int .w16
abbrev i32 : Ty := .int .w32
abbrev i64 : Ty := .int .w64
abbrev f32 : Ty := .float .single
abbrev f64 : Ty := .float .double
abbrev bytes : Ty := .ptr .i8

mutual

def decEq : (s t : Ty) → Decidable (s = t)
  | .void, t => by cases t <;> first | exact isTrue rfl | exact isFalse (by simp)
  | .label, t => by cases t <;> first | exact isTrue rfl | exact isFalse (by simp)
  | .int v, t =>
    match t with
    | .int w => if h : v = w then isTrue (by rw [h]) else isFalse (by simp [h])
    | .void | .label | .float _ | .ptr _ | .func .. | .array .. | .struct _ => isFalse (by simp)
  | .float p, t =>
    match t with
    | .float q => if h : p = q then isTrue (by rw [h]) else isFalse (by simp [h])
    | .void | .label | .int _ | .ptr _ | .func .. | .array .. | .struct _ => isFalse (by simp)
  | .ptr e, t =>
    match t with
    | .ptr e' =>
      match decEq e e' with
      | isTrue h => isTrue (by rw [h])
      | isFalse h => isFalse (by simp [h])
    | .void | .label | .int _ | .float _ | .func .. | .array .. | .struct _ => isFalse (by simp)
  | .func r ps v, t =>
    match t with
    | .func r' ps' v' =>
      match decEq r r', decEqList ps ps', instDecidableEqBool v v' with
      | isTrue h1, isTrue h2, isTrue h3 => isTrue (by rw [h1, h2, h3])
      | isFalse h, _, _ => isFalse (by simp [h])
      | _, isFalse h, _ => isFalse (by simp [h])
      | _, _, isFalse h => isFalse (by simp [h])
    | .void | .label | .int _ | .float _ | .ptr _ | .array .. | .struct _ => isFalse (by simp)
  | .array n e, t =>
    match t with
    | .array n' e' =>
      match decEq e e' with
      | isTrue h => if h' : n = n' then isTrue (by rw [h, h']) else isFalse (by simp [h'])
      | isFalse h => isFalse (by simp [h])
    | .void | .label | .int _ | .float _ | .ptr _ | .func .. | .struct _ => isFalse (by simp)
  | .struct a, t =>
    match t with
    | .struct b => if h : a = b then isTrue (by rw [h]) else isFalse (by simp [h])
    | .void | .label | .int _ | .float _ | .ptr _ | .func .. | .array .. => isFalse (by simp)

def decEqList : (ss ts : List Ty) → Decidable (ss = ts)
  | [], [] => isTrue rfl
  | [], _ :: _ => isFalse (by simp)
  | _ :: _, [] => isFalse (by simp)
  | s :: ss, t :: ts =>
    match decEq s t, decEqList ss ts with
    | isTrue h1, isTrue h2 => isTrue (by rw [h1, h2])
    | isFalse h, _ => isFalse (by simp [h])
    | _, isFalse h => isFalse (by simp [h])

end

instance : DecidableEq Ty := decEq

end Ty

/-- The classes of types. -/
inductive Kind where
  | invalid | void | i8 | i16 | i32 | i64 | f32 | f64 | bool | bytes | pointer | func | array
  | struct | label
deriving DecidableEq

namespace Kind

def all : List Kind :=
  [.invalid, .void, .i8, .i16, .i32, .i64, .f32, .f64, .bool, .bytes, .pointer, .func, .array,
   .struct, .label]

def name : Kind → String
  | .invalid => "invalid"
  | .void => "void"
  | .i8 => "i8"
  | .i16 => "i16"
  | .i32 => "i32"
  | .i64 => "i64"
  | .f32 => "f32"
  | .f64 => "f64"
  | .bool => "bool"
  | .bytes => "bytes"
  | .pointer => "pointer"
  | .func => "func"
  | .array => "array"
  | .struct => "struct"
  | .label => "label"

def nameOf (n : Nat) : Text :=
  match all[n]? with
  | some k => k.name
  | none => "Kind(" ++ Text.ofNat n ++ ")"

def isInteger : Kind → Bool
  | .i8 | .i16 | .i32 | .i64 => true
  | _ => false

def isFloat : Kind → Bool
  | .f32 | .f64 => true
  | _ => false

def isPointer : Kind → Bool
  | .pointer | .bytes => true
  | _ => false

def bits : Kind → Nat
  | .bool => 1
  | .i8 => 8
  | .i16 => 16
  | .i32 => 32
  | .i64 => 64
  | _ => 0

end Kind

namespace Ty

def kind : Ty → Kind
  | .void => .void
  | .label => .label
  | .int .w1 => .bool
  | .int .w8 => .i8
  | .int .w16 => .i16
  | .int .w32 => .i32
  | .int .w64 => .i64
  | .float .single => .f32
  | .float .double => .f64
  | .ptr (.int .w8) => .bytes
  | .ptr _ => .pointer
  | .func .. => .func
  | .array .. => .array
  | .struct _ => .struct

def width : Ty → Width
  | .int w => w
  | _ => .w64

end Ty

/-- The operators; a number beyond them names none. -/
inductive Op where
  | invalid | neg | add | sub | mul | div | mod | eq | ne | gt | ge | lt | le | not | and | or
  | flip | bitAnd | bitOr | bitXor | shl | shr
  | unknown (code : UInt8)
deriving DecidableEq

namespace Op

def all : List Op :=
  [.invalid, .neg, .add, .sub, .mul, .div, .mod, .eq, .ne, .gt, .ge, .lt, .le, .not, .and, .or,
   .flip, .bitAnd, .bitOr, .bitXor, .shl, .shr]

def ofCode (n : UInt8) : Op := (all[n.toNat]?).getD (.unknown n)

def name : Op → Text
  | .invalid => "invalid"
  | .neg => "neg"
  | .add => "add"
  | .sub => "sub"
  | .mul => "mul"
  | .div => "div"
  | .mod => "mod"
  | .eq => "eq"
  | .ne => "ne"
  | .gt => "gt"
  | .ge => "ge"
  | .lt => "lt"
  | .le => "le"
  | .not => "not"
  | .and => "and"
  | .or => "or"
  | .flip => "flip"
  | .bitAnd => "bitand"
  | .bitOr => "bitor"
  | .bitXor => "bitxor"
  | .shl => "shl"
  | .shr => "shr"
  | .unknown n => "Op(" ++ Text.ofNat n.toNat ++ ")"

def isComparison : Op → Bool
  | .eq | .ne | .gt | .ge | .lt | .le => true
  | _ => false

def isLogical : Op → Bool
  | .not | .and | .or => true
  | _ => false

def isUnary : Op → Bool
  | .neg | .not | .flip => true
  | _ => false

end Op

end Arbor.IR
