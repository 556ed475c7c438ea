import Arbor.IR.Store
import Arbor.Text.Quoted

/-! How types and names are spelled: for people in messages, and in the textual representation. -/

namespace Arbor.IR

namespace Spelling

def isPlain (b : UInt8) : Bool :=
  Text.isLetter b || Text.isDigit b || b == 36 || b == 45 || b == 46 || b == 95

def isLiteral (b : UInt8) : Bool := 32 ≤ b && b ≤ 126 && b != 34 && b != 92

def escaped (t : Text) : Text :=
  t.flatMap fun b => if isLiteral b then [b] else 92 :: Text.hexByte Text.upperHex b

def quoted (t : Text) : Text := "\"" ++ escaped t ++ "\""

def name (t : Text) : Text := if t.all isPlain then t else quoted t

def isNumber (t : Text) : Bool :=
  match Text.toNat? t with
  | some n => n < 0x10000000000000000
  | none => false

def valueName (t : Text) : Text := if isNumber t then "\"" ++ t ++ "\"" else name t

def signed? (t : Text) : Option Int :=
  let magnitude (digits : Text) : Option Int := (Text.toNat? digits).map Int.ofNat
  let n := match t with
    | 43 :: digits => magnitude digits
    | 45 :: digits => (magnitude digits).map fun n => -n
    | digits => magnitude digits
  n.filter fun n => -0x8000000000000000 ≤ n && n < 0x8000000000000000

end Spelling

namespace Ident

/-- The identifier as it is told in messages: a number in place of a missing name, and quotes
around a name that reads as a number. -/
def spoken (i : Ident) : Text :=
  if i.isUnnamed then Text.ofNat i.number
  else match Spelling.signed? i.name with
    | some n => "\"" ++ Text.ofInt n ++ "\""
    | none => i.name

def written (i : Ident) : Text :=
  if i.isUnnamed then Text.ofNat i.number else Spelling.valueName i.name

end Ident

namespace Store

def dots (variadic : Bool) : List Text := if variadic then ["..."] else []

mutual

def tyName (s : Store) : Ty → Text
  | .void => "void"
  | .label => "label"
  | .int .w1 => "bool"
  | .int .w8 => "i8"
  | .int .w16 => "i16"
  | .int .w32 => "i32"
  | .int .w64 => "i64"
  | .float .single => "f32"
  | .float .double => "f64"
  | .ptr (.int .w8) => "bytes"
  | .ptr e => s.tyName e ++ "*"
  | .func r ps v =>
    s.tyName r ++ "(" ++ Text.join ", " (s.tyNames ps ++ dots v) ++ ")"
  | .array n e => "[" ++ Text.ofNat n ++ " x " ++ s.tyName e ++ "]"
  | .struct h =>
    match s.struct? h with
    | some i => i.name
    | none => "<invalid>"

def tyNames (s : Store) : List Ty → List Text
  | [] => []
  | t :: ts => s.tyName t :: s.tyNames ts

end

def typeName (s : Store) (h : Handle) : Text :=
  match s.type? h with
  | some t => s.tyName t
  | none => "<invalid>"

def typeKind (s : Store) (h : Handle) : Kind :=
  match s.type? h with
  | some t => t.kind
  | none => .invalid

def intText : Width → Text
  | .w1 => "i1"
  | .w8 => "i8"
  | .w16 => "i16"
  | .w32 => "i32"
  | .w64 => "i64"

def bodyText (spell : Ty → Text) (i : StructInfo) : Text :=
  match i.fields with
  | none => "opaque"
  | some [] => "\x7b\x7d"
  | some ts => "\x7b " ++ Text.join ", " (ts.map spell) ++ " \x7d"

mutual

def spellTy (s : Store) (body : StructInfo → Text) : Ty → Text
  | .void => "void"
  | .label => "label"
  | .int w => intText w
  | .float .single => "float"
  | .float .double => "double"
  | .ptr e => s.spellTy body e ++ "*"
  | .func r ps v =>
    s.spellTy body r ++ " (" ++ Text.join ", " (s.spellTys body ps ++ dots v) ++ ")"
  | .array n e => "[" ++ Text.ofNat n ++ " x " ++ s.spellTy body e ++ "]"
  | .struct h =>
    match s.struct? h with
    | none => "<invalid>"
    | some i => if i.label.isEmpty then body i else "%" ++ Spelling.name i.label

def spellTys (s : Store) (body : StructInfo → Text) : List Ty → List Text
  | [] => []
  | t :: ts => s.spellTy body t :: s.spellTys body ts

end

def unnamedText (s : Store) : Nat → StructInfo → Text
  | 0, _ => "..."
  | depth + 1, i => bodyText (s.spellTy (s.unnamedText depth)) i

def tyText (s : Store) (t : Ty) : Text := s.spellTy (s.unnamedText s.entries.size) t

end Store

namespace Refusal

def message : Refusal → Text
  | .notType h => "handle " ++ Text.ofNat h ++ " is not a type"
  | .notValue h => "handle " ++ Text.ofNat h ++ " is not a value"
  | .notBlock h => "handle " ++ Text.ofNat h ++ " is not a block"
  | .notModule h => "handle " ++ Text.ofNat h ++ " is not a module"
  | .notFunction h => "value " ++ Text.ofNat h ++ " is not a function"
  | .dropped m => "module " ++ m.quoted ++ " was dropped"
  | .unnamedModule => "module name is empty"
  | .pointerTo k => "cannot form a pointer to " ++ k.name
  | .returnType c => "return type: " ++ c.message
  | .parameter i c => "parameter " ++ Text.ofNat i ++ ": " ++ c.message
  | .voidParameter i => "parameter " ++ Text.ofNat i ++ " has void type"
  | .notStruct t => t ++ " is not a struct type"
  | .field i c => "field " ++ Text.ofNat i ++ ": " ++ c.message
  | .noDefault t => "type " ++ t ++ " has no default value"
  | .intWidth n => "unsupported integer width " ++ Text.ofNat n
  | .redeclared f => "function " ++ f.quoted ++ " redeclared with a different signature"
  | .notFuncType t => t ++ " is not a function type"
  | .noParameter f i => "function " ++ f ++ " has no parameter " ++ Text.ofNat i
  | .sizeOf t c => "size of " ++ t ++ ": " ++ c.message
  | .noBody t => "struct " ++ t ++ " has no body"
  | .containsItself t => "struct " ++ t ++ " contains itself"
  | .noSize t => "type " ++ t ++ " has no size"
  | .arrayLength => "out of range"
  | .noActiveBlock => "no active block"
  | .terminated b => "block already terminated: " ++ b
  | .cannotAllocate k => "cannot allocate " ++ k.name
  | .loadFrom t => "load from non-pointer " ++ t
  | .storeTo t => "store to non-pointer " ++ t
  | .storeMismatch got want => "cannot store " ++ got ++ " into " ++ want ++ " slot"
  | .cannotConvert source target => "cannot convert " ++ source ++ " to " ++ target
  | .notAddressable t => "value of type " ++ t ++ " is not addressable"
  | .operatorKind op k => "operator " ++ op.name ++ " does not apply to " ++ k.name
  | .operandsDiffer op l r =>
    "operator " ++ op.name ++ ": operand types " ++ l ++ " and " ++ r ++ " differ"
  | .branchCondition t => "branch condition has type " ++ t ++ ", want bool"
  | .emptyPhi => "phi needs at least one incoming edge"
  | .phiEdge i got want => "phi edge " ++ Text.ofNat i ++ " has type " ++ got ++ ", want " ++ want
  | .notCallable t => "value of type " ++ t ++ " is not callable"
  | .argumentCount want got =>
    "call expects " ++ Text.ofNat want ++ " arguments, got " ++ Text.ofNat got
  | .argument i c => "argument " ++ Text.ofNat i ++ ": " ++ c.message
  | .argumentType i got want =>
    "argument " ++ Text.ofNat i ++ " has type " ++ got ++ ", want " ++ want
  | .missingReturn t => "missing return value of type " ++ t
  | .returnMismatch got want => "return value has type " ++ got ++ ", want " ++ want

end Refusal

namespace Violation

def message (v : Violation) : Text := (Refusal.terminated v.block).message

end Violation

end Arbor.IR
