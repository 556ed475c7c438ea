import Arbor.Run.Directive
import Arbor.Run.Trap

/-! The functions of the C library that a program may call without defining them. -/

namespace Arbor.Run

namespace Library

def textOf (m : Memory) : Value → Except TextError Text
  | .ptr object offset =>
    match m.object? object with
    | none => .error .null
    | some o => if o.freed then .error .freed else .ok (Memory.textAt o offset)
  | _ => .error .null

def isLength (b : UInt8) : Bool := (Text.ofString "hlLqjzt").contains b

def isFlag (b : UInt8) : Bool := (Text.ofString "-+ #0").contains b

def isNumber (b : UInt8) : Bool := Text.isDigit b || b == 46

/-- The directive at the start of a text that followed a percent sign: the part before the verb
without length letters, the verb, and the rest. -/
def directive? (t : Text) : Option (Text × UInt8 × Text) :=
  match ((t.dropWhile isFlag).dropWhile isNumber).dropWhile isLength with
  | [] => none
  | verb :: rest => some (t.takeWhile isFlag ++ (t.dropWhile isFlag).takeWhile isNumber, verb, rest)

theorem directive?_shorter {t spec rest : Text} {verb : UInt8}
    (h : directive? t = some (spec, verb, rest)) : rest.length < t.length := by
  unfold directive? at h
  split at h
  · cases h
  next hend =>
    cases h
    have hle := (((List.dropWhile_sublist isLength).trans (List.dropWhile_sublist isNumber)).trans
      (t.dropWhile_sublist isFlag)).length_le
    rw [hend] at hle
    exact hle

def fill (m : Memory) (spec : Text) (verb : UInt8) (v : Value) :
    Except (TextError ⊕ FormatError) Text :=
  if verb == 100 || verb == 105 || verb == 117 then
    .ok (Directive.render spec 100 (.int v.toInt))
  else if verb == 120 || verb == 88 || verb == 111 then
    .ok (Directive.render spec verb (.int v.toInt))
  else if verb == 99 then .ok (Directive.render spec verb (.char v.toInt.toInt32))
  else if (Text.ofString "fFeEgG").contains verb then
    .ok (Directive.render spec verb (.float v.toFloat))
  else if verb == 115 then
    match textOf m v with
    | .ok t => .ok (Directive.render spec verb (.text t))
    | .error e => .error (.inl e)
  else if verb == 112 then
    .ok ("0x" ++ ({} : Directive).integer 16 Text.lowerHex [] v.toInt)
  else .error (.inr (.verb verb))

def format (m : Memory) (t : Text) (args : List Value) : Except (TextError ⊕ FormatError) Text :=
  match t with
  | [] => .ok []
  | b :: t =>
    if b ≠ 37 then do
      let tail ← format m t args
      pure (b :: tail)
    else match _h : directive? t with
      | none => .error (.inr .truncated)
      | some (spec, verb, rest) =>
        if verb = 37 then do
          let tail ← format m rest args
          pure (37 :: tail)
        else match args with
          | [] => .error (.inr .fewArguments)
          | v :: args => do
            let written ← fill m spec verb v
            let tail ← format m rest args
            pure (written ++ tail)
termination_by t.length
decreasing_by
  · exact Nat.lt_succ_self _
  · exact Nat.lt_succ_of_lt (directive?_shorter _h)
  · exact Nat.lt_succ_of_lt (directive?_shorter _h)

theorem format_percent (m : Memory) (t : Text) (args : List Value) : format m (37 :: t) args =
    match directive? t with
    | none => .error (.inr .truncated)
    | some (spec, verb, rest) =>
      if verb = 37 then format m rest args >>= fun tail => pure (37 :: tail)
      else match args with
        | [] => .error (.inr .fewArguments)
        | v :: args => fill m spec verb v >>= fun written =>
          format m rest args >>= fun tail => pure (written ++ tail) := by
  rw [format, if_neg (by simp)]
  split <;> next h => rw [h]

def readText (func : Text) (v : Value) : Exec Text := do
  match textOf (← get).memory v with
  | .ok t => pure t
  | .error e => throw (.badText func e)

def formatted (func : Text) (template : Value) (args : List Value) : Exec Text := do
  let t ← readText func template
  match format (← get).memory t args with
  | .ok t => pure t
  | .error (.inl e) => throw (.badText func e)
  | .error (.inr e) => throw (.badFormat func e)

def malloc : List Value → Exec Value
  | [v] => if v.toInt < 0 then pure .null else Exec.alloc { size := v.toInt }
  | _ => throw (.oneArgument "malloc")

def free : List Value → Exec Value
  | [.ptr object _] => do
    match (← get).memory.object? object with
    | none => pure .absent
    | some o =>
      if o.freed then throw .doubleFree
      modify fun m => { m with memory := m.memory.free object }
      pure .absent
  | [_] => pure .absent
  | _ => throw (.oneArgument "free")

def printf : List Value → Exec Value
  | [] => throw .noFormat
  | template :: args => do Exec.print (← formatted "printf" template args)

def sprintf : List Value → Exec Value
  | .ptr object offset :: template :: args => do
    let t ← formatted "sprintf" template args
    modify fun m => { m with memory := m.memory.writeText object offset t }
    pure (.int (Int64.ofNat t.length))
  | _ :: _ :: _ => throw .nullBuffer
  | _ => throw .noBuffer

def strlen : List Value → Exec Value
  | [v] => do
    let t ← readText "strlen" v
    pure (.int (Int64.ofNat t.length))
  | _ => throw (.oneArgument "strlen")

def puts : List Value → Exec Value
  | [v] => do
    let t ← readText "puts" v
    Exec.print (t ++ "\n")
  | _ => throw (.oneArgument "puts")

def print : List Value → Exec Value
  | [v] => do Exec.print (← readText "print" v)
  | _ => throw (.oneArgument "print")

def find? (name : Text) : Option (List Value → Exec Value) :=
  let table : List (Text × (List Value → Exec Value)) :=
    [("malloc", malloc), ("free", free), ("printf", printf), ("sprintf", sprintf),
     ("strlen", strlen), ("puts", puts), ("print", print)]
  table.lookup name

end Library

end Arbor.Run
