import Arbor.Diag.Code

/-! Errors as they travel through the program. A fault is a chain: a coded message may carry the
fault that caused it, and text may be put in front of another fault. Whoever reports a fault looks
for the first coded link of the chain. -/

namespace Arbor.Diag

inductive Fault where
  | plain (message : Text)
  | coded (code : Code) (message : Text) (notes : List Text) (cause : Option Fault)
  | context (message : Text) (cause : Fault)
  | many (faults : List Fault)
  | cancelled
  /-- The build reported diagnostics; they are told elsewhere. -/
  | diagnosed
deriving Inhabited

namespace Fault

def error (code : Code) (message : Text) : Fault := .coded code message [] none

def wrap (code : Code) (cause : Fault) (message : Text) : Fault :=
  .coded code message [] (some cause)

def withNote (note : Text) : Fault → Fault
  | .coded code message notes cause => .coded code message (notes ++ [note]) cause
  | f => f

mutual

def text : Fault → Text
  | .plain message => message
  | .coded code message _ none => code.id ++ ": " ++ message
  | .coded code message _ (some cause) => code.id ++ ": " ++ message ++ ": " ++ cause.text
  | .context message cause => message ++ ": " ++ cause.text
  | .many faults => Text.lines (texts faults)
  | .cancelled => "context canceled"
  | .diagnosed => "diagnostics reported errors"

def texts : List Fault → List Text
  | [] => []
  | f :: rest => f.text :: texts rest

end

/-- What a coded link of a chain says: its code, its message with that of its cause, its notes. -/
structure Link where
  code : Code
  message : Text
  notes : List Text
  own : Text

mutual

def link? : Fault → Option Link
  | .coded code message notes none => some ⟨code, message, notes, message⟩
  | .coded code message notes (some cause) =>
    some ⟨code, message ++ ": " ++ cause.text, notes, message⟩
  | .context _ cause => cause.link?
  | .many faults => firstLink? faults
  | _ => none

def firstLink? : List Fault → Option Link
  | [] => none
  | f :: rest =>
    match f.link? with
    | some l => some l
    | none => firstLink? rest

end

def code (f : Fault) : Code := (f.link?.map Link.code).getD .unknown

mutual

def isCancelled : Fault → Bool
  | .cancelled => true
  | .coded _ _ _ (some cause) => cause.isCancelled
  | .context _ cause => cause.isCancelled
  | .many faults => anyCancelled faults
  | _ => false

def anyCancelled : List Fault → Bool
  | [] => false
  | f :: rest => f.isCancelled || anyCancelled rest

end

mutual

def isDiagnosed : Fault → Bool
  | .diagnosed => true
  | .coded _ _ _ (some cause) => cause.isDiagnosed
  | .context _ cause => cause.isDiagnosed
  | .many faults => anyDiagnosed faults
  | _ => false

def anyDiagnosed : List Fault → Bool
  | [] => false
  | f :: rest => f.isDiagnosed || anyDiagnosed rest

end

end Fault

end Arbor.Diag
