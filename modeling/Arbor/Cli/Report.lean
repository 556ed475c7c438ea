import Arbor.Diag.Report
import Arbor.Text.Lower
import Arbor.Text.Quoted

/-! How a command ends and what it reports. -/

namespace Arbor.Cli

open Diag

/-- How a command ends. -/
inductive Ending where
  | done
  | exit (status : Nat)
  | fault (f : Fault)

namespace Ending

def status : Ending → Nat
  | .done => 0
  | .exit n => n
  | .fault _ => 1

def fault? : Ending → Option Fault
  | .fault f => some f
  | _ => none

end Ending

def exitStatus (n : Int64) : Nat := (n.toInt % 256).toNat

/-- How findings are shown. -/
structure ReportStyle where
  json : Bool := false
  color : Bool := false
  most : Int := 0

def ReportStyle.findings (s : ReportStyle) (b : Bag) : Text :=
  if b.items.isEmpty then []
  else if s.json then (b.sort.toJson s.most true).indented
  else b.sort.pretty { color := s.color }

/-- What is reported about a build. -/
structure Reported where
  text : Text
  failed : Bool
  ending : Ending

/-- Reports the findings of a build and how it ended. A fault with a code is shown as a finding; one
without is left to the caller. -/
def ReportStyle.report (s : ReportStyle) (bag : Option Bag) (fault : Option Fault) : Reported :=
  match fault with
  | none => ⟨s.findings (bag.getD {}), false, .done⟩
  | some f =>
    if f.isDiagnosed then ⟨s.findings (bag.getD {}), true, .exit 1⟩
    else if f.code = .unknown then ⟨s.findings (bag.getD {}), true, .fault f⟩
    else
      let bag := bag.getD { limit := s.most.toNat }
      ⟨s.findings (bag.addFault [] f), true, .exit 1⟩

/-- A choice between on, off and what suits the terminal. -/
inductive Choice where
  | auto | on | off
deriving DecidableEq

def Choice.parse (flag : String) (t : Text) : Except Fault Choice :=
  let word := t.lowerCase.trim
  if word.isEmpty || word = Text.ofString "auto" then .ok .auto
  else if word = Text.ofString "on" then .ok .on
  else if word = Text.ofString "off" then .ok .off
  else .error (.plain
    ("invalid " ++ flag ++ " value " ++ t.quoted ++ " (expected auto|on|off)"))

def Choice.name : Choice → Text
  | .auto => "auto"
  | .on => "on"
  | .off => "off"

end Arbor.Cli
