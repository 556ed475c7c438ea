import Arbor.Trace.Event
import Arbor.Calendar
import Arbor.Json
import Arbor.Diag.Fault
import Arbor.Text.Lower

/-! Trace events as lines: for people, or one JSON object to a line. -/

namespace Arbor.Trace

open Diag

/-- How events are written. An output's own format is chosen by its name. -/
structure Format where
  rank : UInt8
deriving DecidableEq

namespace Format

def auto : Format := ⟨0⟩
def plain : Format := ⟨1⟩
def ndjson : Format := ⟨2⟩

def parse (t : Text) : Except Fault Format :=
  let word := t.lowerCase
  if word = Text.ofString "" || word = Text.ofString "auto" then .ok auto
  else if word = Text.ofString "text" then .ok plain
  else if word = Text.ofString "ndjson" || word = Text.ofString "json" then .ok ndjson
  else .error (.plain ("invalid trace format: " ++ t.quoted ++ " (expected: auto|text|ndjson)"))

def resolve (f : Format) (path : Text) : Format :=
  if f ≠ auto then f
  else if (Text.ofString ".ndjson").isSuffixOf path || (Text.ofString ".json").isSuffixOf path then
    ndjson
  else plain

end Format

def Level.parse (t : Text) : Except Fault Level :=
  match Level.names.findIdx? fun n => Text.ofString n = t.lowerCase with
  | some i => .ok ⟨i.toUInt8⟩
  | none =>
    .error (.plain
      ("invalid trace level: " ++ t.quoted ++ " (expected: off|error|phase|detail|debug)"))

/-- An event with its place in the order of all and the moment it happened, in nanoseconds since
1970. -/
structure Stamped where
  event : Event
  seq : Nat := 0
  time : Int := 0
deriving DecidableEq

def EventKind.mark (k : EventKind) : Text :=
  if k = .spanBegin then "→ " else if k = .spanEnd then "← " else if k = .point then "• "
  else if k = .heartbeat then "♡ " else if k = .error then "! " else []

def milliseconds (micros : Int) : Text :=
  Text.when (micros < 0) "-" ++ Text.ofNat (micros.natAbs / 1000) ++ "."
    ++ Calendar.digits 3 (micros.natAbs % 1000)

namespace Stamped

/-- `[elapsed] mark name [module] (detail) (key=value, …)` with the pairs in braces; what is under
a span is indented. Times count from `start`. -/
def line (start : Int) (s : Stamped) : Text :=
  let e := s.event
  let pairs := e.extra.map fun (k, v) => k ++ [61] ++ v
  "[" ++ Text.padLeft 9 (milliseconds (Int.tdiv (s.time - start) 1000)) ++ "ms] "
    ++ Text.when (0 < e.parent) "  " ++ e.kind.mark ++ e.name
    ++ Text.when (!e.module.isEmpty) (" [" ++ e.module ++ "]")
    ++ Text.when (!e.detail.isEmpty) (" (" ++ e.detail ++ ")")
    ++ Text.when (!e.extra.isEmpty) (" \x7b" ++ Text.join ", " pairs ++ "\x7d")
    ++ "\n"

def toJson (s : Stamped) : Json :=
  let e := s.event
  let number (key : String) (n : Nat) : List (Text × Json) :=
    if n = 0 then [] else [(Text.ofString key, .int n)]
  .object ([(Text.ofString "time", .text (Calendar.timestamp s.time)),
      (Text.ofString "seq", .int s.seq), (Text.ofString "kind", .text e.kind.name),
      (Text.ofString "scope", .text e.scope.name)]
    ++ number "span_id" e.span ++ number "parent_id" e.parent
    ++ Json.textField "module" e.module ++ [(Text.ofString "name", .text e.name)]
    ++ Json.textField "detail" e.detail
    ++ (if e.extra.isEmpty then []
        else [(Text.ofString "extra", .object (e.extra.map fun (k, v) => (k, .text v)))]))

def render (start : Int) (f : Format) (s : Stamped) : Text :=
  if f = .ndjson then s.toJson.compact ++ "\n" else s.line start

end Stamped

end Arbor.Trace
