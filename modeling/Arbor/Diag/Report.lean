import Arbor.Diag.Bag
import Arbor.Json
import Arbor.Text.Cells
import Arbor.Text.Style

/-! Findings as a reader gets them: a line for each with its notes below it, or one JSON value. -/

namespace Arbor.Diag

def Severity.styles (s : Severity) : List Style :=
  if s = .error then [.red, .bold] else if s = .warning then [.yellow, .bold] else [.blue]

/-- How findings are written for people. A width of 0 is no limit for the message. -/
structure PrettyOptions where
  color : Bool := false
  width : UInt8 := 0
  notes : Bool := true

namespace Diagnostic

def pretty (o : PrettyOptions) (d : Diagnostic) : Text :=
  let message := if o.width = 0 then d.message else Text.fit o.width.toNat "…" d.message
  let place := Text.when (!d.module.isEmpty) (Style.paint o.color [.bold] d.module ++ ": ")
  let note (n : Text) : Text := "  " ++ Style.paint o.color [.cyan] "note:" ++ " " ++ n ++ "\n"
  place ++ Style.paint o.color d.severity.styles d.severity.name ++ " "
    ++ Style.paint o.color [.faint] d.code.id ++ ": " ++ message ++ "\n"
    ++ Text.when o.notes (d.notes.flatMap note)

def toJson (notes : Bool) (d : Diagnostic) : Json :=
  .object ([(Text.ofString "severity", .text d.severity.name),
      (Text.ofString "code", .text d.code.id), (Text.ofString "title", .text d.code.title)]
    ++ Json.textField "module" d.module
    ++ [(Text.ofString "message", .text d.message)]
    ++ (if notes && !d.notes.isEmpty then
        [(Text.ofString "notes", .list (d.notes.map Json.text))] else []))

end Diagnostic

namespace Bag

def pretty (o : PrettyOptions) (b : Bag) : Text := b.items.flatMap (Diagnostic.pretty o)

def toJson (most : Int) (notes : Bool) (b : Bag) : Json :=
  let shown := if 0 < most then b.items.take most.toNat else b.items
  .object [(Text.ofString "diagnostics", .list (shown.map (Diagnostic.toJson notes))),
    (Text.ofString "count", .int shown.length)]

end Bag

end Arbor.Diag
