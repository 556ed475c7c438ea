import Arbor.Json
import Arbor.Text.Style
import Arbor.Tree.Codec

/-! What a build of the program says about itself. -/

namespace Arbor

/-- Where a build of the program comes from. -/
structure Release where
  version : Text := "0.1.0-dev"
  commit : Text := []
  /-- Whether there were changes after the commit. -/
  modified : Bool := false
  date : Text := []
  compiler : Text := []

/-- What is told about a release; empty fields were not asked for. -/
structure VersionReport where
  version : Text
  commit : Text := []
  date : Text := []
  compiler : Text := []
  schema : Nat := 0
  backend : Text := []
  target : Text := []

def orUnknown (t : Text) : Text := if t.isEmpty then "unknown" else t

namespace Release

def shownVersion (version : Text) : Text := if version.trim.isEmpty then "dev" else version.trim

def partStyles : List (List Style) :=
  [[.yellow, .bold], [.green, .bold], [.blue, .bold]]

def banner (color : Bool) (version : Text) : Text :=
  let v := version.trim
  if v.isEmpty then "dev"
  else
    let core := v.takeWhile (· != 45)
    let parts := (Text.splitByte 46 core).zipIdx.map fun (part, i) =>
      match partStyles[i]? with
      | some styles => Style.paint color styles part
      | none => part
    Text.join "." parts ++ v.dropWhile (· != 45)

def report (r : Release) (build toolchain : Bool) : VersionReport :=
  let basic : VersionReport := { version := r.version }
  let built := if build then
      { basic with
        commit := orUnknown r.commit ++ Text.when (r.modified && !r.commit.isEmpty) "+dirty"
        date := orUnknown r.date
        compiler := r.compiler }
    else basic
  if toolchain then
    { built with
      schema := Tree.schemaVersion.toNat
      backend := "llvm ir (llir/llvm), jit interpreter"
      target := "x86_64 (System V layout)" }
  else built

end Release

namespace VersionReport

def toJson (r : VersionReport) : Json :=
  .object ([(Text.ofString "tool", .text "elang"), (Text.ofString "version", .text r.version)]
    ++ Json.textField "commit" r.commit ++ Json.textField "build_date" r.date
    ++ Json.textField "go" r.compiler
    ++ (if r.schema = 0 then [] else [(Text.ofString "east_schema", .int r.schema)])
    ++ Json.textField "backend" r.backend ++ Json.textField "target" r.target)

def row (label : String) (value : Text) : Text :=
  Text.when (!value.isEmpty) ("  " ++ Text.padRight 8 (label ++ ":") ++ " " ++ value ++ "\n")

def pretty (r : VersionReport) (banner : Text) : Text :=
  let schema := Text.when (r.schema ≠ 0) ("east v" ++ Text.ofNat r.schema)
  "elang " ++ banner ++ "\n" ++ row "commit" r.commit ++ row "built" r.date ++ row "go" r.compiler
    ++ row "backend" r.backend ++ row "target" r.target ++ row "schema" schema

end VersionReport

end Arbor
