import Arbor.Pipeline.Progress
import Arbor.Text.Block

/-! The progress of a run on a terminal: a heading, a line for each file, a bar and a summary. -/

namespace Arbor.Pipeline

open Diag

/-- One file on the screen. -/
structure Row where
  file : Text
  module : Text := []
  stage : Stage := ⟨[]⟩
  status : Status := .queued
  elapsed : Int := 0
  error : Text := []

structure Screen where
  title : Text
  rows : List Row := []
  doing : Text := []
  width : Nat := 80
  barWidth : Int := 76
  turns : Nat := 0
  done : Bool := false

def Stage.activity (s : Stage) : Text :=
  if s = .decode then "decoding"
  else if s = .build then "building"
  else if s = .verify then "verifying"
  else if s = .emit then "emitting"
  else if s = .run then "running"
  else s.name

namespace Row

def label (r : Row) : Text := if r.status = .working then r.stage.activity else r.status.name

def apply (r : Row) (e : Event) : Row :=
  let r := if e.module.isEmpty then r else { r with module := e.module }
  if e.status.name.isEmpty then r
  else { r with
    stage := e.stage, status := e.status, elapsed := e.elapsed
    error := (e.fault.map Fault.text).getD r.error }

def cut (width : Nat) (t : Text) : Text := Text.fit width "..." t

def shownTime (nanos : Int) : Text :=
  " " ++ Double.write .positional 101 (some 1)
    (.ofBits (Float.ofInt (Int.tdiv nanos 1000) / 1000.0).toBits) ++ "ms"

def view (width : Nat) (r : Row) : Text :=
  let name := if r.module.isEmpty then r.file else r.module ++ " (" ++ r.file ++ ")"
  let label := Text.spaces (12 - Text.runeCount r.label) ++ r.label
  "  " ++ label.block ++ " " ++ cut width name
    ++ Text.when (r.status = .done && 0 < r.elapsed) (shownTime r.elapsed) ++ "\n"
    ++ Text.when (!r.error.isEmpty)
      (Text.block (Text.spaces 15 ++ cut width r.error) ++ "\n")

end Row

namespace Screen

def atFile (f : Row → Row) (file : Text) : List Row → List Row
  | [] => [f { file }]
  | r :: rest => if r.file = file then f r :: rest else r :: atFile f file rest

def ofFiles (title : Text) (files : List Text) : Screen :=
  { title, rows := files.foldl (fun rows file => atFile id file rows) [] }

def apply (s : Screen) (e : Event) : Screen :=
  if e.file.isEmpty then
    if e.status = .working then { s with doing := e.stage.activity } else s
  else { s with rows := atFile (·.apply e) e.file s.rows }

def resize (s : Screen) (width : Int) : Screen :=
  if 0 < width then { s with width := width.toNat, barWidth := width - 4 } else s

def finish (s : Screen) : Screen := { s with done := true }

def spin (s : Screen) : Screen := if s.done then s else { s with turns := s.turns + 1 }

def frames : List String := ["⣾ ", "⣽ ", "⣻ ", "⢿ ", "⡿ ", "⣟ ", "⣯ ", "⣷ "]

def frame (s : Screen) : Text := frames.getD (s.turns % frames.length) ""

def heading (s : Screen) : Text :=
  let title := s.title ++ Text.when (!s.doing.isEmpty) (" (" ++ s.doing ++ ")")
  if s.done then "done: " ++ title else s.frame ++ " " ++ title

def bar (s : Screen) : Text :=
  let cell : Text := if s.done then "█" else "░"
  (List.replicate (s.barWidth - 5).toNat cell).flatten
    ++ (if s.done then Text.ofString " 100%" else Text.ofString "   0%")

def summary (s : Screen) : Text :=
  let count (p : Row → Bool) : Text := Text.ofNat (s.rows.countP p)
  count (fun r => r.status = .done && r.stage ≠ .decode) ++ " built, "
    ++ count (·.status = .error) ++ " failed, "
    ++ count (·.status = .skipped) ++ " skipped of " ++ Text.ofNat s.rows.length

def view (s : Screen) : Text :=
  if s.rows.isEmpty then []
  else
    let width := max (s.width - 16) 20
    s.heading.block ++ "\n\n" ++ s.rows.flatMap (Row.view width)
      ++ "\n" ++ s.bar ++ "\n" ++ s.summary.block ++ "\n"

end Screen

end Arbor.Pipeline
