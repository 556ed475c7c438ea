import Arbor.Cli.Values
import Arbor.Diag.Fault

/-! What can be asked for on the command line: the commands and their flags. -/

namespace Arbor.Cli

open Diag

/-- What the flags say. A flag that changes what the manifest says is absent unless it was given. -/
structure Options where
  color : Text := "auto"
  ui : Text := "auto"
  timings : Bool := false
  maxDiagnostics : Int := 100
  jobs : Int := 0
  diagFormat : Text := "pretty"
  trace : Option Text := none
  traceLevel : Option Text := none
  traceMode : Text := "stream"
  traceFormat : Text := "auto"
  ringSize : Int := 4096
  heartbeat : Int := 0
  cpuProfile : Text := []
  memProfile : Text := []
  runtimeTrace : Text := []
  entry : Text := []
  dump : Bool := false
  outDir : Text := []
  format : Option Text := none
  build : Bool := false
  toolchain : Bool := false
  full : Bool := false
  help : Bool := false
  version : Bool := false

/-- A flag: its name, perhaps one letter for it, and what its value changes. A switch need not have
a value. -/
structure Flag where
  name : String
  letter : Option UInt8 := none
  isSwitch : Bool := false
  set : Text → Options → Except Text Options

namespace Flag

def text (name : String) (set : Text → Options → Options) : Flag :=
  { name, set := fun v o => .ok (set v o) }

def number (name : String) (set : Int → Options → Options) : Flag :=
  { name
    set := fun v o => match wholeNumber v with
      | .ok n => .ok (set n o)
      | .error e => .error (e.message "strconv.ParseInt" v) }

def switch (name : String) (set : Bool → Options → Options) : Flag :=
  { name
    isSwitch := true
    set := fun v o => match switch? v with
      | some b => .ok (set b o)
      | none => .error (NumberError.malformed.message "strconv.ParseBool" v) }

def span (name : String) (set : Int → Options → Options) : Flag :=
  { name
    set := fun v o => match duration v with
      | .ok n => .ok (set n o)
      | .error e => .error (e.message v) }

def label (f : Flag) : Text :=
  match f.letter with
  | some b => [45, b] ++ ", --" ++ f.name
  | none => "--" ++ f.name

def apply (f : Flag) (v : Text) (o : Options) : Except Fault Options :=
  (f.set v o).mapError fun e =>
    .plain ("invalid argument " ++ v.quoted ++ " for " ++ f.label.quoted ++ " flag: " ++ e)

def shared : List Flag :=
  [text "color" fun v o => { o with color := v },
   text "ui" fun v o => { o with ui := v },
   switch "timings" fun v o => { o with timings := v },
   number "max-diagnostics" fun v o => { o with maxDiagnostics := v },
   number "jobs" fun v o => { o with jobs := v },
   text "diag-format" fun v o => { o with diagFormat := v },
   text "trace" fun v o => { o with trace := some v },
   text "trace-level" fun v o => { o with traceLevel := some v },
   text "trace-mode" fun v o => { o with traceMode := v },
   text "trace-format" fun v o => { o with traceFormat := v },
   number "trace-ring-size" fun v o => { o with ringSize := v },
   span "trace-heartbeat" fun v o => { o with heartbeat := v },
   text "cpu-profile" fun v o => { o with cpuProfile := v },
   text "mem-profile" fun v o => { o with memProfile := v },
   text "runtime-trace" fun v o => { o with runtimeTrace := v }]

def entry : Flag := text "entry" fun v o => { o with entry := v }

def dump : Flag := switch "dump" fun v o => { o with dump := v }

def format : Flag := text "format" fun v o => { o with format := some v }

def outDir : Flag := text "out-dir" fun v o => { o with outDir := v }

def build : Flag := switch "build" fun v o => { o with build := v }

def toolchain : Flag := switch "toolchain" fun v o => { o with toolchain := v }

def full : Flag := switch "full" fun v o => { o with full := v }

def help : Flag :=
  { switch "help" fun v o => { o with help := v } with letter := some 104 }

def version : Flag :=
  { switch "version" fun v o => { o with version := v } with letter := some 118 }

end Flag

inductive Command where
  | none
  | dump
  | run
  | build
  | version
  /-- The commands about the command line itself. -/
  | guide
deriving DecidableEq

namespace Command

def names : List (String × Command) :=
  [("dump", .dump), ("run", .run), ("build", .build), ("version", .version), ("help", .guide),
   ("completion", .guide)]

def ofName? (t : Text) : Option Command :=
  (names.find? fun (name, _) => Text.ofString name = t).map Prod.snd

def own : Command → List Flag
  | .none => [.help, .version]
  | .dump => [.help, .format, .entry]
  | .run => [.help, .entry, .dump]
  | .build => [.help, .outDir, .entry, .dump]
  | .version => [.help, .build, .toolchain, .full, .format]
  | .guide => [.help]

def flags (c : Command) : List Flag := c.own ++ Flag.shared

end Command

end Arbor.Cli
