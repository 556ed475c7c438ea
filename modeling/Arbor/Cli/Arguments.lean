import Arbor.Cli.Options
import Arbor.Text.Lower

/-! The arguments of the program: which command they name, which flags they set and what remains. -/

namespace Arbor.Cli

open Diag

def dashes : Text := "--"

def isDashed (t : Text) : Bool := t.head? = some 45

def flagNamed (flags : List Flag) (name : Text) : Option Flag :=
  flags.find? fun f => Text.ofString f.name = name

def flagLettered (flags : List Flag) (b : UInt8) : Option Flag :=
  flags.find? fun f => f.letter = some b

/-- Whether the argument after this one is its value: so for every flag that is not known as a
switch and has no value of its own. -/
def takesNext (flags : List Flag) (t : Text) : Bool :=
  let isSwitch (f : Option Flag) : Bool := f.any Flag.isSwitch
  if t.contains 61 then false
  else match t with
    | 45 :: 45 :: name => !isSwitch (flagNamed flags name)
    | [45, b] => !isSwitch (flagLettered flags b)
    | _ => false

def positionals (flags : List Flag) : List Text → List Text
  | [] => []
  | t :: rest =>
    if t = dashes then []
    else if takesNext flags t then
      match rest with
      | _ :: next :: more => positionals flags (next :: more)
      | _ => []
    else if t.isEmpty || isDashed t then positionals flags rest
    else t :: positionals flags rest

def takeOut (flags : List Flag) (x : Text) : List Text → List Text
  | [] => []
  | t :: rest =>
    if t = dashes then t :: rest
    else if takesNext flags t then
      match rest with
      | v :: more => t :: v :: takeOut flags x more
      | [] => [t]
    else if t = x && !isDashed t then rest
    else t :: takeOut flags x rest

/-! ### Commands -/

/-- The next row of edit distances: from `row` for the letters before `b`, with `corner` above left
and `left` the value before. -/
def editRow (b : UInt8) (corner left : Nat) : Text → List Nat → List Nat
  | c :: cs, above :: row =>
    let here := if b == c then corner else 1 + min corner (min left above)
    here :: editRow b above here cs row
  | _, _ => []

def editDistance (s t : Text) : Nat :=
  let first := List.range (t.length + 1)
  let rows := s.foldl (fun row b =>
    (row.headD 0 + 1) :: editRow b (row.headD 0) (row.headD 0 + 1) t row.tail) first
  rows.getLastD 0

def suggestions (typed : Text) : List Text :=
  let word := typed.lowerCase
  let names := (Command.names.map Prod.fst).filter (· != "help")
  (names.map Text.ofString).filter fun name =>
    editDistance word name ≤ 2 || word.isPrefixOf name

def unknownCommand (name : Text) : Fault :=
  let meant := suggestions name
  let lines : Text := meant.flatMap fun s => [9] ++ s ++ [10]
  .plain ("unknown command " ++ name.quoted ++ " for \"elang\""
    ++ Text.when (!meant.isEmpty) ("\n\nDid you mean this?\n" ++ lines))

def findCommand (args : List Text) : Except Fault (Command × List Text) :=
  match positionals Flag.shared args with
  | [] => .ok (.none, args)
  | name :: _ =>
    match Command.ofName? name with
    | some c => .ok (c, takeOut Flag.shared name args)
    | none => .error (unknownCommand name)

/-! ### Flags -/

def quotedLetter (b : UInt8) : Text :=
  let first := (Rune.encode b.toNat).headD b
  let body := if b == 39 then [92, 39] else if b == 34 then [34]
    else Text.quoteRune (Rune.ofCode first.toNat)
  [39] ++ body ++ [39]

def setLetters (flags : List Flag) (o : Options) : Text → Except Fault Options
  | [] => .ok o
  | b :: rest =>
    if (Text.ofString "test.").isPrefixOf (b :: rest) then .ok o
    else match flagLettered flags b with
      | none =>
        .error (.plain ("unknown shorthand flag: " ++ quotedLetter b ++ " in -" ++ (b :: rest)))
      | some f =>
        match rest with
        | 61 :: c :: value => f.apply (c :: value) o
        | _ => do setLetters flags (← f.apply "true" o) rest

def splitLong (t : Text) : Text × Option Text :=
  let name := t.takeWhile (· != 61)
  (name, if name.length < t.length then some (t.drop (name.length + 1)) else none)

def setFlags (flags : List Flag) (o : Options) (others : List Text) :
    List Text → Except Fault (Options × List Text)
  | [] => .ok (o, others)
  | t :: rest =>
    match t with
    | 45 :: 45 :: [] => .ok (o, others ++ rest)
    | 45 :: 45 :: body =>
      if body.head? = some 45 || body.head? = some 61 then
        .error (.plain ("bad flag syntax: " ++ t))
      else
        let (name, value) := splitLong body
        match flagNamed flags name, value with
        | none, _ => .error (.plain ("unknown flag: --" ++ name))
        | some f, some v => do setFlags flags (← f.apply v o) others rest
        | some f, none =>
          if f.isSwitch then do setFlags flags (← f.apply "true" o) others rest
          else match rest with
            | v :: more => do setFlags flags (← f.apply v o) others more
            | [] => .error (.plain ("flag needs an argument: --" ++ name))
    | 45 :: b :: letters => do setFlags flags (← setLetters flags o (b :: letters)) others rest
    | _ => setFlags flags o (others ++ [t]) rest

/-- What the arguments ask for. -/
structure Invocation where
  command : Command := .none
  options : Options := {}
  paths : List Text := []

def Invocation.ofArgs (args : List Text) : Except Fault Invocation := do
  let (command, rest) ← findCommand args
  let (options, paths) ← setFlags command.flags {} [] rest
  pure { command, options, paths }

end Arbor.Cli
