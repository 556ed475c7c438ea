import Arbor.Toml.Scalar
import Arbor.Toml.Value

/-! Reading TOML documents. -/

namespace Arbor.Toml

abbrev Read := StateT Draft Option

namespace Read

def fail {α : Type} : Read α := fun _ => none

def rest : Read Text := do pure (← get).rest

def goOn (t : Text) : Read Unit := modify fun d => { d with rest := t }

def peek : Read (Option UInt8) := do pure (← rest).head?

def take (p : UInt8 → Bool) : Read Text := do
  let t ← rest
  goOn (t.dropWhile p)
  pure (t.takeWhile p)

def skip (p : UInt8 → Bool) : Read Unit := do
  let _ ← take p

def accept (start : Text) : Read Bool := do
  match Text.dropStart? start (← rest) with
  | some t =>
    goOn t
    pure true
  | none => pure false

def expect (start : Text) : Read Unit := do
  if !(← accept start) then fail

def comment : Read Unit := skip fun b => !isBreak b

def filler : Nat → Read Unit
  | 0 => skip isSpace
  | lines + 1 => do
    skip isSpace
    if (← peek) = some 35 then
      comment
      filler lines

/-! ### Strings -/

def lineContent (quote : UInt8) (escapes : Bool) (done : Text) : Text → Option (Text × Text)
  | [] => none
  | b :: t =>
    if isBreak b then none
    else if b == quote then some (done.reverse, t)
    else if b == 92 && escapes then
      match t with
      | [] => none
      | c :: u => if isBreak c then none else lineContent quote escapes (c :: b :: done) u
    else lineContent quote escapes (b :: done) t

/-- The raw content of a string of several lines, and what follows. Three quotes close it; one or
two more may come before them, but not three. `done` is the content so far, the last byte first. -/
def blockContent (quote : UInt8) (escapes : Bool) (done : Text) : Text → Option (Text × Text)
  | [] => none
  | b :: t =>
    if b == 92 && escapes then
      match t with
      | [] => none
      | c :: u => blockContent quote escapes (c :: b :: done) u
    else if b == quote && t.take 2 == [quote, quote] then
      if (t.drop 2).head? = some quote then
        let passed := [quote, quote, quote] ++ done
        if List.replicate 5 quote == passed.take 5
            && !(escapes && passed[5]? == some 92) then none
        else blockContent quote escapes (b :: done) t
      else some (done.reverse, t.drop 2)
    else blockContent quote escapes (b :: done) t

def lineString (quote : UInt8) : Read Text := do
  match lineContent quote (quote == 34) [] (← rest) with
  | none => fail
  | some (raw, t) =>
    goOn t
    if quote == 34 then StateT.lift (unescape? raw) else pure raw

def blockString (quote : UInt8) : Read Text := do
  match blockContent quote (quote == 34) [] (← rest) with
  | none => fail
  | some (raw, t) =>
    goOn t
    let raw := dropFirstBreak raw
    if quote == 34 then StateT.lift (unescape? (joinLines false raw)) else pure raw

/-! ### Keys -/

def isKeyByte (b : UInt8) : Bool := Text.isLetter b || Text.isDigit b || b == 95 || b == 45

def keyPart : Read Text := do
  skip isBlank
  match ← peek with
  | some 34 =>
    expect [34]
    lineString 34
  | some 39 =>
    expect [39]
    lineString 39
  | _ =>
    let name ← take isKeyByte
    if name.isEmpty then fail else pure name

def keyPath (stop : UInt8) : Nat → Read (List Text)
  | 0 => fail
  | parts + 1 => do
    let part ← keyPart
    skip isBlank
    if ← accept [46] then pure (part :: (← keyPath stop parts))
    else
      expect [stop]
      pure [part]

/-! ### Values -/

def isDigitLike (b : UInt8) : Bool := Text.isDigit b || b == 95

def isFloatByte (b : UInt8) : Bool := isDigitLike b || b == 46 || isSign b || b == 101 || b == 69

def isMomentByte (b : UInt8) : Bool :=
  Text.isDigit b || isSign b || [58, 84, 116, 32, 46, 90, 122].contains b

def asInteger (t : Text) : Read Value := do
  pure (.int (← StateT.lift (integer? t)))

def asFloat (t : Text) : Read Value := if isFloat t then pure (.float t) else fail

def asMoment (t : Text) : Read Value :=
  let t := (t.reverse.dropWhile isBlank).reverse
  if isMoment t then pure (.moment t) else fail

def number (digits : Text) : Read Value := do
  let digits := digits ++ (← take isDigitLike)
  match ← peek with
  | some b =>
    if b == 46 || b == 101 || b == 69 then asFloat (digits ++ (← take isFloatByte))
    else asInteger digits
  | none => asInteger digits

def based (mark : Text) (p : UInt8 → Bool) : Read Value := do
  expect mark
  match ← peek with
  | some b => if p b then asInteger (mark ++ (← take fun b => p b || b == 95)) else fail
  | none => fail

def numberOrMoment : Read Value := do
  match ← rest with
  | 48 :: 120 :: _ => based "0x" isHex
  | 48 :: 111 :: _ => based "0o" fun b => 48 ≤ b && b ≤ 55
  | 48 :: 98 :: _ => based "0b" fun b => b == 48 || b == 49
  | t =>
    let digits ← take Text.isDigit
    match ← peek with
    | some b =>
      if (b == 45 || b == 58) && (t.head? ≠ some 48 || 1 < digits.length) then
        asMoment (digits ++ (← take isMomentByte))
      else number digits
    | none => number digits

def signed : Read Value := do
  let sign ← take isSign
  if sign.length ≠ 1 then fail
  match ← rest with
  | 105 :: _ =>
    expect "inf"
    pure (.float (sign ++ "inf"))
  | 110 :: _ =>
    expect "nan"
    pure (.float (sign ++ "nan"))
  | b :: _ => if Text.isDigit b then number sign else fail
  | [] => fail

def word : Read Value := do
  let w ← take fun b => Text.isLetter b || 128 ≤ b
  if w = Text.ofString "true" then pure (.bool true)
  else if w = Text.ofString "false" then pure (.bool false)
  else if isSpecial w then pure (.float w)
  else fail

def scalar : Read Value := do
  match ← rest with
  | 34 :: 34 :: 34 :: t =>
    goOn t
    pure (.text (← blockString 34))
  | 34 :: t =>
    goOn t
    pure (.text (← lineString 34))
  | 39 :: 39 :: 39 :: t =>
    goOn t
    pure (.text (← blockString 39))
  | 39 :: t =>
    goOn t
    pure (.text (← lineString 39))
  | b :: _ => if Text.isDigit b then numberOrMoment else if isSign b then signed else word
  | [] => fail

mutual

def value (fuel : Nat) (inList : Bool) : Read Value :=
  match fuel with
  | 0 => fail
  | fuel + 1 => do
    skip isBlank
    if ← accept [91] then
      modify fun d => d.mark d.key true
      pure (.list (← items fuel))
    else if ← accept [123] then
      let outer ← get
      let place := outer.context ++ [outer.key]
      set (← StateT.lift ((outer.imply place).enter place inList))
      let entries ← fields fuel true place []
      modify fun d => { d with context := outer.context, key := outer.key }
      pure (.table entries)
    else scalar

def items (fuel : Nat) : Read (List Value) :=
  match fuel with
  | 0 => fail
  | fuel + 1 => do
    filler (← rest).length
    if ← accept [93] then pure []
    else
      let v ← value fuel true
      filler (← rest).length
      if ← accept [44] then pure (v :: (← items fuel))
      else
        expect [93]
        pure [v]

def fields (fuel : Nat) (first : Bool) (place : List Text) (done : Table) : Read Table :=
  match fuel with
  | 0 => fail
  | fuel + 1 => do
    skip isBlank
    if first && (← accept [125]) then pure done
    else
      let path ← keyPath 61 (← rest).length
      let key := path.getLastD []
      modify fun d => { d with key }
      set (← StateT.lift ((← get).descend path.dropLast))
      let v ← value fuel false
      set (← StateT.lift ((← get).define key v))
      modify fun d => { d.mark key (v matches .list _) with context := place }
      let done := Table.put key v done
      skip isBlank
      if ← accept [44] then fields fuel false place done
      else
        expect [125]
        pure done

end

/-! ### Documents -/

def lineEnd : Read Unit := do
  skip isBlank
  if (← peek) = some 35 then comment
  match ← peek with
  | none => pure ()
  | some b => if isBreak b then skip isBreak else fail

def entry : Read Unit := do
  let length := (← rest).length
  if ← accept "[[" then
    let path ← keyPath 93 length
    expect [93]
    set (← StateT.lift ((← get).enter path true))
    modify fun d => d.mark [] false
  else if ← accept [91] then
    let path ← keyPath 93 length
    set (← StateT.lift ((← get).enter path false))
    modify fun d => d.mark [] false
  else
    let outer := (← get).context
    let path ← keyPath 61 length
    let key := path.getLastD []
    modify fun d => { d with key }
    set (← StateT.lift ((← get).descend path.dropLast))
    let v ← value (length + 1) false
    set (← StateT.lift ((← get).define key v))
    modify fun d => { d.mark key (v matches .list _) with context := outer, key := [] }
  lineEnd

def document : Nat → Read Unit
  | 0 => fail
  | fuel + 1 => do
    filler (← rest).length
    if (← rest).isEmpty then pure ()
    else
      entry
      document fuel

end Read

def isControl (b : UInt8) : Bool := (b < 32 && b != 9 && b != 10 && b != 13) || b == 127

def returnsHold : Text → Bool
  | [] => true
  | 13 :: 10 :: t => returnsHold t
  | 13 :: _ => false
  | _ :: t => returnsHold t

def dropMark : Text → Text
  | 0xFF :: 0xFE :: t => t
  | 0xFE :: 0xFF :: t => t
  | 0xEF :: 0xBB :: 0xBF :: t => t
  | t => t

def isReadable (t : Text) : Bool := t.runes.all fun r => r.code != 0xFFFD

def parse (t : Text) : Option Table :=
  let t := dropMark t
  if !isReadable t || t.any isControl || !returnsHold t then none
  else (Read.document (t.length + 1) { rest := t }).map fun (_, d) => d.root

end Arbor.Toml
