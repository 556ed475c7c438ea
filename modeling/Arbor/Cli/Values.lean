import Arbor.Text.Quoted

/-! Values on the command line: whole numbers, switches and spans of time, with what is said about
those that cannot be read. -/

namespace Arbor.Cli

/-- Why a number cannot be read. -/
inductive NumberError where
  | malformed
  | outOfRange
deriving DecidableEq

namespace NumberError

def message (reader : String) (t : Text) (e : NumberError) : Text :=
  let cause : Text := match e with
    | .malformed => "invalid syntax"
    | .outOfRange => "value out of range"
  reader ++ ": parsing " ++ t.quoted ++ ": " ++ cause

end NumberError

def digitValue? (b : UInt8) : Option Nat :=
  if Text.isDigit b then some (b.toNat - 48)
  else if Text.isLetter b then some ((Text.lowerByte b).toNat - 87)
  else none

def readDigits (base n : Nat) : Text → Except NumberError Nat
  | [] => .ok n
  | b :: t =>
    if b == 95 then readDigits base n t
    else match digitValue? b with
      | none => .error .malformed
      | some d =>
        if base ≤ d then .error .malformed
        else if 0x10000000000000000 ≤ n * base + d then .error .outOfRange
        else readDigits base (n * base + d) t

/-- Whether separators stand only after a digit and before one. `after` says that a digit was just
passed, `between` that a separator was. -/
def separatorsHold (hex after between : Bool) : Text → Bool
  | [] => !between
  | b :: t =>
    if Text.isDigit b || (hex && 97 ≤ Text.lowerByte b && Text.lowerByte b ≤ 102) then
      separatorsHold hex true false t
    else if b == 95 then after && separatorsHold hex false true t
    else !between && separatorsHold hex false false t

def splitBase (t : Text) : Nat × Bool × Text :=
  match t with
  | 48 :: m :: d :: rest =>
    let mark := Text.lowerByte m
    if mark == 120 then (16, true, d :: rest)
    else if mark == 111 then (8, true, d :: rest)
    else if mark == 98 then (2, true, d :: rest)
    else (8, false, m :: d :: rest)
  | 48 :: rest => (8, false, rest)
  | t => (10, false, t)

def unsigned (t : Text) : Except NumberError Nat := do
  if t.isEmpty then throw .malformed
  let (base, marked, digits) := splitBase t
  let n ← readDigits base 0 digits
  let plain := if marked then digits else t
  if t.contains 95 && !separatorsHold (base = 16) marked false plain then throw .malformed
  pure n

def wholeNumber (t : Text) : Except NumberError Int := do
  let negative := t.head? = some 45
  let n ← unsigned (if negative || t.head? = some 43 then t.drop 1 else t)
  if negative then
    if 0x8000000000000000 < n then throw .outOfRange
    pure (-n)
  else
    if 0x8000000000000000 ≤ n then throw .outOfRange
    pure n

def switch? (t : Text) : Option Bool :=
  if ["1", "t", "T", "TRUE", "true", "True"].any (Text.ofString · = t) then some true
  else if ["0", "f", "F", "FALSE", "false", "False"].any (Text.ofString · = t) then some false
  else none

/-! ### Spans of time -/

def plainQuoted (t : Text) : Text :=
  "\"" ++ (t.flatMap fun b =>
    if b < 32 || 128 ≤ b then Text.ofString "\\x" ++ Text.hexByte Text.lowerHex b
    else if b == 34 || b == 92 then [92, b]
    else [b]) ++ "\""

def units : List (String × Nat) :=
  [("ns", 1), ("us", 1000), ("µs", 1000), ("μs", 1000), ("ms", 1000000), ("s", 1000000000),
   ("m", 60000000000), ("h", 3600000000000)]

def unit? (t : Text) : Option Nat :=
  (units.find? fun (name, _) => Text.ofString name = t).map Prod.snd

/-- Why a span of time cannot be read. -/
inductive DurationError where
  | invalid
  | noUnit
  | unknownUnit (unit : Text)

namespace DurationError

def message (t : Text) : DurationError → Text
  | .invalid => "time: invalid duration " ++ plainQuoted t
  | .noUnit => "time: missing unit in duration " ++ plainQuoted t
  | .unknownUnit u => "time: unknown unit " ++ plainQuoted u ++ " in duration " ++ plainQuoted t

end DurationError

def isNumberByte (b : UInt8) : Bool := Text.isDigit b || b == 46

def spanOf (whole fraction unitName : Text) : Except DurationError Nat := do
  if whole.isEmpty && fraction.isEmpty then throw .invalid
  let n := (Text.toNat? whole).getD 0
  if 0x8000000000000000 < n then throw .invalid
  if unitName.isEmpty then throw .noUnit
  match unit? unitName with
  | none => throw (.unknownUnit unitName)
  | some unit =>
    let part := (Text.toNat? fraction).getD 0 * unit / Nat.pow 10 fraction.length
    if 0x8000000000000000 < n * unit + part then throw .invalid
    pure (n * unit + part)

def spans (sum : Nat) : Nat → Text → Except DurationError Nat
  | 0, _ => .error .invalid
  | fuel + 1, t =>
    if t.isEmpty then .ok sum
    else if !isNumberByte (t.headD 0) then .error .invalid
    else do
      let whole := t.takeWhile Text.isDigit
      let rest := t.dropWhile Text.isDigit
      let (fraction, rest) := if rest.head? = some 46 then
          ((rest.drop 1).takeWhile Text.isDigit, (rest.drop 1).dropWhile Text.isDigit)
        else ([], rest)
      let n ← spanOf whole fraction (rest.takeWhile fun b => !isNumberByte b)
      if 0x8000000000000000 < sum + n then throw .invalid
      spans (sum + n) fuel (rest.dropWhile fun b => !isNumberByte b)

def duration (t : Text) : Except DurationError Int := do
  let negative := t.head? = some 45
  let body := if negative || t.head? = some 43 then t.drop 1 else t
  if body = Text.ofString "0" then pure 0
  else if body.isEmpty then throw .invalid
  else
    let n ← spans 0 (body.length + 1) body
    if negative then pure (-n)
    else if 0x8000000000000000 ≤ n then throw .invalid
    else pure n

end Arbor.Cli
