import Arbor.Text

/-! File paths as texts with `/` between the parts. -/

namespace Arbor.Path

def slash : UInt8 := 47

def isAbsolute (p : Text) : Bool := p.head? == some slash

def parts (p : Text) : List Text :=
  (p.splitByte slash).filter fun part => part ≠ [] && part ≠ Text.ofString "."

/-- Takes `..` together with the part before it; at the root there is nothing above. `done` are the
parts so far, the last first. -/
def fold (absolute : Bool) (done : List Text) : List Text → List Text
  | [] => done.reverse
  | part :: rest =>
    if part = Text.ofString ".." then
      match done with
      | [] => if absolute then fold absolute [] rest else fold absolute [part] rest
      | last :: above =>
        if last = Text.ofString ".." then fold absolute (part :: done) rest
        else fold absolute above rest
    else fold absolute (part :: done) rest

def clean (p : Text) : Text :=
  let absolute := isAbsolute p
  let names := Text.join "/" (fold absolute [] (parts p))
  if absolute then slash :: names
  else if names.isEmpty then "."
  else names

def join (ps : List Text) : Text :=
  match ps.filter (· ≠ []) with
  | [] => []
  | ps => clean (Text.join "/" ps)

def lastPart (p : Text) : Text := (p.reverse.takeWhile (· != slash)).reverse

def dir (p : Text) : Text := clean (p.take (p.length - (lastPart p).length))

def base (p : Text) : Text :=
  if p.isEmpty then "."
  else
    let stripped := (p.reverse.dropWhile (· == slash)).reverse
    if stripped.isEmpty then "/" else lastPart stripped

def ext (p : Text) : Text :=
  let name := lastPart p
  let tail := name.reverse.takeWhile (· != 46)
  if tail.length = name.length then [] else 46 :: tail.reverse

def absolute (cwd p : Text) : Text := if isAbsolute p then clean p else join [cwd, p]

def afterCommon : List Text → List Text → List Text × List Text
  | a :: as, b :: bs => if a = b then afterCommon as bs else (a :: as, b :: bs)
  | as, bs => (as, bs)

def relative? (source target : Text) : Option Text :=
  let s := clean source
  let t := clean target
  if s = t then some "."
  else if isAbsolute s != isAbsolute t then none
  else
    let names (p : Text) : List Text := (p.splitByte slash).filter (· ≠ [])
    let own := if s = Text.ofString "." then [] else names s
    let (up, down) := afterCommon own (names t)
    if up.head? = some (Text.ofString "..") then none
    else some (Text.join "/" (up.map (fun _ => Text.ofString "..") ++ down))

def isWithin (root p : Text) : Bool :=
  if root.isEmpty || p.isEmpty then false
  else match relative? root p with
    | none => false
    | some r => !(Text.ofString "..").isPrefixOf r

end Arbor.Path
