import Arbor.Text.CodeRanges
import Arbor.Text.Utf8

/-! What a reader sees as one character: a run of code points that belong together, by the rules for
extended grapheme clusters of Unicode 15.0. Bytes that are no UTF-8 are kept together as far as they
have the shape of a code point. -/

namespace Arbor.Text

def controlRanges : CodeRanges := .ofHex
  (String.join
    ["0-9 2-1 2-11 60-20 e 56f 11f2 7fd 3-1 19-6 32-f de90 f1-b 3435-f 8861-3 14d0-7 c2e86-1f ",
     "61-7f f1-e0f"])

def extendRanges : CodeRanges := .ofHex
  (String.join
    ["300-6f 114-6 108-2c 2 2-1 2-1 2 49-a 31-14 11 66-6 3-5 3-1 2-3 24 1f-1a 5c-a 3b-8 a 19-3 ",
     "2-8 2-2 2-4 2c-2 3d-7 2b-17 2-1f 38 2 5-7 5 4-6 b-1 1e 3b 2 3-3 9 a b-1 1b 3-1 3a 5-1 5-1 ",
     "3-2 4 1f-1 4 c-1 3a 5-4 2-1 5 15-1 17-5 2 3b 2-1 2-3 9 8-2 b-1 1f 3c 2 d a 29 4 38 2-2 6-2 ",
     "2-3 8-1 c-1 1e 3b 3 3 4 6-1 8-1 c-1 1d-1 3a-1 2 3-3 9 a b-1 1e 49 5 3-2 2 9 52 3-6 d-7 63 ",
     "3-8 c-6 4a-1 1c 2 2 38-d 2-4 2-1 6-a 2-23 a 67-3 2-5 2-1 3-1 1a-1 5-2 11-3 e 3-1 7 10 ",
     "2c0-2 3b3-2 1e-1 1f-1 1f-1 41-1 2-6 9 3-a a 2e-2 2 76-1 23 77-2 5-1 a 7-2 dc-1 3 3b 2-6 2 ",
     "2 3-7 7-9 3 31-1e 32-3 31-6 2 6 29-8 d-1 21-3 3-1 2-2 39 2-1 4 2-2 3b-7 3-1 99-2 2-c 2-6 5 ",
     "7 4-1 c7-3f 20d c4-20 bff-2 8e 61-1f 22b-5 6a-1 75d5-3 2-9 21-1 51-1 111 4 5 1a-1 6 98-1 ",
     "1b-11 e 27-7 1a-a 2f-2 31 3-3 3-1 28 44-5 3-1 3-1 d 9 30 34 2-2 3-1 6-1 2 2b-1 9 ef 3 5 ",
     "4f31 2e2-f 11-f 16f-1 25e e3 96-4 687-2 2-1 6-3 29-2 5 a6-1 23e-3 184-1 51-2 47-a 32-3 7c ",
     "37-e 2a 3-1 b-2 32-3 3-1 8 3e-2 25-4 2-7 3f d-1 35-8 b-3 3 60-2 3 2-1 7 3 9e 4-7 16-1 3a-1 ",
     "2 2 17 f-6 4-4 c4-7 3-2 2 18 52 3-5 2 3 2-1 2-1 ec 3-3 7-1 2-1 1c-1 56-7 3 2-1 6b 2 3-5 2 ",
     "66-2 3-3 2-4 104-8 2-1 f6 b-1 2 5 91-3 3-1 5 21-9 29-5 3-3 9 a-5 3-2 2f-c 2-1 197-6 2-5 2 ",
     "53-15 3-6 2-1 2-1 7b-5 4 2-1 2-6 2 49-1 4 2 15c-1 c-1 35-4 6 2 14fe 7-e 369b-4 3c-6 419 ",
     "40-3 52 4cb9-1 1262-2d 3-16 21f 2-2 5-4 9-7 3-6 1f-3 95-2 7bc-36 5-31 9 f 17-4 2-e 551-6 ",
     "2-10 3-6 2-1 2-4 65 a1-6 178 3e-3 1fd-3 3e1-6 6e-6 ab1-4 c0c21-5f 81-ef"])

def spacingRanges : CodeRanges := .ofHex
  (String.join
    ["903 38 3-2 9-3 2-1 33-1 3c-1 7-1 3-1 37 3b-2 43 3b-2 9 2-1 36-1 3d 7-1 3-1 73 2-1 4-2 2-2 ",
     "35-2 3e-3 3e-1 3b 2-1 2-1 3-1 2-1 28 f-1 3c-1 6-2 2-2 36-1 4d-1 7-6 14-1 40 80 8b-1 40 b2 ",
     "a-1 1a-1 2d 691 1f 82 8-7 2-1 15b-3 3-2 5-1 2-5 e1-1 3b 2 16-5 92 37 2-4 2-1 3e 1f 5-1 3 ",
     "3d 3-2 2 4-1 31-7 9-1 ac 16 8b2c-1 3 59-1 33-f 8f-1 30 31-1 5-1 3-2 6f-1 3-1 19 9e 3-1 6 ",
     "ee-1 2-1 2-1 2 6414 2 80 2e-2 5-1 74 19-1 3c 31-2 a-1 e 5e-2 4-1 2 ab-2 20-1 3c 2-3 3-1 ",
     "3-2 15-1 d2-2 9-1 4 6c-1 7 2-1 2 3 ef-1 7-3 3 72-2 9-1 2 6e 2-1 7 70 106-2 a f9-4 2-1 5 3 ",
     "2 8f-2 9-3 5 55 1e-1 3f 198 f 6b 8 3 d6-4 5-1 2 15f-1 d 31-1 9-1 2 5010-36 69-1 6175 7"])

def prependRanges : CodeRanges := .ofHex
  "600-5 d8 32 181-1 51 46c 1036f 10 f5-1 77c 2 f9 4a-5 2bd 1bc"

def pictographRanges : CodeRanges := .ofHex
  (String.join
    ["a9 5 1f8e d d9 17 5b-5 10-1 170-1 d 60 47 1a-a 5-2 c8 e8-1 b a 3b-3 2-5 2-b 2-71 b-75 3-a ",
     "2 2 7 4 7 b-1 10 3 5 2 5-2 2 c-4 2e-2 a f f 175-1 1d0-2 14-1 34 5 4db d 25a 2 1bd67-ff e-2 ",
     "20 3d-5 d-1 f 3-9 13-38 1c-e b 15 3-8 2-3 a-1b1 6-13d 9-109 31-7f 75-b 56-2a d-3 39-7 b-5 ",
     "29-7 1f-51 d-2e 2-9 2-1b8 101-3fd"])

inductive ClusterClass where
  | cr | lf | control | extend | joiner | flag | prepend | spacing
  | leadJamo | vowelJamo | tailJamo | openSyllable | closedSyllable | pictograph | other
  /-- What the end of the text cuts off. It belongs to whatever is before it. -/
  | cutOff
deriving DecidableEq

namespace ClusterClass

def ofCode (n : Nat) : ClusterClass :=
  if n == 13 then .cr
  else if n == 10 then .lf
  else if 32 ≤ n && n < 127 then .other
  else if n == 0x200D then .joiner
  else if 0x1F1E6 ≤ n && n ≤ 0x1F1FF then .flag
  else if 0xAC00 ≤ n && n ≤ 0xD7A3 then
    if (n - 0xAC00) % 28 == 0 then .openSyllable else .closedSyllable
  else if (0x1100 ≤ n && n ≤ 0x115F) || (0xA960 ≤ n && n ≤ 0xA97C) then .leadJamo
  else if (0x1160 ≤ n && n ≤ 0x11A7) || (0xD7B0 ≤ n && n ≤ 0xD7C6) then .vowelJamo
  else if (0x11A8 ≤ n && n ≤ 0x11FF) || (0xD7CB ≤ n && n ≤ 0xD7FB) then .tailJamo
  else if controlRanges.contains n then .control
  else if extendRanges.contains n then .extend
  else if spacingRanges.contains n then .spacing
  else if prependRanges.contains n then .prepend
  else if pictographRanges.contains n then .pictograph
  else .other

def isBreaking : ClusterClass → Bool
  | .cr | .lf | .control => true
  | _ => false

def joinsSyllable : ClusterClass → ClusterClass → Bool
  | .leadJamo, .leadJamo | .leadJamo, .vowelJamo | .leadJamo, .openSyllable
  | .leadJamo, .closedSyllable => true
  | .openSyllable, .vowelJamo | .openSyllable, .tailJamo | .vowelJamo, .vowelJamo
  | .vowelJamo, .tailJamo => true
  | .closedSyllable, .tailJamo | .tailJamo, .tailJamo => true
  | _, _ => false

end ClusterClass

/-- What is known at a place inside a cluster. -/
structure ClusterState where
  last : ClusterClass
  /-- Before the place stands a picture, with nothing but marks after it. -/
  picture : Bool
  /-- Before the place stands such a picture with one joiner. -/
  joined : Bool
  openFlag : Bool

namespace ClusterState

def start (c : ClusterClass) : ClusterState :=
  ⟨c, c == .pictograph, false, c == .flag⟩

def continues (s : ClusterState) (c : ClusterClass) : Bool :=
  if c == .cutOff then true
  else if s.last == .cr then c == .lf
  else if s.last.isBreaking || c.isBreaking then false
  else s.last.joinsSyllable c || c == .extend || c == .joiner || c == .spacing
    || s.last == .prepend || (s.joined && c == .pictograph) || (s.openFlag && c == .flag)

def step (s : ClusterState) (c : ClusterClass) : ClusterState :=
  { last := c
    picture := c == .pictograph || (s.picture && c == .extend)
    joined := s.picture && c == .joiner
    openFlag := c == .flag && !s.openFlag }

end ClusterState

def clusterRest {α : Type} (classOf : α → ClusterClass) (s : ClusterState) :
    List α → List α × List α
  | [] => ([], [])
  | x :: xs =>
    if s.continues (classOf x) then
      let (mine, rest) := clusterRest classOf (s.step (classOf x)) xs
      (x :: mine, rest)
    else ([], x :: xs)

def clustersFrom {α : Type} (classOf : α → ClusterClass) (s : ClusterState) (begun : List α) :
    List α → List (List α)
  | [] => [begun.reverse]
  | x :: xs =>
    let c := classOf x
    if s.continues c then clustersFrom classOf (s.step c) (x :: begun) xs
    else begun.reverse :: clustersFrom classOf (.start c) [x] xs

/-! ## The clusters of a text -/

/-- Bytes that are looked at as one: a code point, or what has the shape of one. -/
structure Piece where
  kind : ClusterClass
  bytes : Text
deriving DecidableEq

namespace Piece

def lengthFor (b : UInt8) : Nat :=
  if b < 0xC2 then 1
  else if b < 0xE0 then 2
  else if b < 0xF0 then 3
  else if b < 0xF8 then 4
  else 1

def first (a : UInt8) (rest : Text) : Piece :=
  let more := rest.take (lengthFor a - 1)
  if more.length + 1 < lengthFor a then ⟨.cutOff, a :: rest⟩
  else ⟨.ofCode (firstRune a rest).code, a :: more.takeWhile fun b => 0x80 ≤ b && b < 0xC0⟩

end Piece

def piecesAfter : Nat → Text → List Piece
  | _, [] => []
  | skip + 1, _ :: rest => piecesAfter skip rest
  | 0, a :: rest =>
    let p := Piece.first a rest
    p :: piecesAfter (p.bytes.length - 1) rest

def clusters (t : Text) : List Text :=
  match piecesAfter 0 t with
  | [] => []
  | p :: rest =>
    (clustersFrom Piece.kind (.start p.kind) [p] rest).map (·.flatMap Piece.bytes)

end Arbor.Text
