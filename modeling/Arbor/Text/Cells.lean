import Arbor.Text.Clusters

/-! How many cells of a terminal a text takes: two for a wide East Asian character, none for what
cannot be seen, one for all else. A cluster is as wide as the first of its code points that has a
width. -/

namespace Arbor.Text

def wideRanges : CodeRanges := .ofHex
  (String.join
    ["1100-5f 11bb-1 e-1 bf-3 4 3 20a-1 16-1 33-b 2c 14 e 9-1 12-1 6-1 9 6 16 8-1 2 5 3 8 5-1 1d ",
     "24 2 5-2 2 3e-2 19 f 35c-1 34 5 32b-19 2-58 d-d5 1b-4e 3-55 3-66 6-2a 2-5d 2-53 c-2f 2-27 ",
     "9-1b6f 41-568c 4-36 49a-1c 284-2ba3 215d-1ff 311-9 17-22 2-12 2-3 96-5f 80-6 6ffa-4 c-1 ",
     "f-17f7 9-4d5 2b-8 22e8-3 2-6 2-1 2-122 10 1e-2 3 f-3 9-18b 3d09 cb bf 3-9 66-2 e-2b 5-8 ",
     "8-1 f-5 9b-20 d-8 2-45 2-15 d-2a 5-4 d-10 4 4-46 2 2-ba 3-3e e-3 2-17 13 1b-1 e 57-54 ",
     "31-45 7 4-2 3-2 5-3 c-1 8-8 e4-b 5 11c-2e 2-9 2-b8 71-c 4-8 8-2d 2-6 9-d 5-8 8-8 508-fffd ",
     "3-fffd"])

def hiddenRanges : CodeRanges := .ofHex
  "70f 10fc-3 7fd-4 19-6 3c-5 b791-7ff 1f00 fa-2 3-1"

def overlayRanges : CodeRanges := .ofHex
  (String.join
    ["300-6f 114-6 362-8 40d 4 ef d-1 65c-2 4b0 270 31-1e 9d-8 24d-3f 2d1-20 bff-2 ef-1f 29a-1 ",
     "75d5-3 2-9 21-1 51-1 1ef-11 552f-f 3ce 179-4 b31-1 9a-a 32-3 37b-1 3a-1 2a-6 4-4 577c-4 ",
     "640c-2d 3-16 21f-4 4-5 9-7 3-6 1f-3 95-2 dbc-6 2-10 3-6 2-1 2-4 65 841-6"])

def runeCells (n : Nat) : Nat :=
  if n < 0x20 || (0x7F ≤ n && n ≤ 0x9F) || n == 0xAD then 0
  else if n < 0x300 then 1
  else if hiddenRanges.contains n || overlayRanges.contains n then 0
  else if wideRanges.contains n then 2
  else 1

def clusterCells (c : Text) : Nat :=
  ((c.runes.map fun r => runeCells r.code).find? fun w => 0 < w).getD 0

def cells (t : Text) : Nat := (t.clusters.map clusterCells).foldl (· + ·) 0

def takeCells (room : Int) (used : Nat) : List Text → Text
  | [] => []
  | c :: rest =>
    if room < (used + clusterCells c : Nat) then []
    else c ++ takeCells room (used + clusterCells c) rest

def fit (width : Nat) (tail t : Text) : Text :=
  if cells t ≤ width then t
  else takeCells ((width : Int) - cells tail) 0 t.clusters ++ tail

end Arbor.Text
