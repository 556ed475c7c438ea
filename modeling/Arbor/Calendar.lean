import Arbor.Text

/-! Moments as dates of the Gregorian calendar, in universal time. -/

namespace Arbor

structure Date where
  year : Int
  month : Nat
  day : Nat
deriving DecidableEq

namespace Date

/-- The date of a day counted from the first of 1970. Years are counted from March, so that the
leap day is the last of its year; 400 of them have 146097 days. -/
def ofDay (day : Int) : Date :=
  let shifted := day + 719468
  let era := Int.fdiv shifted 146097
  let ofEra := (shifted - era * 146097).toNat
  let yearOfEra := (ofEra - ofEra / 1460 + ofEra / 36524 - ofEra / 146096) / 365
  let ofYear := ofEra - (365 * yearOfEra + yearOfEra / 4 - yearOfEra / 100)
  let shiftedMonth := (5 * ofYear + 2) / 153
  let month := if shiftedMonth < 10 then shiftedMonth + 3 else shiftedMonth - 9
  { year := era * 400 + yearOfEra + (if month ≤ 2 then 1 else 0)
    month
    day := ofYear - (153 * shiftedMonth + 2) / 5 + 1 }

end Date

namespace Calendar

def digits (width n : Nat) : Text :=
  let t := Text.ofNat n
  List.replicate (width - t.length) 48 ++ t

def fraction (nanos : Nat) : Text :=
  if nanos = 0 then []
  else 46 :: ((digits 9 nanos).reverse.dropWhile (· == 48)).reverse

def timestamp (nanos : Int) : Text :=
  let seconds := Int.fdiv nanos 1000000000
  let day := Int.fdiv seconds 86400
  let ofDay := (seconds - day * 86400).toNat
  let date := Date.ofDay day
  digits 4 date.year.toNat ++ "-" ++ digits 2 date.month ++ "-" ++ digits 2 date.day ++ "T"
    ++ digits 2 (ofDay / 3600) ++ ":" ++ digits 2 (ofDay / 60 % 60) ++ ":" ++ digits 2 (ofDay % 60)
    ++ fraction (nanos - seconds * 1000000000).toNat ++ "Z"

end Calendar

end Arbor
