import Arbor.Text.Utf8
import Arbor.Text.Printable

/-! Texts written between double quotes with backslash escapes, so that every byte can be told
from the written form. -/

namespace Arbor.Text

/-- The written form of one code point. Printable ones stand for themselves; an unreadable byte is
written by its value, a control character by its letter or value, the rest by their number. -/
def quoteRune (r : Rune) : Text :=
  if r.isBad then "\\x" ++ r.bytes.flatMap (hexByte lowerHex)
  else if r.code == 34 || r.code == 92 then 92 :: r.bytes
  else if isPrintable r.code then r.bytes
  else if r.code == 7 then "\\a"
  else if r.code == 8 then "\\b"
  else if r.code == 12 then "\\f"
  else if r.code == 10 then "\\n"
  else if r.code == 13 then "\\r"
  else if r.code == 9 then "\\t"
  else if r.code == 11 then "\\v"
  else if r.code < 32 || r.code == 127 then "\\x" ++ hexFixed lowerHex 2 r.code
  else if r.code < 0x10000 then "\\u" ++ hexFixed lowerHex 4 r.code
  else "\\U" ++ hexFixed lowerHex 8 r.code

def quoted (t : Text) : Text := "\"" ++ t.runes.flatMap quoteRune ++ "\""

end Arbor.Text
