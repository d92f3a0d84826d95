import Scaffold.Text.Basic
import Scaffold.Text.Unseen

/-! A text between double quotes with escapes for everything that would not show. -/

namespace Scaffold.Text

/-- A character inside double quotes. -/
def escapeChar (c : Char) : Text :=
  if c = '"' then "\\\""
  else if c = '\\' then "\\\\"
  else if c = '\n' then "\\n"
  else if c = '\r' then "\\r"
  else if c = '\t' then "\\t"
  else if c = '\x00' then "\\0"
  else if isUnseen c then "\\u\x7b" ++ Nat.toDigits 16 c.toNat ++ ['\x7d']
  else [c]

/-- A text between double quotes, escaped. -/
def escaped (t : Text) : Text :=
  '"' :: t.flatMap escapeChar ++ ['"']

end Scaffold.Text
