import TxLoad.Text.Hidden
import TxLoad.Text.Numeral

namespace TxLoad.Text

/-!
# Quoted text for diagnostics

`quoted` shows a text between double quotes such that every character can be seen: quotes and
backslashes are escaped, the usual control characters have short escapes, and every other
character without a visible form of its own is written by its code point.
-/

/-- The digits of a number in base sixteen, without leading zeros. -/
def hexDigits (n : Nat) : List Char :=
  if n < 16 then [digitChar n] else hexDigits (n / 16) ++ [digitChar (n % 16)]

/-- One character of a quoted text. -/
def quotedChar (c : Char) : List Char :=
  if c = '"' then ['\\', '"']
  else if c = '\\' then ['\\', '\\']
  else if c = '\n' then ['\\', 'n']
  else if c = '\r' then ['\\', 'r']
  else if c = '\t' then ['\\', 't']
  else if c.toNat = 0 then ['\\', '0']
  else if isHidden c then ['\\', 'u', '\x7b'] ++ hexDigits c.toNat ++ ['\x7d']
  else [c]

/-- A text between double quotes. -/
def quoted (s : String) : String :=
  String.ofList ('"' :: s.toList.flatMap quotedChar ++ ['"'])

end TxLoad.Text
