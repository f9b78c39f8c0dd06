import Accessors.Text.Quoted.Table
/-!
# Quotations

A text inside double quotes, such that every character of it can be told: what has no visible form, and what would merge
with the character before it, is written by its code point in hexadecimal.
-/
namespace Accessors
namespace Quoted

/-- Whether a character is shown as it is. -/
def isPlain (c : Char) : Bool :=
  if c.toNat < 127 then 32 ≤ c.toNat
  else !(invisibleRuns.any (·.contains c.toNat) || extendingRuns.any (·.contains c.toNat))

/-- How one character is written inside a quotation. -/
def character (c : Char) : List Char :=
  if c = '"' then ['\\', '"']
  else if c = '\\' then ['\\', '\\']
  else if c = '\n' then ['\\', 'n']
  else if c = '\r' then ['\\', 'r']
  else if c = '\t' then ['\\', 't']
  else if c = '\x00' then ['\\', '0']
  else if isPlain c then [c]
  else ['\\', 'u', '\x7b'] ++ Nat.toDigits 16 c.toNat ++ ['\x7d']

end Quoted

/-- A text in double quotes. -/
def quoted (s : String) : String := String.ofList ('"' :: s.toList.flatMap Quoted.character ++ ['"'])

end Accessors
