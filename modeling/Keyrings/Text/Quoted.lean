import Keyrings.Text.Hidden

/-! Quoted text for messages. Double quotes stand around the text; inside, the quote, the
backslash and the common controls have two-character escapes, every other hidden character is
written by its code point, and the rest stands for itself. -/

namespace Keyrings.Text.Quoted

/-- How one character is written between the quotes. -/
def escape (c : Char) : List Char :=
  if c = '\x00' then ['\\', '0']
  else if c = '\t' then ['\\', 't']
  else if c = '\n' then ['\\', 'n']
  else if c = '\r' then ['\\', 'r']
  else if c = '"' then ['\\', '"']
  else if c = '\\' then ['\\', '\\']
  else if ' ' ≤ c ∧ c ≤ '~' then [c]
  else if isHidden c then '\\' :: 'u' :: '\x7b' :: (Nat.toDigits 16 c.toNat ++ ['\x7d'])
  else [c]

def encode (cs : List Char) : List Char := '"' :: (cs.flatMap escape ++ ['"'])

/-- A text that may be absent, with its presence shown. -/
def encodeOption : Option (List Char) → List Char
  | none => "None".toList
  | some cs => "Some(".toList ++ encode cs ++ [')']

end Keyrings.Text.Quoted
