import QueryPushdown.Text.Unprintable

/-!
# Quoted text

A text between double quotes, with quotes, backslashes, the usual control characters and every
unprintable character escaped. `Text.quote` writes it; single quotes stand for themselves.
-/

namespace QueryPushdown.Text

/-- Lower case digits of a code point in base sixteen. -/
def hexDigits (n : Nat) : List Char := Nat.toDigits 16 n

/-- One character inside quotes. -/
def escape (c : Char) : List Char :=
  if c = '"' then ['\\', '"']
  else if c = '\\' then ['\\', '\\']
  else if c = '\n' then ['\\', 'n']
  else if c = '\r' then ['\\', 'r']
  else if c = '\t' then ['\\', 't']
  else if c = '\x00' then ['\\', '0']
  else if unprintable.contains c then ['\\', 'u', '\x7b'] ++ hexDigits c.toNat ++ ['\x7d']
  else [c]

/-- The text between double quotes. -/
def quote (s : String) : String :=
  String.ofList ('"' :: (s.toList.flatMap escape ++ ['"']))

end QueryPushdown.Text
