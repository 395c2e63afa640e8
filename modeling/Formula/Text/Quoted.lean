import Formula.Text.Glyph

/-!
Names in quotes for messages: a quote, a backslash and what has no glyph of its own are escaped.
-/

namespace Formula.Text

def hexDigits (n : Nat) : List Char := Nat.toDigits 16 n

def quotedChar (c : Char) : List Char :=
  if c = '\u0000' then ['\\', '0']
  else if c = '\t' then ['\\', 't']
  else if c = '\n' then ['\\', 'n']
  else if c = '\r' then ['\\', 'r']
  else if c = '\u0022' then ['\\', '\u0022']
  else if c = '\\' then ['\\', '\\']
  else if hasGlyph c then [c]
  else '\\' :: 'u' :: '\x7b' :: hexDigits c.toNat ++ ['\x7d']

def quoted (s : String) : String :=
  String.ofList ('\u0022' :: s.toList.flatMap quotedChar ++ ['\u0022'])

end Formula.Text
