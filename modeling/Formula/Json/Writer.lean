import Formula.Json.Basic
import Formula.Number.Layout
import Formula.Text.Cut

/-!
JSON text: compact, or spread over lines with two blanks for each level. Only quotes, backslashes
and control characters are escaped in strings.
-/

namespace Formula.Json

def hexDigit (n : Nat) : Char := Nat.digitChar (n % 16)

def escaped (c : Char) : List Char :=
  if c = '\u0022' then ['\\', '\u0022']
  else if c = '\\' then ['\\', '\\']
  else if c = '\u0008' then ['\\', 'b']
  else if c = '\t' then ['\\', 't']
  else if c = '\n' then ['\\', 'n']
  else if c = '\u000c' then ['\\', 'f']
  else if c = '\r' then ['\\', 'r']
  else if c.toNat < 32 then ['\\', 'u', '0', '0', hexDigit (c.toNat / 16), hexDigit c.toNat]
  else [c]

def quoted (s : String) : List Char := '\u0022' :: s.toList.flatMap escaped ++ ['\u0022']

def integerText (n : Int) : List Char := Number.exponentText [] n

def separated (sep : List Char) : List (List Char) → List Char
  | [] => []
  | [cs] => cs
  | cs :: rest => cs ++ sep ++ separated sep rest

mutual

/-- The compact text of a document. -/
def chars : Json → List Char
  | .null => "null".toList
  | .boolean true => "true".toList
  | .boolean false => "false".toList
  | .integer n => integerText n
  | .number x => (Number.jsonText x).toList
  | .string s => quoted s
  | .array items => '[' :: separated [','] (itemChars items) ++ [']']
  | .object members => '\x7b' :: separated [','] (memberChars members) ++ ['\x7d']

def itemChars : List Json → List (List Char)
  | [] => []
  | item :: items => item.chars :: itemChars items

def memberChars : List (String × Json) → List (List Char)
  | [] => []
  | (name, value) :: members => (quoted name ++ ':' :: value.chars) :: memberChars members

end

def text (j : Json) : String := String.ofList j.chars

def newLine (level : Nat) : List Char := '\n' :: List.replicate (2 * level) ' '

/-- Brackets around items on lines of their own, one level further in; empty ones stay together. -/
def block (opening closing : Char) (level : Nat) (items : List (List Char)) : List Char :=
  if items.isEmpty then [opening, closing]
  else
    opening :: newLine (level + 1) ++ separated (',' :: newLine (level + 1)) items ++
      newLine level ++ [closing]

mutual

/-- The text of a document over several lines, at an indentation level. -/
def prettyChars (level : Nat) : Json → List Char
  | .array items => block '[' ']' level (prettyItems (level + 1) items)
  | .object members => block '\x7b' '\x7d' level (prettyMembers (level + 1) members)
  | j => j.chars

def prettyItems (level : Nat) : List Json → List (List Char)
  | [] => []
  | item :: items => item.prettyChars level :: prettyItems level items

def prettyMembers (level : Nat) : List (String × Json) → List (List Char)
  | [] => []
  | (name, value) :: members =>
    (quoted name ++ ':' :: ' ' :: value.prettyChars level) :: prettyMembers level members

end

def prettyText (j : Json) : String := String.ofList (j.prettyChars 0)

end Formula.Json
