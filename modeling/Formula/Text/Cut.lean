/-!
Finding and cutting: what follows a given beginning, the pieces between separators, the first place
where one text stands in another, and texts joined by a separator.
-/

namespace Formula.Text

/-- What follows `lead` when the characters begin with it. -/
def after? : List Char → List Char → Option (List Char)
  | [], cs => some cs
  | _ :: _, [] => none
  | l :: lead, c :: cs => if l = c then after? lead cs else none

/-- `c` put in front of the first piece. -/
def ontoFirst (c : Char) : List (List Char) → List (List Char)
  | [] => [[c]]
  | p :: ps => (c :: p) :: ps

/-- The pieces between the occurrences of `sep`, found from left to right without overlap; the
first `skip` characters belong to an occurrence that has just been found. -/
def piecesFrom (sep : List Char) : Nat → List Char → List (List Char)
  | _, [] => [[]]
  | skip + 1, _ :: cs => piecesFrom sep skip cs
  | 0, c :: cs =>
    if sep.isPrefixOf (c :: cs) then [] :: piecesFrom sep (sep.length - 1) cs
    else ontoFirst c (piecesFrom sep 0 cs)

/-- The pieces of a text between the occurrences of a separator that is not empty. -/
def pieces (sep s : String) : List String :=
  (piecesFrom sep.toList 0 s.toList).map String.ofList

/-- The number of characters before the first occurrence of `needle`. -/
def find? (needle : List Char) : List Char → Option Nat
  | [] => if needle.isEmpty then some 0 else none
  | c :: cs => if needle.isPrefixOf (c :: cs) then some 0 else (find? needle cs).map (· + 1)

def joined (sep : String) : List String → String
  | [] => ""
  | [s] => s
  | s :: rest => s ++ sep ++ joined sep rest

def copies (n : Nat) (s : String) : String := n.repeat (· ++ s) ""

end Formula.Text
