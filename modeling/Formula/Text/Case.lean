import Formula.Text.CaseTable
import Formula.Text.Ranges

/-!
Letter case of whole texts. A character may change into several; the capital sigma becomes the
final small sigma exactly where it ends a word.
-/

namespace Formula.Text

/-- The capital letter sigma, whose small form depends on its neighbours. -/
def capitalSigma : Char := '\u03A3'

/-- The capital I with a dot above, whose small form keeps the dot as a combining character. -/
def dottedCapitalI : Char := '\u0130'

def lowerChar (c : Char) : List Char :=
  if c = dottedCapitalI then ['i', '\u0307']
  else match shifted? c.toNat lowerRuns with
    | some n => [Char.ofNat n]
    | none => [c]

def upperChar (c : Char) : List Char :=
  match upperExpansions.lookup c.toNat with
  | some ns => ns.map Char.ofNat
  | none => match shifted? c.toNat upperRuns with
    | some n => [Char.ofNat n]
    | none => [c]

/-- The first character that is not passed over is a cased one. -/
def meetsCased (cs : List Char) : Bool :=
  match cs.dropWhile (inRanges caseIgnorableRanges) with
  | c :: _ => inRanges casedRanges c
  | [] => false

/-- The small form of a sigma between `before`, read backwards, and `after`. -/
def lowerSigma (before after : List Char) : Char :=
  if meetsCased before && !meetsCased after then '\u03C2' else '\u03C3'

/-- The small form of a text whose earlier characters, read backwards, are `before`. -/
def lowerAfter (before : List Char) : List Char → List Char
  | [] => []
  | c :: rest =>
    (if c = capitalSigma then [lowerSigma before rest] else lowerChar c) ++
      lowerAfter (c :: before) rest

def lower (s : String) : String := String.ofList (lowerAfter [] s.toList)

def upper (s : String) : String := String.ofList (s.toList.flatMap upperChar)

end Formula.Text
