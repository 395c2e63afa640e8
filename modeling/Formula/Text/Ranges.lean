/-!
Character properties given as tables of closed intervals of code points.
-/

namespace Formula.Text

def inRanges (table : List (Nat × Nat)) (c : Char) : Bool :=
  table.any fun r => r.1 ≤ c.toNat && c.toNat ≤ r.2

end Formula.Text
