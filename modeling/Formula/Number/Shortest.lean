import Formula.Number.Binary

/-!
The fewest decimal digits that read back to the same double. A double stands for every real number
that rounds to it; of the decimal grids `10 ^ t`, the coarsest with a point in that interval gives
the digits, and of two such points the one nearer to the exact value.
-/

namespace Formula.Number

structure Digits where
  coefficient : Nat
  exponent : Int
deriving DecidableEq

/-- Which of two digits is taken when both are equally near. -/
inductive Tie where
  | up
  | toEven

/-- A positive rational `value / unit` together with the reals that are taken for it: those from
`value - below` to `value + above` over the same unit, with both ends exactly if `closed`. -/
structure Neighbourhood where
  value : Nat
  unit : Nat
  below : Nat
  above : Nat
  closed : Bool

/-- The reals that round to the double `m · 2 ^ e`: half-way to either neighbour, where the lower
neighbour of a power of two is half as far away. -/
def neighbourhood (m : Nat) (e : Int) : Neighbourhood :=
  let scale := Nat.pow 2 (e - 2).toNat
  { value := 4 * m * scale
    unit := Nat.pow 2 (2 - e).toNat
    below := (if m = Nat.pow 2 52 ∧ -1074 < e then 1 else 2) * scale
    above := 2 * scale
    closed := m % 2 = 0 }

def digitCount (n : Nat) : Nat := if n = 0 then 0 else (Nat.toDigits 10 n).length

/-- The exponent `t` for which the value lies between `10 ^ t` and `10 ^ (t + 1)`. -/
def Neighbourhood.magnitude (v : Neighbourhood) : Int :=
  if v.unit ≤ v.value then (digitCount (v.value / v.unit) : Int) - 1
  else -(digitCount ((v.unit - 1) / v.value) : Int)

/-- The value and its bounds in units of the grid `10 ^ t`. -/
def Neighbourhood.onGrid (v : Neighbourhood) (t : Int) : Neighbourhood :=
  let finer := Nat.pow 10 (-t).toNat
  { v with
    value := v.value * finer
    unit := v.unit * Nat.pow 10 t.toNat
    below := v.below * finer
    above := v.above * finer }

def Neighbourhood.reaches (v : Neighbourhood) (distance bound : Nat) : Bool :=
  distance < bound || (v.closed && distance = bound)

/-- The point of the whole-number grid that is taken for the value: of the two around it those
within the bounds, of both the nearer, of two equally near ones as `tie` says. -/
def Neighbourhood.point? (v : Neighbourhood) (tie : Tie) : Option Nat :=
  let q := v.value / v.unit
  let r := v.value % v.unit
  let gap := v.unit - r
  match v.reaches r v.below, v.reaches gap v.above with
  | true, true =>
    if r < gap then some q
    else if gap < r then some (q + 1)
    else match tie with
      | .up => some (q + 1)
      | .toEven => if q % 2 = 0 then some q else some (q + 1)
  | true, false => some q
  | false, true => some (q + 1)
  | false, false => none

/-- The first hit on the grids `10 ^ t`, `10 ^ (t - 1)`, …, at most `tries + 1` of them. -/
def Neighbourhood.search (v : Neighbourhood) (tie : Tie) : Nat → Int → Digits
  | 0, t => ⟨((v.onGrid t).point? tie).getD 0, t⟩
  | tries + 1, t =>
    match (v.onGrid t).point? tie with
    | some n => ⟨n, t⟩
    | none => v.search tie tries (t - 1)

/-- The fewest digits that read back to the double `m · 2 ^ e`; seventeen always do. The coarsest
grid tried holds the next power of ten above. -/
def shortest (tie : Tie) (m : Nat) (e : Int) : Digits :=
  let v := neighbourhood m e
  v.search tie 17 (v.magnitude + 1)

/-- The fewest digits of the magnitude of a number; 0 for zero and the special values. -/
def digits (tie : Tie) (x : Float) : Digits :=
  match unpack x with
  | .finite _ m e _ => shortest tie m e
  | _ => ⟨0, 0⟩

def isNegative (x : Float) : Bool :=
  match unpack x with
  | .finite s _ _ _ | .zero s | .infinity s => s == .negative
  | .notANumber => false

end Formula.Number
