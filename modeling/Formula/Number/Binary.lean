/-!
Double precision numbers as integers times powers of two: truncation, rounding to whole numbers,
the numeric comparison, and the total order that puts −0 before 0.
-/

namespace Formula.Number

open Float.Model (UnpackedFloat)
open Float.Model.UnpackedFloat (Sign)

/-- The sign, mantissa and binary exponent of a number, or the special value it is. -/
def unpack (x : Float) : UnpackedFloat := x.toModel.unpack

def nan : Float := 0.0 / 0.0

def infinity : Float := 1.0 / 0.0

/-- The number `n` with the sign of `s`, exact below `2 ^ 53`. -/
def signed (s : Sign) (n : Nat) : Float :=
  match s with
  | .positive => Float.ofNat n
  | .negative => -Float.ofNat n

/-- The whole part and the remainder of `m · 2 ^ e`, the latter in units of `2 ^ e`. -/
def wholePart (m : Nat) (e : Int) : Nat × Nat :=
  if 0 ≤ e then (m * Nat.pow 2 e.toNat, 0)
  else (m / Nat.pow 2 (-e).toNat, m % Nat.pow 2 (-e).toNat)

/-- The number without its fraction, as an integer; 0 where there is no such integer. -/
def truncate (x : Float) : Int :=
  match unpack x with
  | .finite s m e _ => s.apply (wholePart m e).1
  | _ => 0

/-- The number without its fraction, kept between `low` and `high`; 0 for NaN. -/
def clamped (low high : Int) (x : Float) : Int :=
  match unpack x with
  | .notANumber => 0
  | .infinity .positive => high
  | .infinity .negative => low
  | _ => max low (min high (truncate x))

def isWhole (x : Float) : Bool :=
  match unpack x with
  | .finite _ m e _ => (wholePart m e).2 = 0
  | .zero _ => true
  | _ => false

/-- A number rounded to a whole one of the same sign: `away s r d` tells whether a remainder of
`r / d` moves the magnitude up. Numbers without a fraction stay as they are. -/
def roundedBy (away : Sign → Nat → Nat → Bool) (x : Float) : Float :=
  match unpack x with
  | .finite s m e _ =>
    if 0 ≤ e then x
    else
      let (q, r) := wholePart m e
      signed s (if away s r (Nat.pow 2 (-e).toNat) then q + 1 else q)
  | _ => x

def trunc (x : Float) : Float := roundedBy (fun _ _ _ => false) x

def floor (x : Float) : Float :=
  roundedBy (fun s r _ => s == .negative && r != 0) x

def ceil (x : Float) : Float :=
  roundedBy (fun s r _ => s == .positive && r != 0) x

/-- The nearest whole number, a half going away from zero. -/
def round (x : Float) : Float :=
  roundedBy (fun _ r d => d ≤ 2 * r) x

/-- What division leaves when the quotient is cut off: exact, and of the sign of the dividend. -/
def fmod (x y : Float) : Float :=
  match unpack x, unpack y with
  | .finite s m e _, .finite _ n f _ =>
    let low := min e f
    let rest := (m * Nat.pow 2 (e - low).toNat) % (n * Nat.pow 2 (f - low).toNat)
    .ofModel (.pack (.normalize .binary64 (s.apply rest) low s))
  | .zero _, .finite .. | .zero _, .infinity _ | .finite .., .infinity _ => x
  | _, _ => nan

/-- The remainder that is not negative. -/
def remEuclid (x y : Float) : Float :=
  let r := fmod x y
  if r < 0.0 then r + y.abs else r

/-- The numeric order; none when either number is NaN. -/
def compare? (x y : Float) : Option Ordering := Float.Model.compare x.toModel y.toModel

/-- A key that orders all numbers other than NaN, with −0 before 0. -/
def orderKey (x : Float) : Int :=
  let bits := x.toBits.toNat
  if bits < Nat.pow 2 63 then bits else (Nat.pow 2 63 : Int) - 1 - bits

/-- The larger number; NaN gives way to a number, and of two equal ones the first stays. -/
def larger (x y : Float) : Float :=
  if x.isNaN then y else if x < y then y else x

def smaller (x y : Float) : Float :=
  if x.isNaN then y else if y < x then y else x

def powerOfTen (n : Nat) : Float := Float.ofScientific 1 false n

end Formula.Number
