import Mathlib
import Formula.Number.Binary

/-!
The rational numbers that doubles stand for.

* `Canonical`: the mantissas and exponents that finite doubles have;
* `value?`: the rational number of a finite double;
* `unpack_finite`: finite doubles other than 0 are canonical, and `unpack_pack` is the converse;
* `eq_of_value`: two doubles of the same value other than 0 are the same.
-/

namespace Formula.Number

open Float.Model (UnpackedFloat Format)
open Float.Model.UnpackedFloat

/-! ## Mantissas and exponents -/

/-- The mantissas and exponents of finite doubles other than 0. -/
structure Canonical (m : Nat) (e : Int) : Prop where
  pos : 0 < m
  lt : m < 2 ^ 53
  low : -1074 ≤ e
  high : e ≤ 971
  normal : 2 ^ 52 ≤ m ∨ e = -1074

def dyadic (m : Nat) (e : Int) : ℚ := m * 2 ^ e

theorem dyadic_pos {m : Nat} (h : 0 < m) (e : Int) : 0 < dyadic m e := by
  have : (0 : ℚ) < m := Nat.cast_pos.mpr h
  unfold dyadic
  positivity

/-- With an exponent that is not negative it is a whole number. -/
theorem dyadic_natCast (m k : Nat) : dyadic m k = (m * 2 ^ k : Nat) := by
  rw [dyadic, zpow_natCast]
  push_cast
  rfl

/-- The same number with a smaller exponent. -/
theorem dyadic_shift (m : Nat) (e : Int) (k : Nat) : dyadic (m * 2 ^ k) (e - k) = dyadic m e := by
  unfold dyadic
  push_cast
  rw [mul_assoc, ← zpow_natCast, ← zpow_add₀ two_ne_zero, add_sub_cancel]

theorem dyadic_at (m : Nat) {e t : Int} (h : t ≤ e) :
    dyadic (m * 2 ^ (e - t).toNat) t = dyadic m e := by
  have hshift := dyadic_shift m e (e - t).toNat
  rwa [show e - ((e - t).toNat : Int) = t by omega] at hshift

/-- Different mantissas and exponents stand for different numbers. -/
theorem Canonical.ext {m m' : Nat} {e e' : Int} (h : Canonical m e) (h' : Canonical m' e')
    (heq : dyadic m e = dyadic m' e') : m = m' ∧ e = e' := by
  wlog hle : e ≤ e' generalizing m m' e e'
  · obtain ⟨hm, he⟩ := this h' h heq.symm (by omega)
    exact ⟨hm.symm, he.symm⟩
  obtain ⟨k, rfl⟩ : ∃ k : Nat, e' = e + k := ⟨(e' - e).toNat, by omega⟩
  have hmantissa : m = m' * 2 ^ k := by
    have hshift := dyadic_shift m' (e + k) k
    rw [add_sub_cancel_right, ← heq] at hshift
    have hpow : (2 : ℚ) ^ e ≠ 0 := by positivity
    exact_mod_cast (mul_right_cancel₀ hpow hshift).symm
  cases k with
  | zero => exact ⟨by simpa using hmantissa, by simp⟩
  | succ k =>
    -- The larger exponent leaves no room for a mantissa of fifty-three bits.
    have hlt := h.lt
    have hlow := h.low
    rw [hmantissa, pow_succ] at hlt
    have hone : 1 ≤ 2 ^ k := Nat.one_le_two_pow
    rcases h'.normal with hnormal | hnormal
    · nlinarith
    · omega

/-! ## Values -/

def signed? (s : Sign) (r : ℚ) : ℚ :=
  match s with
  | .positive => r
  | .negative => -r

/-- The rational number that an unpacked number stands for, none for the special values. -/
def rational? : UnpackedFloat → Option ℚ
  | .zero _ => some 0
  | .finite s m e _ => some (signed? s (dyadic m e))
  | _ => none

/-- The rational number that a double stands for, none for the special values. -/
def value? (x : Float) : Option ℚ := rational? (unpack x)

/-! ## Packing -/

/-- A bit in front of others. -/
theorem toNat_one_append (b : BitVec 52) : (1#1 ++ b).toNat = 2 ^ 52 + b.toNat := by
  rw [BitVec.toNat_append, ← Nat.shiftLeft_add_eq_or_of_lt b.isLt]
  rfl

/-- A packed number consists of its sign, exponent and mantissa. -/
theorem packComponents_unpacked (b : BitVec Format.binary64.numBits) :
    packComponents Format.binary64 (Sign.ofBitVec (unpackSign b)) (unpackExponent b)
      (unpackMantissa b) = b := by
  have hsign : (Sign.ofBitVec (unpackSign b)).toBitVec = unpackSign b := by
    generalize unpackSign b = s
    revert s
    decide
  rw [packComponents, hsign]
  apply BitVec.eq_of_getLsbD_eq
  intro i hi
  simp only [unpackSign, unpackExponent, unpackMantissa, BitVec.getLsbD_append,
    BitVec.getLsbD_cast, BitVec.getLsbD_extractLsb]
  have hi : i < 64 := hi
  by_cases hmantissa : i < 52
  · simp [hmantissa]
  · by_cases hexponent : i < 63
    · simp [hmantissa, show i - 52 < 11 by omega, show 52 + (i - 52) = i by omega]
    · obtain rfl : i = 63 := by omega
      simp
      rfl

/-- The parts of a finite double other than 0: the exponent is 0 for the smallest ones. -/
theorem unpack_parts {x : Float} {s : Sign} {m : Nat} {e : Int} {hm : 0 < m}
    (h : unpack x = .finite s m e hm) :
    ∃ (exponent : BitVec 11) (mantissa : BitVec 52),
      x.toModel.toBits.toBitVec = packComponents Format.binary64 s exponent mantissa ∧
      (exponent = 0#11 ∧ m = mantissa.toNat ∧ e = -1074 ∨
        0 < exponent.toNat ∧ exponent.toNat < 2047 ∧ m = 2 ^ 52 + mantissa.toNat ∧
          e = exponent.toNat - 1075) := by
  rw [unpack, Float.Model.unpack, UnpackedFloat.unpack] at h
  let exponent : BitVec 11 := @unpackExponent Format.binary64 x.toModel.toBits.toBitVec
  let mantissa : BitVec 52 := @unpackMantissa Format.binary64 x.toModel.toBits.toBitVec
  have hparts := packComponents_unpacked x.toModel.toBits.toBitVec
  split at h
  · split at h <;> cases h
  · next hspecial =>
    split at h
    · next hzero =>
      split at h
      · cases h
      · cases h
        refine ⟨exponent, mantissa, hparts.symm, .inl ⟨hzero, rfl, ?_⟩⟩
        rw [hzero]
        rfl
    · next hzero =>
      cases h
      refine ⟨exponent, mantissa, hparts.symm, .inr ⟨?_, ?_, toNat_one_append mantissa, rfl⟩⟩
      · exact Nat.pos_of_ne_zero fun h => hzero (BitVec.eq_of_toNat_eq h)
      · have hlt : exponent.toNat < 2048 := exponent.isLt
        have hne : exponent.toNat ≠ 2047 := fun h => hspecial (BitVec.eq_of_toNat_eq h)
        omega

/-- The mantissa and exponent of a finite double other than 0. -/
theorem unpack_finite {x : Float} {s : Sign} {m : Nat} {e : Int} {hm : 0 < m}
    (h : unpack x = .finite s m e hm) : Canonical m e := by
  obtain ⟨exponent, mantissa, -, ⟨-, rfl, rfl⟩ | ⟨hpos, hlt, rfl, rfl⟩⟩ := unpack_parts h
  · have hmantissa : mantissa.toNat < 2 ^ 52 := mantissa.isLt
    exact ⟨hm, by omega, by omega, by omega, .inr rfl⟩
  · have hmantissa : mantissa.toNat < 2 ^ 52 := mantissa.isLt
    exact ⟨hm, by omega, by omega, by omega, .inl (Nat.le_add_right ..)⟩

/-- Packing a mantissa and an exponent. -/
theorem pack_canonical {m : Nat} {e : Int} (h : Canonical m e) (s : Sign) :
    UnpackedFloat.pack Format.binary64 (.finite s m e h.pos) =
      packComponents Format.binary64 s
        (if 2 ^ 52 ≤ m then BitVec.ofNat 11 (e + 1075).toNat else 0#11) (BitVec.ofNat 52 m) := by
  have hlow := h.low
  have hhigh := h.high
  have hbias : e + (Format.binary64.exponentBias : Int) +
      (Format.binary64.mantissaBitsWithoutImplicit : Int) = e + 1075 := by
    show e + (1023 : Int) + (52 : Int) = e + 1075
    omega
  have hroom : ¬ 2 ^ Format.binary64.exponentBits ≤ (e + 1075).toNat + 1 := by
    show ¬ 2 ^ 11 ≤ (e + 1075).toNat + 1
    omega
  have hbits : m.log2 + 1 = Format.binary64.mantissaBits ↔ 2 ^ 52 ≤ m := by
    show m.log2 + 1 = 53 ↔ 2 ^ 52 ≤ m
    have hlt := (Nat.log2_lt h.pos.ne').mpr h.lt
    rw [← Nat.le_log2 h.pos.ne']
    omega
  rw [UnpackedFloat.pack]
  simp only [hbias, hroom, hbits, ↓reduceIte]
  split <;> rfl

theorem unpackSign_packed (s : Sign) (exponent : BitVec 11) (mantissa : BitVec 52) :
    Sign.ofBitVec (unpackSign (packComponents Format.binary64 s exponent mantissa)) = s := by
  have hsign : unpackSign (packComponents Format.binary64 s exponent mantissa) = s.toBitVec := by
    apply BitVec.eq_of_getLsbD_eq
    intro i hi
    obtain rfl : i = 0 := by omega
    simp only [unpackSign, packComponents, BitVec.getLsbD_cast, BitVec.getLsbD_extractLsb]
    rw [BitVec.getLsbD_append, BitVec.getLsbD_append]
    cases s <;> rfl
  rw [hsign]
  cases s <;> rfl

/-- Packing keeps the sign, mantissa and exponent of a double. -/
theorem unpack_pack {m : Nat} {e : Int} (h : Canonical m e) (s : Sign) :
    unpack (.ofModel (.pack (.finite s m e h.pos))) = .finite s m e h.pos := by
  have hbits : (Float.Model.pack (.finite s m e h.pos)).toBits.toBitVec =
      UnpackedFloat.pack Format.binary64 (.finite s m e h.pos) := rfl
  have hlow := h.low
  have hhigh := h.high
  have hlt := h.lt
  rw [unpack, Float.Model.unpack, hbits, pack_canonical h, UnpackedFloat.unpack]
  simp only [unpackMantissa_packComponents, unpackExponent_packComponents, unpackSign_packed]
  by_cases hnormal : 2 ^ 52 ≤ m
  · have hexponent : (BitVec.ofNat 11 (e + 1075).toNat).toNat = (e + 1075).toNat := by
      rw [BitVec.toNat_ofNat, Nat.mod_eq_of_lt (by omega)]
    have hmantissa : (1#1 ++ BitVec.ofNat 52 m).toNat = m := by
      rw [toNat_one_append, BitVec.toNat_ofNat]
      omega
    have hspecial : ¬ BitVec.ofNat 11 (e + 1075).toNat = -1#11 := by
      intro heq
      rw [heq] at hexponent
      have : (-1#11).toNat = 2047 := rfl
      omega
    have hzero : ¬ BitVec.ofNat 11 (e + 1075).toNat = 0#11 := by
      intro heq
      rw [heq] at hexponent
      have : (0#11).toNat = 0 := rfl
      omega
    rw [if_pos hnormal, if_neg hspecial, if_neg hzero, UnpackedFloat.finite.injEq]
    refine ⟨rfl, hmantissa, ?_⟩
    rw [hexponent]
    show ((e + 1075).toNat : Int) - ((1023 : Nat) + (52 : Nat)) = e
    omega
  · have hmantissa : (BitVec.ofNat 52 m).toNat = m := by
      rw [BitVec.toNat_ofNat, Nat.mod_eq_of_lt (by omega)]
    have hzero : ¬ BitVec.ofNat 52 m = 0#52 := by
      intro heq
      rw [heq] at hmantissa
      exact absurd hmantissa h.pos.ne
    obtain rfl : e = -1074 := h.normal.resolve_left hnormal
    rw [if_neg hnormal, if_neg (by decide), if_pos rfl, dif_neg hzero, UnpackedFloat.finite.injEq]
    exact ⟨rfl, hmantissa, rfl⟩

/-- A finite double other than 0 is packed from its sign, mantissa and exponent. -/
theorem pack_unpack {x : Float} {s : Sign} {m : Nat} {e : Int} {hm : 0 < m}
    (h : unpack x = .finite s m e hm) : x = .ofModel (.pack (.finite s m e hm)) := by
  have hbits : x.toModel.toBits.toBitVec =
      UnpackedFloat.pack Format.binary64 (.finite s m e hm) := by
    rw [pack_canonical (unpack_finite h)]
    obtain ⟨exponent, mantissa, hx, ⟨rfl, rfl, rfl⟩ | ⟨hpos, hlt, rfl, rfl⟩⟩ := unpack_parts h
    · have hmantissa : mantissa.toNat < 2 ^ 52 := mantissa.isLt
      rw [hx, if_neg (by omega), BitVec.ofNat_toNat, BitVec.setWidth_eq]
    · have hmantissa : mantissa.toNat < 2 ^ 52 := mantissa.isLt
      have hexponent : ((exponent.toNat : Int) - 1075 + 1075).toNat = exponent.toNat := by omega
      have hofNat : BitVec.ofNat 52 (2 ^ 52 + mantissa.toNat) = mantissa := by
        apply BitVec.eq_of_toNat_eq
        rw [BitVec.toNat_ofNat]
        omega
      rw [hx, if_pos (Nat.le_add_right ..), hexponent, hofNat, BitVec.ofNat_toNat,
        BitVec.setWidth_eq]
  obtain ⟨⟨bits, valid⟩⟩ := x
  congr 2
  exact UInt64.toBitVec_inj.mp hbits

/-! ## Doubles with a value -/

theorem value_of_unpack {x : Float} {s : Sign} {m : Nat} {e : Int} {hm : 0 < m}
    (h : unpack x = .finite s m e hm) : value? x = some (signed? s (dyadic m e)) := by
  rw [value?, h, rational?]

/-- What has a value is a zero, or has a mantissa and an exponent. -/
theorem rational_eq_some {u : UnpackedFloat} {r : ℚ} (h : rational? u = some r) :
    (∃ s, u = .zero s ∧ r = 0) ∨
      ∃ s m e hm, u = .finite s m e hm ∧ r = signed? s (dyadic m e) := by
  cases u with
  | zero s => exact .inl ⟨s, rfl, (Option.some.inj h).symm⟩
  | finite s m e hm => exact .inr ⟨s, m, e, hm, rfl, (Option.some.inj h).symm⟩
  | infinity s => cases h
  | notANumber => cases h

/-- A double whose value is not 0 has a mantissa and an exponent. -/
theorem unpack_of_value {x : Float} {r : ℚ} (hr : r ≠ 0) (h : value? x = some r) :
    ∃ (s : Sign) (m : Nat) (e : Int) (hm : Canonical m e),
      unpack x = .finite s m e hm.pos ∧ r = signed? s (dyadic m e) := by
  rcases rational_eq_some h with ⟨-, -, rfl⟩ | ⟨s, m, e, hm, hx, rfl⟩
  · exact absurd rfl hr
  · exact ⟨s, m, e, unpack_finite hx, hx, rfl⟩

/-- A double with a positive value is positive. -/
theorem unpack_of_pos {x : Float} {r : ℚ} (hr : 0 < r) (h : value? x = some r) :
    ∃ (m : Nat) (e : Int) (hm : Canonical m e),
      unpack x = .finite .positive m e hm.pos ∧ r = dyadic m e := by
  obtain ⟨s, m, e, hm, hx, rfl⟩ := unpack_of_value hr.ne' h
  cases s with
  | positive => exact ⟨m, e, hm, hx, rfl⟩
  | negative => exact absurd hr (not_lt.mpr (neg_nonpos.mpr (dyadic_pos hm.pos e).le))

theorem signed_ne_zero {s : Sign} {r : ℚ} (h : r ≠ 0) : signed? s r ≠ 0 := by
  cases s
  · exact neg_ne_zero.mpr h
  · exact h

theorem abs_signed {s : Sign} {r : ℚ} (h : 0 ≤ r) : |signed? s r| = r := by
  cases s
  · exact (abs_neg r).trans (abs_of_nonneg h)
  · exact abs_of_nonneg h

theorem signed_natCast (s : Sign) (n : Nat) : signed? s (n : ℚ) = ((s.apply n : Int) : ℚ) := by
  cases s <;> simp [signed?, Sign.apply]

/-- A number with its mantissa shifted to another exponent, as operations bring it there. -/
theorem signed_at (s : Sign) (m : Nat) {e t : Int} (ht : t ≤ e) :
    ((s.apply (m.shiftLeft (e - t).toNat : Nat) : Int) : ℚ) * 2 ^ t = signed? s (dyadic m e) := by
  have hshift : m.shiftLeft (e - t).toNat = m * 2 ^ (e - t).toNat := Nat.shiftLeft_eq ..
  rw [hshift, ← dyadic_at m ht, dyadic]
  cases s
  · exact (congrArg (· * _) (Int.cast_neg _)).trans (neg_mul ..)
  · rfl

/-- A sign and a magnitude are told apart by their value. -/
theorem signed_inj {s s' : Sign} {a b : ℚ} (ha : 0 < a) (hb : 0 < b)
    (h : signed? s a = signed? s' b) : s = s' ∧ a = b := by
  cases s <;> cases s' <;> simp only [signed?] at h
  · exact ⟨rfl, neg_injective h⟩
  · linarith
  · linarith
  · exact ⟨rfl, h⟩

/-- Two doubles of the same value other than 0 are the same. -/
theorem eq_of_value {x y : Float} {r : ℚ} (hr : r ≠ 0) (hx : value? x = some r)
    (hy : value? y = some r) : x = y := by
  obtain ⟨s, m, e, hm, hux, hrx⟩ := unpack_of_value hr hx
  obtain ⟨s', m', e', hm', huy, hry⟩ := unpack_of_value hr hy
  obtain ⟨rfl, hvalue⟩ :=
    signed_inj (dyadic_pos hm.pos e) (dyadic_pos hm'.pos e') (hrx.symm.trans hry)
  obtain ⟨rfl, rfl⟩ := hm.ext hm' hvalue
  rw [pack_unpack hux, pack_unpack huy]

/-- The double with a mantissa and an exponent. -/
theorem value_pack {m : Nat} {e : Int} (h : Canonical m e) (s : Sign) :
    value? (.ofModel (.pack (.finite s m e h.pos))) = some (signed? s (dyadic m e)) :=
  value_of_unpack (unpack_pack h s)

/-- A double of the value 0 is one of the two zeros. -/
theorem unpack_of_zero {x : Float} (h : value? x = some 0) : ∃ s, unpack x = .zero s := by
  rcases rational_eq_some h with ⟨s, hx, -⟩ | ⟨s, m, e, hm, -, hr⟩
  · exact ⟨s, hx⟩
  · exact absurd hr.symm (signed_ne_zero (dyadic_pos hm e).ne')

/-- The opposite of a double. -/
theorem value_neg {x : Float} {r : ℚ} (hx : value? x = some r) : value? (-x) = some (-r) := by
  have hneg : -x = .ofModel (.pack (unpack x).neg) := rfl
  rw [hneg]
  by_cases hr : r = 0
  · subst hr
    obtain ⟨s, hs⟩ := unpack_of_zero hx
    rw [hs, neg_zero]
    cases s <;> rfl
  · obtain ⟨s, m, e, hm, hux, rfl⟩ := unpack_of_value hr hx
    rw [hux, UnpackedFloat.neg, value_pack hm]
    cases s
    · exact congrArg some (neg_neg _).symm
    · rfl

/-- Two doubles of the same value are equal as numbers. -/
theorem beq_of_value {x y : Float} {r : ℚ} (hx : value? x = some r) (hy : value? y = some r) :
    (x == y) = true := by
  have hbeq : (x == y) = (unpack x).beq (unpack y) := rfl
  rw [hbeq]
  by_cases hr : r = 0
  · subst hr
    obtain ⟨s, hs⟩ := unpack_of_zero hx
    obtain ⟨s', hs'⟩ := unpack_of_zero hy
    rw [hs, hs']
    rfl
  · obtain rfl := eq_of_value hr hx hy
    obtain ⟨s, m, e, hm, hux, -⟩ := unpack_of_value hr hx
    rw [hux]
    cases s <;> simp [UnpackedFloat.beq, UnpackedFloat.compare]

/-- The doubles with a value are the finite ones. -/
theorem isFinite_eq (x : Float) : x.isFinite = (value? x).isSome := by
  show (unpack x).isFinite = (rational? (unpack x)).isSome
  cases unpack x <;> rfl

theorem isFinite_of_value {x : Float} {r : ℚ} (h : value? x = some r) : x.isFinite = true := by
  rw [isFinite_eq, h]
  rfl

theorem value_of_isFinite {x : Float} (h : x.isFinite = true) : ∃ r, value? x = some r :=
  Option.isSome_iff_exists.mp ((isFinite_eq x).symm.trans h)

/-- A double of another value than 0 is not equal to 0. -/
theorem beq_zero_of_value {x : Float} {r : ℚ} (hr : r ≠ 0) (hx : value? x = some r) :
    (x == 0.0) = false := by
  have hbeq : (x == 0.0) = (unpack x).beq (.zero .positive) := rfl
  obtain ⟨s, m, e, hm, hux, -⟩ := unpack_of_value hr hx
  rw [hbeq, hux]
  cases s <;> rfl

end Formula.Number
