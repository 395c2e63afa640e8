import Mathlib
import Formula.Proofs.Ordering
import Formula.Proofs.Positions
import Formula.Proofs.Tiling

/-!
The texts that are numbers.

* `isNaN_ofScientific`: digits with an exponent are read as a number or as infinity;
* `Numeral`: a sign if any, digits with or without a point, and an exponent if any;
  `numeral_iff_reads` says that these are what is read of the texts without other letters;
* `isNaN_ofText_iff`: hence the texts that are numbers, blank ones and the words for infinity
  included;
* `language_numeral` and `plain_mantissa`: the tokens of numbers and the digits of a number are
  numerals;
* `numeric_text`: so that a literal always is a number, and so is the text of one.
-/

namespace Formula

open Formula.Text

namespace Number

open Float.Model (UnpackedFloat Format)
open Float.Model.UnpackedFloat

/-! ## Numbers that are not NaN -/

/-- Packed parts are NaN only with the largest exponent and a mantissa other than 0. -/
theorem isNaN_packComponents {s : Sign} {exponent : BitVec 11} {mantissa : BitVec 52}
    (h : exponent = -1#11 → mantissa = 0#52) :
    (UnpackedFloat.unpack Format.binary64
      (packComponents Format.binary64 s exponent mantissa)).isNaN = false := by
  rw [UnpackedFloat.unpack]
  simp only [unpackMantissa_packComponents, unpackExponent_packComponents]
  split
  · next hexponent =>
    rw [if_pos (h hexponent)]
    rfl
  · split
    · split <;> rfl
    · rfl

/-- What is not NaN is not packed as NaN. -/
theorem isNaN_pack {u : UnpackedFloat} (h : u.isNaN = false) :
    (Float.ofModel (.pack u)).isNaN = false := by
  show (UnpackedFloat.unpack Format.binary64 (UnpackedFloat.pack Format.binary64 u)).isNaN = false
  cases u with
  | notANumber => cases h
  | infinity s => exact isNaN_packComponents fun _ => rfl
  | zero s => exact isNaN_packComponents fun _ => rfl
  | finite s m e hm =>
    rw [UnpackedFloat.pack]
    split
    · exact isNaN_packComponents fun _ => rfl
    · next hroom =>
      split
      · refine isNaN_packComponents fun hspecial => ?_
        generalize (e + Format.binary64.exponentBias +
          Format.binary64.mantissaBitsWithoutImplicit).toNat = biased at hroom hspecial
        have hsmall : biased + 1 < 2048 := not_le.mp hroom
        have hlargest : biased % 2048 = 2047 := congrArg BitVec.toNat hspecial
        omega
      · exact isNaN_packComponents fun hspecial => by cases hspecial

theorem isNaN_roundWithAccuracy (s : Sign) (m : Nat) (e : Int) (accuracy : Accuracy) :
    (roundWithAccuracy Format.binary64 s m e accuracy).isNaN = false := by
  unfold roundWithAccuracy
  dsimp only
  split <;> rfl

/-- A product of finite numbers is a number. -/
theorem isNaN_multiply {x y : Float} (hx : x.isFinite = true) (hy : y.isFinite = true) :
    (x * y).isNaN = false := by
  have hproduct : x * y = .ofModel (.pack (.mul .binary64 (unpack x) (unpack y))) := rfl
  have hx : (unpack x).isFinite = true := hx
  have hy : (unpack y).isFinite = true := hy
  rw [hproduct]
  refine isNaN_pack ?_
  cases hux : unpack x <;> cases huy : unpack y <;> rw [hux] at hx <;> rw [huy] at hy <;>
    cases hx <;> cases hy <;> try rfl
  exact isNaN_roundWithAccuracy ..

/-- So is a quotient by another number than 0. -/
theorem isNaN_divide {x y : Float} (hx : x.isFinite = true) (hy : y.isFinite = true)
    (hne : (y == 0.0) = false) : (x / y).isNaN = false := by
  have hquotient : x / y = .ofModel (.pack (.div .binary64 (unpack x) (unpack y))) := rfl
  obtain ⟨q, hq⟩ := value_of_isFinite hy
  have hq0 : q ≠ 0 := by
    rintro rfl
    rw [beq_of_value hq rfl] at hne
    cases hne
  obtain ⟨s, m, e, hm, huy, -⟩ := unpack_of_value hq0 hq
  have hx : (unpack x).isFinite = true := hx
  rw [hquotient, huy]
  refine isNaN_pack ?_
  cases hux : unpack x with
  | notANumber | infinity =>
    rw [hux] at hx
    cases hx
  | zero => rfl
  | finite => exact isNaN_roundWithAccuracy ..

/-- The powers of ten that integers are multiplied or divided by. -/
theorem powersOfTen_finite : ∀ e (h : e < Float.exactlyRepresentablePowersOfTen.size),
    Float.exactlyRepresentablePowersOfTen[e].isFinite = true ∧
      (Float.exactlyRepresentablePowersOfTen[e] == 0.0) = false := by
  decide +kernel

theorem isFinite_toFloat {m : Nat} (h : m < 2 ^ 53) : m.toUInt64.toFloat.isFinite = true := by
  rcases Nat.eq_zero_or_pos m with rfl | hpos
  · rfl
  · obtain ⟨r, -, hr⟩ := toFloat_rounds hpos (h.trans (by decide))
    exact isFinite_of_value hr

theorem isNaN_ofScientific_unpacked (m : Nat) (e : Int) :
    (UnpackedFloat.ofScientific Format.binary64 m e).isNaN = false := by
  rw [UnpackedFloat.ofScientific]
  split
  · rfl
  split
  · rfl
  split
  · rfl
  split
  · exact isNaN_roundWithAccuracy ..
  · exact isNaN_roundWithAccuracy ..

/-- Digits with an exponent are a number, or infinity if that is too large. -/
theorem isNaN_ofScientific (m : Nat) (s : Bool) (e : Nat) :
    (Float.ofScientific m s e).isNaN = false := by
  rw [Float.ofScientific]
  split
  · next h =>
    have hm := isFinite_toFloat h.1
    obtain ⟨hpower, hne⟩ := powersOfTen_finite e (Nat.lt_succ_of_le h.2)
    dsimp only
    split
    · exact isNaN_divide hm hpower hne
    · exact isNaN_multiply hm hpower
  · exact isNaN_pack (isNaN_ofScientific_unpacked m _)

theorem isNaN_neg {x : Float} (h : x.isNaN = false) : (-x).isNaN = false := by
  have hneg : -x = .ofModel (.pack (unpack x).neg) := rfl
  have hx : (unpack x).isNaN = false := h
  rw [hneg]
  refine isNaN_pack ?_
  cases hux : unpack x <;> rw [hux] at hx <;> exact hx

end Number

/-! ## Numerals -/

namespace Lexer

def SomeDigits (cs : List Char) : Prop := ∀ c ∈ cs, isDigit c = true

/-- Digits, a point behind them and more digits if any; or a point and digits. -/
def Mantissa (cs : List Char) : Prop :=
  (∃ whole, Digits whole ∧
    (cs = whole ∨ ∃ fraction, SomeDigits fraction ∧ cs = whole ++ '.' :: fraction)) ∨
  ∃ fraction, Digits fraction ∧ cs = '.' :: fraction

/-- Nothing, or a letter e of either size, a sign if any, and digits. -/
def Power (cs : List Char) : Prop :=
  cs = [] ∨ ∃ e sign ds, (e = 'e' ∨ e = 'E') ∧ Sign sign ∧ Digits ds ∧ cs = e :: (sign ++ ds)

/-- Decimal text without a sign. -/
def Unsigned (cs : List Char) : Prop :=
  ∃ mantissa power, Mantissa mantissa ∧ Power power ∧ cs = mantissa ++ power

/-- Decimal text. -/
def Numeral (cs : List Char) : Prop :=
  ∃ sign mantissa power, Sign sign ∧ Mantissa mantissa ∧ Power power ∧
    cs = sign ++ (mantissa ++ power)

theorem numeral_iff {cs : List Char} :
    Numeral cs ↔ ∃ sign rest, Sign sign ∧ Unsigned rest ∧ cs = sign ++ rest := by
  constructor
  · rintro ⟨sign, mantissa, power, hs, hm, hp, rfl⟩
    exact ⟨sign, _, hs, ⟨mantissa, power, hm, hp, rfl⟩, rfl⟩
  · rintro ⟨sign, _, hs, ⟨mantissa, power, hm, hp, rfl⟩, rfl⟩
    exact ⟨sign, mantissa, power, hs, hm, hp, rfl⟩

theorem Mantissa.ne_nil {cs : List Char} (h : Mantissa cs) : cs ≠ [] := by
  rcases h with ⟨whole, hwhole, rfl | ⟨fraction, -, rfl⟩⟩ | ⟨fraction, -, rfl⟩
  · exact hwhole.1
  · exact List.append_ne_nil_of_left_ne_nil hwhole.1 _
  · exact List.cons_ne_nil _ _

theorem Mantissa.mem {cs : List Char} (h : Mantissa cs) :
    ∀ c ∈ cs, isDigit c = true ∨ c = '.' := by
  intro c hc
  rcases h with ⟨whole, hwhole, rfl | ⟨fraction, hfraction, rfl⟩⟩ | ⟨fraction, hfraction, rfl⟩
  · exact .inl (hwhole.2 c hc)
  · rcases List.mem_append.mp hc with hc | hc
    · exact .inl (hwhole.2 c hc)
    · exact (List.mem_cons.mp hc).symm.imp_left (hfraction c)
  · exact (List.mem_cons.mp hc).symm.imp_left (hfraction.2 c)

theorem Sign.mem {cs : List Char} (h : Sign cs) : ∀ c ∈ cs, c ∈ ['+', '-', '.', 'e', 'E'] := by
  rcases h with rfl | rfl | rfl <;> simp

theorem Power.mem {cs : List Char} (h : Power cs) :
    ∀ c ∈ cs, isDigit c = true ∨ c ∈ ['+', '-', '.', 'e', 'E'] := by
  rcases h with rfl | ⟨e, sign, ds, he, hs, hds, rfl⟩
  · exact nofun
  · refine List.forall_mem_cons.mpr ⟨.inr ?_, List.forall_mem_append.mpr
      ⟨fun c hc => .inr (hs.mem c hc), fun c hc => .inl (hds.2 c hc)⟩⟩
    rcases he with rfl | rfl <;> decide

/-- The characters of decimal text. -/
theorem Numeral.mem {cs : List Char} (h : Numeral cs) :
    ∀ c ∈ cs, isDigit c = true ∨ c ∈ ['+', '-', '.', 'e', 'E'] := by
  obtain ⟨sign, mantissa, power, hs, hm, hp, rfl⟩ := h
  refine List.forall_mem_append.mpr ⟨fun c hc => .inr (hs.mem c hc),
    List.forall_mem_append.mpr ⟨fun c hc => ?_, hp.mem⟩⟩
  refine (hm.mem c hc).imp_right ?_
  rintro rfl
  decide

/-- What holds neither of a digit nor of a mark holds of no character of decimal text. -/
theorem Numeral.avoids {p : Char → Bool} (hdigit : ∀ {c}, isDigit c = true → p c = false)
    (hmarks : ['+', '-', '.', 'e', 'E'].any p = false) {cs : List Char} (h : Numeral cs) :
    ∀ c ∈ cs, p c = false := by
  intro c hc
  rcases h.mem c hc with hc | hc
  · exact hdigit hc
  · exact Bool.eq_false_iff.mpr (List.any_eq_false.mp hmarks c hc)

theorem Numeral.not_blank {cs : List Char} (h : Numeral cs) : ∀ c ∈ cs, isBlank c = false :=
  h.avoids not_blank_of_isDigit rfl

theorem Numeral.not_foreign {cs : List Char} (h : Numeral cs) :
    ∀ c ∈ cs, Number.isForeign c = false :=
  h.avoids Number.not_foreign_of_isDigit rfl

/-- The first character is neither a digit nor a point. -/
theorem Power.stops {cs : List Char} (h : Power cs) :
    Stops isDigit cs ∧ ∀ rest, cs ≠ '.' :: rest := by
  rcases h with rfl | ⟨e, sign, ds, he, -, -, rfl⟩
  · exact ⟨nofun, nofun⟩
  · rcases he with rfl | rfl
    · exact ⟨by rintro _ _ ⟨⟩; rfl, by rintro _ ⟨⟩⟩
    · exact ⟨by rintro _ _ ⟨⟩; rfl, by rintro _ ⟨⟩⟩

theorem stops_point (cs : List Char) : Stops isDigit ('.' :: cs) := by
  rintro _ _ ⟨⟩
  rfl

end Lexer

namespace Number

open Lexer (SomeDigits Mantissa Power Unsigned Numeral Stops stops_point takeWhile_stops
  dropWhile_stops digits_takeWhile mem_takeWhile)

/-! ## Reading numerals -/

/-- What is behind a sign, if there is one, in texts that do not begin with a sign themselves. -/
theorem takeSign_iff {P : List Char → Prop} (hP : ∀ c cs, P (c :: cs) → c ≠ '-' ∧ c ≠ '+')
    (cs : List Char) :
    P (takeSign cs).2 ↔ ∃ sign rest, Lexer.Sign sign ∧ P rest ∧ cs = sign ++ rest := by
  constructor
  · intro h
    unfold takeSign at h
    split at h
    · exact ⟨['-'], _, .inr (.inr rfl), h, rfl⟩
    · exact ⟨['+'], _, .inr (.inl rfl), h, rfl⟩
    · exact ⟨[], _, .inl rfl, h, rfl⟩
  · rintro ⟨sign, rest, hsign, h, rfl⟩
    rcases hsign with rfl | rfl | rfl
    · rw [List.nil_append]
      unfold takeSign
      split
      · exact absurd rfl (hP _ _ h).1
      · exact absurd rfl (hP _ _ h).2
      · exact h
    · exact h
    · exact h

theorem digits_no_sign (c : Char) (cs : List Char) (h : Lexer.Digits (c :: cs)) :
    c ≠ '-' ∧ c ≠ '+' := by
  have hc := h.2 c (.head _)
  constructor <;> rintro rfl <;> cases hc

theorem exponent?_isSome_iff {cs : List Char} : (exponent? cs).isSome = true ↔ Power cs := by
  cases cs with
  | nil => exact iff_of_true rfl (.inl rfl)
  | cons c cs =>
    have hdigits : ((takeSign cs).2.isEmpty || !(takeSign cs).2.all isDigit) = false ↔
        Lexer.Digits (takeSign cs).2 := by
      rw [Bool.or_eq_false_iff, List.isEmpty_eq_false_iff, Bool.not_eq_false', List.all_eq_true]
      rfl
    have hpower : Power (c :: cs) ↔ (c = 'e' ∨ c = 'E') ∧ Lexer.Digits (takeSign cs).2 := by
      rw [takeSign_iff digits_no_sign]
      constructor
      · rintro (h | ⟨e, sign, ds, he, hs, hds, h⟩)
        · cases h
        · cases h
          exact ⟨he, sign, ds, hs, hds, rfl⟩
      · rintro ⟨he, sign, ds, hs, hds, rfl⟩
        exact .inr ⟨c, sign, ds, he, hs, hds, rfl⟩
    rw [hpower, ← hdigits, exponent?]
    by_cases he : c = 'e' ∨ c = 'E'
    · simp only [if_pos he]
      split
      · next h => simp [h]
      · next h => simp [he, h]
    · simp [he]

/-- Digits with a point among them, or at one of their ends. -/
theorem decimals?_point {whole fraction power : List Char} (hwhole : SomeDigits whole)
    (hfraction : SomeDigits fraction) (hpower : Power power) (hsome : whole ≠ [] ∨ fraction ≠ []) :
    (decimals? (whole ++ '.' :: (fraction ++ power))).isSome = true := by
  have hnone : ¬ (whole.isEmpty && fraction.isEmpty) = true := by
    simpa [or_iff_not_imp_left] using hsome
  simp only [decimals?, takeWhile_stops hwhole (stops_point _),
    dropWhile_stops hwhole (stops_point _), takeWhile_stops hfraction hpower.stops.1,
    dropWhile_stops hfraction hpower.stops.1, if_neg hnone, Option.isSome_map]
  exact exponent?_isSome_iff.mpr hpower

/-- Decimal texts without a sign are what is read. -/
theorem decimals?_isSome_iff {cs : List Char} : (decimals? cs).isSome = true ↔ Unsigned cs := by
  constructor
  · intro h
    have hcut : cs.takeWhile isDigit ++ cs.dropWhile isDigit = cs := List.takeWhile_append_dropWhile
    have hwhole : SomeDigits (cs.takeWhile isDigit) := mem_takeWhile
    unfold decimals? at h
    dsimp only at h
    split at h
    · next rest hrest =>
      have hcut' : rest.takeWhile isDigit ++ rest.dropWhile isDigit = rest :=
        List.takeWhile_append_dropWhile
      have hfraction : SomeDigits (rest.takeWhile isDigit) := mem_takeWhile
      rw [hrest, ← hcut'] at hcut
      split at h
      · cases h
      · next hsome =>
        rw [Option.isSome_map, exponent?_isSome_iff] at h
        refine ⟨cs.takeWhile isDigit ++ '.' :: rest.takeWhile isDigit, _, ?_, h, ?_⟩
        · by_cases hne : cs.takeWhile isDigit = []
          · rw [hne]
            refine .inr ⟨_, ⟨?_, hfraction⟩, rfl⟩
            simpa [hne] using hsome
          · exact .inl ⟨_, ⟨hne, hwhole⟩, .inr ⟨_, hfraction, rfl⟩⟩
        · rw [List.append_assoc, List.cons_append, hcut]
    · split at h
      · cases h
      · next hne =>
        rw [Option.isSome_map, exponent?_isSome_iff] at h
        have hdigits : Lexer.Digits (cs.takeWhile isDigit) :=
          digits_takeWhile (Bool.eq_false_iff.mpr hne)
        exact ⟨_, _, .inl ⟨_, hdigits, .inl rfl⟩, h, hcut.symm⟩
  · rintro ⟨mantissa, power, hmantissa, hpower, rfl⟩
    obtain ⟨whole, hwhole, rfl | ⟨fraction, hfraction, rfl⟩⟩ | ⟨fraction, hfraction, rfl⟩ :=
      hmantissa
    · have hne : ¬ mantissa.isEmpty = true := mt List.isEmpty_iff.mp hwhole.1
      rw [decimals?, takeWhile_stops hwhole.2 hpower.stops.1,
        dropWhile_stops hwhole.2 hpower.stops.1]
      split
      · exact absurd rfl (hpower.stops.2 _)
      · rw [if_neg hne, Option.isSome_map]
        exact exponent?_isSome_iff.mpr hpower
    · rw [List.append_assoc, List.cons_append]
      exact decimals?_point hwhole.2 hfraction hpower (.inl hwhole.1)
    · have hwhole : SomeDigits [] := List.forall_mem_nil _
      exact decimals?_point hwhole hfraction.2 hpower (.inr hfraction.1)

/-- Decimal text without a sign begins with a digit or a point. -/
theorem unsigned_no_sign (c : Char) (cs : List Char) (h : Unsigned (c :: cs)) :
    c ≠ '-' ∧ c ≠ '+' := by
  obtain ⟨mantissa, power, hm, -, hcs⟩ := h
  obtain ⟨d, ds, rfl⟩ := List.exists_cons_of_ne_nil hm.ne_nil
  obtain ⟨rfl, -⟩ := List.cons.inj hcs
  rcases hm.mem c (.head _) with hc | rfl
  · constructor <;> rintro rfl <;> cases hc
  · decide

theorem decimals?_takeSign {cs : List Char} :
    (decimals? (takeSign cs).2).isSome = true ↔ Numeral cs := by
  rw [decimals?_isSome_iff, Lexer.numeral_iff]
  exact takeSign_iff unsigned_no_sign cs

/-- Among the texts that are read, the decimal ones are those that the letters in them let through:
in a word there is another letter than an e. -/
theorem numeral_iff_reads {cs : List Char} :
    Numeral cs ↔ cs.any isForeign = false ∧ (float? cs).isSome = true := by
  constructor
  · intro h
    have hforeign : cs.any isForeign = false :=
      List.any_eq_false.mpr fun c hc => Bool.eq_false_iff.mp (h.not_foreign c hc)
    rw [float?_of_not_foreign hforeign, Option.isSome_map]
    exact ⟨hforeign, decimals?_takeSign.mpr h⟩
  · rintro ⟨hforeign, h⟩
    rw [float?_of_not_foreign hforeign, Option.isSome_map] at h
    exact decimals?_takeSign.mp h

/-- A word in letters of either size is read, and not let through. -/
example : (float? "-iNF".toList).isSome = true ∧ "-iNF".toList.any isForeign = true := by decide

/-! ## Texts that are numbers -/

/-- What is let through is not read as NaN. -/
theorem isNaN_float? {cs : List Char} (hforeign : cs.any isForeign = false) {x : Float}
    (h : float? cs = some x) : x.isNaN = false := by
  rw [float?_of_not_foreign hforeign, Option.map_eq_some_iff] at h
  obtain ⟨d, -, rfl⟩ := h
  have hvalue : d.value.isNaN = false := isNaN_ofScientific _ _ _
  split
  · exact isNaN_neg hvalue
  · exact hvalue

def infinities : List String := ["Infinity", "+Infinity", "-Infinity"]

/-- A text is a number when it is blank, or a word for infinity or decimal text between white
space. -/
theorem isNaN_ofText_iff (s : String) : (ofText s).isNaN = false ↔
    Text.trim s = "" ∨ Text.trim s ∈ infinities ∨ Numeral (Text.trim s).toList := by
  have hword (w : String) : trimChars s.toList = w.toList ↔ Text.trim s = w := by
    rw [Text.trim, ← String.toList_inj, String.toList_ofList]
  have hblank : (trimChars s.toList).isEmpty = true ↔ Text.trim s = "" := by
    rw [List.isEmpty_iff]
    exact hword ""
  have htext : (Text.trim s).toList = trimChars s.toList := String.toList_ofList
  have hinfinity : infinity.isNaN = false := by decide +kernel
  have hnegative : (-infinity).isNaN = false := isNaN_neg hinfinity
  have hnan : nan.isNaN = true := by decide +kernel
  rw [ofText]
  simp only [hword, hblank]
  by_cases hempty : Text.trim s = ""
  · rw [if_pos hempty]
    exact iff_of_true (by decide +kernel) (.inl hempty)
  rw [if_neg hempty]
  by_cases hplus : Text.trim s = "Infinity" ∨ Text.trim s = "+Infinity"
  · rw [if_pos hplus]
    exact iff_of_true hinfinity (.inr (.inl (by simp [infinities, ← or_assoc, hplus])))
  rw [if_neg hplus]
  by_cases hminus : Text.trim s = "-Infinity"
  · rw [if_pos hminus]
    exact iff_of_true hnegative (.inr (.inl (by simp [infinities, hminus])))
  rw [if_neg hminus]
  have hinfinities : Text.trim s ∉ infinities := by
    simp only [infinities, List.mem_cons, List.not_mem_nil, or_false, ← or_assoc]
    exact not_or.mpr ⟨hplus, hminus⟩
  rw [htext, numeral_iff_reads]
  cases hforeign : (trimChars s.toList).any isForeign with
  | true =>
    rw [if_pos rfl, hnan]
    simp [hempty, hinfinities]
  | false =>
    rw [if_neg Bool.false_ne_true]
    cases hread : float? (trimChars s.toList) with
    | none =>
      rw [Option.getD_none, hnan]
      simp [hempty, hinfinities]
    | some x => exact iff_of_true (isNaN_float? hforeign hread) (.inr (.inr ⟨rfl, rfl⟩))

/-- Decimal text is a number. -/
theorem isNaN_ofText_numeral {s : String} (h : Numeral s.toList) : (ofText s).isNaN = false := by
  have htrim : Text.trim s = s := by
    rw [Text.trim, trimChars_of_not_blank h.not_blank, String.ofList_toList]
  refine (isNaN_ofText_iff s).mpr (.inr (.inr ?_))
  rwa [htrim]

/-! ## Tokens -/

/-- The tokens of numbers are decimal texts. -/
theorem language_numeral {cs : List Char} (h : LiteralKind.number.Language cs) : Numeral cs := by
  obtain ⟨whole, fraction, exponent, hwhole, hfraction, hexponent, rfl⟩ := h
  refine ⟨[], whole ++ fraction, exponent, .inl rfl, .inl ⟨whole, hwhole, ?_⟩, ?_, ?_⟩
  · rcases hfraction with rfl | ⟨ds, hds, rfl⟩
    · exact .inl (List.append_nil whole)
    · exact .inr ⟨ds, hds.2, rfl⟩
  · rcases hexponent with rfl | ⟨sign, ds, hs, hds, rfl⟩
    · exact .inl rfl
    · exact .inr ⟨'e', sign, ds, .inl rfl, hs, hds, rfl⟩
  · rw [List.nil_append, List.append_assoc]

/-! ## Written numbers -/

/-- Digits without an exponent are a mantissa. -/
theorem plain_mantissa (d : Digits) : Mantissa d.plain := by
  unfold Digits.plain
  dsimp only
  split
  · have hdigits := digitsOf_digits d.coefficient
    refine .inl ⟨_, ⟨List.append_ne_nil_of_left_ne_nil hdigits.1 _, ?_⟩, .inl rfl⟩
    refine List.forall_mem_append.mpr ⟨hdigits.2, fun c hc => ?_⟩
    rw [List.eq_of_mem_replicate hc]
    rfl
  · let places := (-d.exponent).toNat
    let ds := padded (places + 1) d.coefficient
    have hdigits : SomeDigits ds := isDigit_of_mem_padded
    have hlength : places < ds.length := by
      show places < (padded (places + 1) d.coefficient).length
      rw [padded, List.length_append, List.length_replicate]
      omega
    have hwhole : ds.take (ds.length - places) ≠ [] := by
      refine List.ne_nil_of_length_pos ?_
      rw [List.length_take]
      omega
    exact .inl ⟨ds.take (ds.length - places),
      ⟨hwhole, fun c hc => hdigits c (List.mem_of_mem_take hc)⟩,
      .inr ⟨ds.drop (ds.length - places), fun c hc => hdigits c (List.mem_of_mem_drop hc), rfl⟩⟩

/-- The text of a number is that of a number. -/
theorem isNaN_formulaText {x : Float} (h : x.isNaN = false) :
    (ofText (formulaText x)).isNaN = false := by
  rw [formulaText, h, if_neg Bool.false_ne_true]
  split
  · unfold withSign
    split <;> rfl
  split
  · rfl
  · refine isNaN_ofText_numeral ?_
    have hmantissa := plain_mantissa (digits .up x)
    rw [withSign, String.toList_ofList]
    split
    · exact ⟨['-'], _, [], .inr (.inr rfl), hmantissa, .inl rfl, by simp⟩
    · exact ⟨[], _, [], .inl rfl, hmantissa, .inl rfl, by simp⟩

end Number

open Number Lexer

/-- A text is a number when it is blank, or a word for infinity or decimal text between white space.
Hence the token of a number always has a number as its value, and the text of a number is that of a
number again. -/
theorem numeric_text :
    (∀ s : String, (ofText s).isNaN = false ↔
      Text.trim s = "" ∨ Text.trim s ∈ infinities ∨ Numeral (Text.trim s).toList) ∧
    (∀ (formula : String), ∀ t ∈ tokens formula, t.kind = .literal .number →
      ∀ (functions : Registry Body) (vars : Value), ∃ x,
        (Term.literal t).eval functions vars = .ok (.number x) ∧ x.isNaN = false) ∧
    ∀ x : Float, x.isNaN = false → (ofText (formulaText x)).isNaN = false := by
  refine ⟨isNaN_ofText_iff, fun formula t ht hkind functions vars => ?_, fun x => isNaN_formulaText⟩
  have hlanguage := (scan_found formula _ (mem_tokens.mp ht)).language
  rw [hkind] at hlanguage
  refine ⟨ofText t.text, ?_, isNaN_ofText_numeral (language_numeral hlanguage)⟩
  rw [Term.eval, Term.evalIn, Eval.literal, hkind]
  rfl

/-- A numeral with a bare point between white space, a word that is none, a literal, and the text
of a number below the point. -/
theorem numeric_text_shapes :
    (ofText "\u2003+.5E-3 ").isNaN = false ∧ (ofText "infinity").isNaN = true ∧
      (∀ (functions : Registry Body) (vars : Value), ∃ x,
        (Term.literal ⟨.literal .number, "1.5e3", 1⟩).eval functions vars = .ok (.number x) ∧
          x.isNaN = false) ∧
      (ofText (formulaText (-0.1))).isNaN = false := by
  obtain ⟨hiff, htoken, hwritten⟩ := numeric_text
  have htokens : tokens "-1.5e3" =
      [⟨.operator .subtract, "-", 0⟩, ⟨.literal .number, "1.5e3", 1⟩] := by cbv
  have hdigit (c : Char) (h : isDigit c = true) : Digits [c] :=
    ⟨List.cons_ne_nil c [], List.forall_mem_singleton.mpr h⟩
  refine ⟨(hiff _).mpr (.inr (.inr ?_)), ?_, htoken "-1.5e3" _ (by simp [htokens]) rfl,
    hwritten (-0.1) (by decide +kernel)⟩
  · have htrim : (Text.trim "\u2003+.5E-3 ").toList =
        ['+'] ++ (['.', '5'] ++ ['E', '-', '3']) := by cbv
    exact ⟨_, _, _, .inr (.inl rfl), .inr ⟨['5'], hdigit '5' rfl, rfl⟩,
      .inr ⟨'E', ['-'], ['3'], .inr rfl, .inr (.inr rfl), hdigit '3' rfl, rfl⟩, htrim⟩
  · rw [← Bool.not_eq_false, hiff]
    have htrim : Text.trim "infinity" = "infinity" := by cbv
    rw [htrim, numeral_iff_reads]
    decide +kernel

end Formula
