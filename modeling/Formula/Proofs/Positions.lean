import Mathlib
import Formula.Proofs.DateTexts
import Formula.Proofs.Integers
import Formula.Value.Access

/-!
The position that a text names, as a key in brackets and as a name in a path.

* `float?_of_not_foreign`: where no letter but an e stands, the words that are read play no part;
* `ofText_digits`, `not_whole_ofText`: digits are read as the number nearest to what they write, and
  other plain names as no whole number;
* `truncate_ofNat` and `le_truncate_ofNat`: below `2 ^ 53` that number is the integer itself, and
  otherwise it is no smaller one;
* `item_of_name`: hence a key finds the item that the same name in a path finds.
-/

namespace Formula

open Formula.Text

namespace Lexer

/-- The characters of a name in a path, without the letters that an exponent begins with. -/
def inPlainName (c : Char) : Bool := inPath c && c != '.' && c != 'e' && c != 'E'

theorem inPath_of_inPlainName {c : Char} (h : inPlainName c = true) : inPath c = true := by
  simp only [inPlainName, Bool.and_eq_true] at h
  exact h.1.1.1

end Lexer

namespace Number

open Float.Model.UnpackedFloat (Sign)
open Lexer (inPlainName inPath_of_inPlainName)

/-! ## Words and their letters -/

theorem toLower_eq_n {c : Char} (h : c.toLower = 'n') : c = 'n' ∨ c = 'N' := by
  rw [Char.toLower] at h
  split at h
  · next hc =>
    have hval := congrArg (fun d : Char => d.val.toNat) h
    have hlow := UInt32.le_iff_toNat_le.mp hc.1
    have hhigh := UInt32.le_iff_toNat_le.mp hc.2
    refine .inr (Char.ext (UInt32.toNat.inj ?_))
    simp at hval hlow hhigh ⊢
    omega
  · exact .inl h

/-- There is an n in each word. -/
theorem any_isForeign_of_word? {cs : List Char} {x : Float} (h : word? cs = some x) :
    cs.any isForeign = true := by
  have hn : 'n' ∈ cs.map Char.toLower := by
    unfold word? at h
    dsimp only at h
    split at h
    · next hword => rcases hword with hword | hword <;> rw [hword] <;> decide
    · split at h
      · next hword => rw [hword]; decide
      · cases h
  obtain ⟨c, hc, hlower⟩ := List.mem_map.mp hn
  refine List.any_eq_true.mpr ⟨c, hc, ?_⟩
  rcases toLower_eq_n hlower with rfl | rfl <;> rfl

theorem not_foreign_of_isDigit {c : Char} (h : isDigit c = true) : isForeign c = false := by
  have hhigh : c.val.toNat ≤ 57 := by
    simp only [isDigit, Bool.and_eq_true, decide_eq_true_eq, Char.le_def,
      UInt32.le_iff_toNat_le] at h
    exact h.2
  have halpha : c.isAlpha = false := by
    rw [Bool.eq_false_iff]
    intro hc
    simp only [Char.isAlpha, Char.isUpper, Char.isLower, Bool.or_eq_true, Bool.and_eq_true,
      decide_eq_true_eq, UInt32.le_iff_toNat_le, ge_iff_le] at hc
    have hlow : 65 ≤ c.val.toNat := hc.elim And.left fun hc => (by decide : 65 ≤ 97).trans hc.1
    omega
  rw [isForeign, halpha]
  rfl

theorem mem_takeSign {c : Char} {cs : List Char} (h : c ∈ (takeSign cs).2) : c ∈ cs := by
  unfold takeSign at h
  split at h
  · exact .tail _ h
  · exact .tail _ h
  · exact h

/-- Without a letter that begins no exponent, only decimal text is read. -/
theorem float?_of_not_foreign {cs : List Char} (h : cs.any isForeign = false) :
    float? cs = (decimals? (takeSign cs).2).map fun d =>
      if (takeSign cs).1 then -d.value else d.value := by
  have hword : word? (takeSign cs).2 = none := by
    rw [Option.eq_none_iff_forall_ne_some]
    intro x hx
    obtain ⟨c, hc, hforeign⟩ := List.any_eq_true.mp (any_isForeign_of_word? hx)
    exact List.any_eq_false.mp h c (mem_takeSign hc) hforeign
  have hmagnitude : magnitude? (takeSign cs).2 =
      (decimals? (takeSign cs).2).map Decimals.value := by
    unfold magnitude?
    rw [hword]
  show (magnitude? (takeSign cs).2).map _ = _
  rw [hmagnitude, Option.map_map]
  rfl

/-! ## Reading names as numbers -/

theorem takeSign_name {cs : List Char} (h : ∀ c ∈ cs, inPlainName c = true) :
    takeSign cs = (false, cs) := by
  unfold takeSign
  split
  · cases h '-' (.head _)
  · cases h '+' (.head _)
  · rfl

theorem decimals?_digits {cs : List Char} (h : Lexer.Digits cs) :
    decimals? cs = some ⟨cs, [], 0⟩ := by
  have htake : cs.takeWhile isDigit = cs := List.takeWhile_eq_self_iff.mpr h.2
  have hdrop : cs.dropWhile isDigit = [] := List.dropWhile_eq_nil_iff.mpr h.2
  rw [decimals?, htake, hdrop]
  simp [exponent?, h.1]

/-- Behind its digits, a plain name goes on with neither a point nor an exponent. -/
theorem decimals?_name {cs : List Char} (h : ∀ c ∈ cs, inPlainName c = true)
    (hdigits : ¬ Lexer.Digits cs) : decimals? cs = none := by
  rw [decimals?]
  cases hrest : cs.dropWhile isDigit with
  | nil =>
    have hall : ∀ c ∈ cs, isDigit c = true := List.dropWhile_eq_nil_iff.mp hrest
    obtain rfl : cs = [] := by_contra fun hne => hdigits ⟨hne, hall⟩
    rfl
  | cons c rest =>
    have hmem : c ∈ cs := (List.dropWhile_suffix isDigit).mem (by rw [hrest]; exact .head _)
    have hc := h c hmem
    simp only [inPlainName, Bool.and_eq_true, bne_iff_ne] at hc
    obtain ⟨⟨⟨-, hpoint⟩, hsmall⟩, hcapital⟩ := hc
    have hexponent : exponent? (c :: rest) = none := by
      rw [exponent?, if_neg (not_or.mpr ⟨hsmall, hcapital⟩)]
    split
    · next heq => exact absurd (List.cons.inj heq).1 hpoint
    · rw [hexponent]
      split <;> rfl

/-- A plain name is a word for infinity, or decimal text or no number. -/
theorem ofText_name {s : String} (hne : s ≠ "") (h : ∀ c ∈ s.toList, inPlainName c = true) :
    ofText s =
      if s.toList = "Infinity".toList then infinity
      else if s.toList.any isForeign then nan
      else ((decimals? s.toList).map Decimals.value).getD nan := by
  have hblank : ∀ c ∈ s.toList, isBlank c = false := fun c hc =>
    Lexer.not_blank_of_inPath (inPath_of_inPlainName (h c hc))
  have hplus : s.toList ≠ "+Infinity".toList := fun heq => by cases h '+' (heq ▸ .head _)
  have hminus : s.toList ≠ "-Infinity".toList := fun heq => by cases h '-' (heq ▸ .head _)
  have hempty : s.toList.isEmpty = false := by
    rw [List.isEmpty_eq_false_iff]
    exact mt String.toList_eq_nil_iff.mp hne
  simp only [ofText, trimChars_of_not_blank hblank, hempty, hplus, hminus, or_false,
    Bool.false_eq_true, ↓reduceIte]
  cases hforeign : s.toList.any isForeign with
  | true => rfl
  | false =>
    simp only [float?_of_not_foreign hforeign, takeSign_name h, Bool.false_eq_true, ↓reduceIte]

theorem inPlainName_of_isDigit {c : Char} (h : isDigit c = true) : inPlainName c = true := by
  have hpath := Lexer.inPath_of_inName (Lexer.inName_of_isDigit h)
  have hne (d : Char) (hd : isDigit d = false) : c ≠ d := by
    rintro rfl
    rw [h] at hd
    cases hd
  simp only [inPlainName, hpath, Bool.true_and, Bool.and_eq_true, bne_iff_ne]
  exact ⟨⟨hne '.' rfl, hne 'e' rfl⟩, hne 'E' rfl⟩

/-- Digits are read as the number nearest to what they write. -/
theorem ofText_digits {s : String} (h : Lexer.Digits s.toList) :
    ofText s = Float.ofNat (digitsValue s.toList) := by
  have hname : ∀ c ∈ s.toList, inPlainName c = true := fun c hc => inPlainName_of_isDigit (h.2 c hc)
  have hne : s ≠ "" := fun hs => h.1 (hs ▸ rfl)
  have hword : s.toList ≠ "Infinity".toList := fun heq => by cases h.2 'I' (heq ▸ .head _)
  have hforeign : s.toList.any isForeign = false :=
    List.any_eq_false.mpr fun c hc => Bool.eq_false_iff.mp (not_foreign_of_isDigit (h.2 c hc))
  rw [ofText_name hne hname, if_neg hword, hforeign]
  simp only [decimals?_digits h, Option.map_some, Option.getD_some, Bool.false_eq_true, ↓reduceIte,
    Decimals.value, List.append_nil]
  rfl

/-- Other plain names are no whole numbers. -/
theorem not_whole_ofText {s : String} (hne : s ≠ "") (h : ∀ c ∈ s.toList, inPlainName c = true)
    (hdigits : ¬ Lexer.Digits s.toList) : isWhole (ofText s) = false := by
  rw [ofText_name hne h, decimals?_name h hdigits]
  split
  · rfl
  · split <;> rfl

/-! ## Integers of any size -/

/-- Doubles of integers have no fraction. -/
theorem isWhole_of_value {x : Float} {n : Int} (h : value? x = some (n : ℚ)) :
    isWhole x = true := by
  rcases rational_eq_some h with ⟨s, hux, -⟩ | ⟨s, m, e, hm, hux, hn⟩
  · rw [isWhole, hux]
  · have hmagnitude : dyadic m e = n.natAbs := by
      rw [← abs_signed (dyadic_pos hm e).le, ← hn, Nat.cast_natAbs, Int.cast_abs]
    rw [isWhole, hux]
    refine decide_eq_true ?_
    unfold wholePart
    split
    · rfl
    · next he =>
      -- The fraction is less than one, and the difference of two integers.
      rw [dyadic_wholePart m (not_le.mp he)] at hmagnitude
      generalize hd : Nat.pow 2 (-e).toNat = d at hmagnitude
      have hdpos : 0 < d := hd ▸ Nat.two_pow_pos _
      have hlt : ((m % d : Nat) : ℚ) / d < 1 :=
        (div_lt_one (by exact_mod_cast hdpos)).mpr (by exact_mod_cast Nat.mod_lt m hdpos)
      have hfraction : ((m % d : Nat) : ℚ) / d = n.natAbs - (m / d : Nat) := by linarith
      have hnonneg : (0 : ℚ) ≤ (m % d : Nat) / d := by positivity
      have hsame : n.natAbs = m / d := by
        refine eq_of_near ?_
        rw [← hfraction, abs_of_nonneg hnonneg]
        exact hlt
      rw [hsame, sub_self, div_eq_zero_iff] at hfraction
      rcases hfraction with hzero | hzero
      · exact_mod_cast hzero
      · exact absurd (by exact_mod_cast hzero) hdpos.ne'

theorem truncate_ofNat {n : Nat} (h : n < 2 ^ 53) : truncate (Float.ofNat n) = n :=
  truncate_of_value (value_natCast h)

theorem isWhole_ofNat {n : Nat} (h : n < 2 ^ 53) : isWhole (Float.ofNat n) = true :=
  isWhole_of_value (n := n) (value_natCast h)

/-- A large integer is read as one that is large, too, if it is finite. -/
theorem le_truncate_ofNat {n : Nat} (h : 2 ^ 53 ≤ n) (hwhole : isWhole (Float.ofNat n) = true) :
    2 ^ 53 ≤ truncate (Float.ofNat n) := by
  have hfinite : ∃ r, value? (Float.ofNat n) = some r := by
    rw [isWhole] at hwhole
    split at hwhole
    · next hux => exact ⟨_, value_of_unpack hux⟩
    · next s hux => exact ⟨0, by rw [value?, hux, rational?]⟩
    · cases hwhole
  obtain ⟨r, hr⟩ := hfinite
  have hle := le_value_ofNat h hr
  obtain ⟨m, e, hm, hux, rfl⟩ := unpack_of_pos (by linarith) hr
  have hpart : 2 ^ 53 ≤ (wholePart m e).1 := by
    rw [wholePart_floor]
    exact Nat.le_floor (by exact_mod_cast hle)
  rw [truncate, hux]
  show (2 ^ 53 : Int) ≤ ((wholePart m e).1 : Int)
  exact_mod_cast hpart

end Number

/-! ## Positions -/

namespace Value

open Lexer (inPlainName)

theorem position?_digits {s : String} (h : Lexer.Digits s.toList)
    (hlt : digitsValue s.toList < 2 ^ 53) :
    (Value.string s).position? = some (digitsValue s.toList) := by
  simp [position?, toNumber, Number.ofText_digits h, Number.truncate_ofNat hlt,
    Number.isWhole_ofNat hlt]

/-- Digits that write a large number name no small position. -/
theorem le_position?_digits {s : String} (h : Lexer.Digits s.toList)
    (hle : 2 ^ 53 ≤ digitsValue s.toList) {i : Nat} (hi : (Value.string s).position? = some i) :
    2 ^ 53 ≤ i := by
  simp only [position?, toNumber, Number.ofText_digits h, Option.ite_none_right_eq_some,
    Option.some.injEq] at hi
  obtain ⟨⟨hwhole, -⟩, rfl⟩ := hi
  have htruncate := Number.le_truncate_ofNat hle hwhole
  omega

theorem position?_name {s : String} (hne : s ≠ "") (h : ∀ c ∈ s.toList, inPlainName c = true)
    (hdigits : ¬ Lexer.Digits s.toList) : (Value.string s).position? = none := by
  simp only [position?, toNumber, Number.not_whole_ofText hne h hdigits, Bool.false_eq_true,
    false_and, ↓reduceIte]

/-- A plain name has no plus sign in front of its digits. -/
theorem pathPosition?_eq {s : String} (h : ∀ c ∈ s.toList, inPlainName c = true) :
    pathPosition? s = if s.toList.isEmpty || !s.toList.all isDigit then none
      else some (digitsValue s.toList) := by
  unfold pathPosition?
  split
  · next cs heq => cases h '+' (heq ▸ .head _)
  · rfl

theorem pathPosition?_digits {s : String} (h : Lexer.Digits s.toList) :
    pathPosition? s = some (digitsValue s.toList) := by
  have hall : s.toList.all isDigit = true := List.all_eq_true.mpr h.2
  have hempty : s.toList.isEmpty = false := List.isEmpty_eq_false_iff.mpr h.1
  rw [pathPosition?_eq fun c hc => Number.inPlainName_of_isDigit (h.2 c hc), hall, hempty]
  rfl

theorem pathPosition?_name {s : String} (h : ∀ c ∈ s.toList, inPlainName c = true)
    (hdigits : ¬ Lexer.Digits s.toList) : pathPosition? s = none := by
  rw [pathPosition?_eq h, if_pos]
  by_contra hfalse
  simp only [Bool.or_eq_true, Bool.not_eq_true', not_or, Bool.not_eq_true, Bool.not_eq_false,
    List.isEmpty_eq_false_iff, List.all_eq_true] at hfalse
  exact hdigits hfalse

/-- In a list of a usual length a key finds the item that the same name in a path finds. -/
theorem item_of_name {α : Type} {items : List α} (hlength : items.length < 2 ^ 53) {s : String}
    (hne : s ≠ "") (h : ∀ c ∈ s.toList, inPlainName c = true) :
    ((Value.string s).position?.bind fun i => items[i]?) =
      (pathPosition? s).bind fun i => items[i]? := by
  by_cases hdigits : Lexer.Digits s.toList
  · rw [pathPosition?_digits hdigits]
    rcases Nat.lt_or_ge (digitsValue s.toList) (2 ^ 53) with hlt | hle
    · rw [position?_digits hdigits hlt]
    · -- Neither position is one of an item.
      have hnone {i : Nat} (hi : 2 ^ 53 ≤ i) : items[i]? = none :=
        List.getElem?_eq_none (by omega)
      rw [Option.bind_some, hnone hle, Option.bind_eq_none_iff]
      exact fun i hi => hnone (le_position?_digits hdigits hle hi)
  · rw [pathPosition?_name h hdigits, position?_name hne h hdigits]

end Value

end Formula
