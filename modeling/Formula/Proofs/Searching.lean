import Mathlib
import Formula.Library.Text

/-!
Where a text is found in another, letter case ignored. Both are searched in small letters, so that
places are counted in the small letters of the text and not in the text itself.

* `find?_some` and `find?_none`: a search finds the first place, or there is none;
* `lowerAfter_append` and `length_lowerBetween`: the small letters of a part of a text, which are
  one more for each capital I with a dot above;
* `search_positions`: hence the place that `SEARCH` reports, and how far it may be off;
  `search_positions_off` are texts where it is.
-/

namespace Formula

namespace Text

/-! ## Finding -/

/-- The first place where characters stand in others. -/
structure FirstAt (needle cs : List Char) (n : Nat) : Prop where
  stands : needle <+: cs.drop n
  first : ∀ m < n, ¬ needle <+: cs.drop m

theorem find?_some {needle cs : List Char} {n : Nat} (h : find? needle cs = some n) :
    FirstAt needle cs n := by
  induction cs generalizing n with
  | nil =>
    rw [find?] at h
    split at h
    · next hempty =>
      cases h
      rw [List.isEmpty_iff.mp hempty]
      exact ⟨List.nil_prefix, fun m hm => absurd hm (Nat.not_lt_zero m)⟩
    · cases h
  | cons c cs ih =>
    rw [find?] at h
    split at h
    · next hhere =>
      cases h
      exact ⟨List.isPrefixOf_iff_prefix.mp hhere, fun m hm => absurd hm (Nat.not_lt_zero m)⟩
    · next hhere =>
      obtain ⟨k, hk, rfl⟩ := Option.map_eq_some_iff.mp h
      obtain ⟨hstands, hfirst⟩ := ih hk
      refine ⟨hstands, fun m hm => ?_⟩
      cases m with
      | zero => exact mt List.isPrefixOf_iff_prefix.mpr hhere
      | succ m => exact hfirst m (Nat.lt_of_succ_lt_succ hm)

theorem find?_none {needle cs : List Char} (h : find? needle cs = none) : ¬ needle <:+: cs := by
  induction cs with
  | nil =>
    rw [find?] at h
    split at h
    · cases h
    · next hempty => exact fun hinfix => hempty (List.isEmpty_iff.mpr (List.infix_nil.mp hinfix))
  | cons c cs ih =>
    rw [find?] at h
    split at h
    · cases h
    · next hhere =>
      intro hinfix
      rcases List.infix_cons_iff.mp hinfix with hbegins | hinside
      · exact hhere (List.isPrefixOf_iff_prefix.mpr hbegins)
      · exact ih (Option.map_eq_none_iff.mp h) hinside

/-- Where a text stands in its small letters, the first place is no later one. -/
theorem FirstAt.le {needle front rest : List Char} {n : Nat}
    (h : FirstAt needle (front ++ (needle ++ rest)) n) : n ≤ front.length := by
  refine Nat.le_of_not_lt fun hlt => h.first _ hlt ?_
  rw [List.drop_left]
  exact List.prefix_append _ _

/-- What is searched for fits behind the place. -/
theorem FirstAt.add_le {needle cs : List Char} {n : Nat} (hne : needle ≠ [])
    (h : FirstAt needle cs n) : n + needle.length ≤ cs.length := by
  have hlength := h.stands.length_le
  have hpos := List.length_pos_iff.mpr hne
  rw [List.length_drop] at hlength
  omega

/-! ## Small letters -/

/-- The small letters of characters between `before`, read backwards, and `after`. -/
def lowerBetween (before cs after : List Char) : List Char :=
  match cs with
  | [] => []
  | c :: rest =>
    (if c = capitalSigma then [lowerSigma before (rest ++ after)] else lowerChar c) ++
      lowerBetween (c :: before) rest after

/-- The small letters of a text are those of its parts, each in its place. -/
theorem lowerAfter_append (before xs ys : List Char) :
    lowerAfter before (xs ++ ys) =
      lowerBetween before xs ys ++ lowerAfter (xs.reverse ++ before) ys := by
  induction xs generalizing before with
  | nil => rfl
  | cons x xs ih =>
    rw [List.cons_append, lowerAfter, lowerBetween, ih, List.append_assoc, List.reverse_cons,
      List.append_assoc, List.singleton_append]

theorem lowerAfter_eq (before cs : List Char) :
    lowerAfter before cs = lowerBetween before cs [] := by
  have h := lowerAfter_append before cs []
  rwa [List.append_nil, lowerAfter, List.append_nil] at h

theorem length_lowerChar (c : Char) :
    (lowerChar c).length = if c = dottedCapitalI then 2 else 1 := by
  unfold lowerChar
  split
  · rfl
  · split <;> rfl

/-- Only the capital I with a dot above takes two small letters. -/
theorem length_lowerBetween (before cs after : List Char) :
    (lowerBetween before cs after).length = cs.length + cs.count dottedCapitalI := by
  induction cs generalizing before with
  | nil => rfl
  | cons c cs ih =>
    have hfirst : (if c = capitalSigma then [lowerSigma before (cs ++ after)] else
        lowerChar c).length = if c = dottedCapitalI then 2 else 1 := by
      split
      · next hsigma =>
        rw [hsigma]
        rfl
      · exact length_lowerChar c
    rw [lowerBetween, List.length_append, hfirst, ih, List.length_cons, List.count_cons]
    simp only [beq_iff_eq]
    split <;> omega

/-- Without a capital sigma, small letters do not depend on what is around. -/
theorem lowerBetween_of_not_sigma {cs : List Char} (h : capitalSigma ∉ cs)
    (before after : List Char) : lowerBetween before cs after = cs.flatMap lowerChar := by
  induction cs generalizing before with
  | nil => rfl
  | cons c cs ih =>
    have hc : c ≠ capitalSigma := fun heq => h (heq ▸ .head _)
    rw [lowerBetween, if_neg hc, ih fun hmem => h (.tail _ hmem), List.flatMap_cons]

/-- Such a text has the same small letters everywhere. -/
theorem lower_in_place {f : String} (h : capitalSigma ∉ f.toList) (before after : List Char) :
    lowerBetween before f.toList after = (lower f).toList := by
  rw [lower, String.toList_ofList, lowerAfter_eq, lowerBetween_of_not_sigma h,
    lowerBetween_of_not_sigma h]

theorem length_lower (s : String) :
    (lower s).toList.length = s.length + s.toList.count dottedCapitalI := by
  rw [lower, String.toList_ofList, lowerAfter_eq, length_lowerBetween, String.length_toList]

/-- The small letters of three texts one after another. -/
theorem lower_append (u g v : String) :
    (lower (u ++ g ++ v)).toList = lowerBetween [] u.toList (g ++ v).toList ++
      (lowerBetween u.toList.reverse g.toList v.toList ++
        lowerAfter (u ++ g).toList.reverse v.toList) := by
  rw [lower, String.toList_ofList, String.append_assoc, String.toList_append, lowerAfter_append,
    String.toList_append, lowerAfter_append, List.append_nil, String.toList_append,
    List.reverse_append]

/-- In a text without a capital I with a dot above, the place is that of characters which have the
small letters that are searched for. -/
theorem FirstAt.exists_append {f within : String} {n : Nat} (hf : (lower f).toList ≠ [])
    (hdotted : dottedCapitalI ∉ within.toList)
    (h : FirstAt (lower f).toList (lower within).toList n) :
    ∃ u g v : String, within = u ++ g ++ v ∧ u.length = n ∧
      lowerBetween u.toList.reverse g.toList v.toList = (lower f).toList := by
  have hle := h.add_le hf
  have hplain (cs : List Char) (hcs : cs ⊆ within.toList) : cs.count dottedCapitalI = 0 :=
    List.count_eq_zero.mpr fun hmem => hdotted (hcs hmem)
  rw [length_lower within, hplain _ (List.Subset.refl _), ← String.length_toList] at hle
  generalize hk : (lower f).toList.length = k at hle
  let u := String.ofList (within.toList.take n)
  let g := String.ofList ((within.toList.drop n).take k)
  let v := String.ofList ((within.toList.drop n).drop k)
  have hwithin : within = u ++ g ++ v := by
    rw [← String.toList_inj]
    simp [u, g, v, String.toList_append]
  have hu : u.length = n := by
    rw [← String.length_toList, String.toList_ofList, List.length_take, Nat.min_eq_left (by omega)]
  have hg : g.toList.length = k := by
    rw [String.toList_ofList, List.length_take, List.length_drop, Nat.min_eq_left (by omega)]
  have hfront : (lowerBetween [] u.toList (g ++ v).toList).length = n := by
    have hsubset : u.toList ⊆ within.toList := by
      rw [String.toList_ofList]
      exact List.take_subset n _
    rw [length_lowerBetween, hplain _ hsubset, String.length_toList, hu, Nat.add_zero]
  have hpart : (lowerBetween u.toList.reverse g.toList v.toList).length = k := by
    have hsubset : g.toList ⊆ within.toList := by
      rw [String.toList_ofList]
      exact List.Subset.trans (List.take_subset k _) (List.drop_subset n _)
    rw [length_lowerBetween, hplain _ hsubset, hg, Nat.add_zero]
  have hstands := h.stands
  rw [hwithin, lower_append, ← hfront, List.drop_left] at hstands
  refine ⟨u, g, v, hwithin, hu, ?_⟩
  rw [List.prefix_iff_eq_take, hk, ← hpart, List.take_left] at hstands
  exact hstands.symm

end Text

namespace Library

open Text

/-! ## The reported place -/

/-- `SEARCH` reports the place in small letters, counted from 1, or 0. -/
theorem search_eq (f within : String) :
    search [.string f, .string within] =
      .ok (.number (match find? (Text.lower f).toList (Text.lower within).toList with
        | some n => Float.ofNat (n + 1)
        | none => Float.ofNat 0)) := by
  have hsearch : search? f within (count .undefined 1 - 1) =
      find? (Text.lower f).toList (Text.lower within).toList := by
    show (if 0 ≤ (Text.lower within).toList.length then
      (find? (Text.lower f).toList (Text.lower within).toList).map (· + 0) else none) = _
    rw [if_pos (Nat.zero_le _)]
    exact Option.map_id'
  have hzero : (0.0 : Float) = Float.ofNat 0 := by decide +kernel
  show Except.ok (Value.number (match search? f within (count .undefined 1 - 1) with
    | some n => Float.ofNat (n + 1)
    | none => 0.0)) = _
  rw [hsearch, hzero]

/-- The place that `SEARCH` reports is the first one in small letters. It is at most the number of
characters and of capital Is with a dot above together. The text that is searched for is found where
it stands, if it has the small letters there that it has alone; and without such an I what is found
stands there. -/
theorem search_positions (f within : String) (hf : f ≠ "") : ∃ p : Nat,
    search [.string f, .string within] = .ok (.number (Float.ofNat p)) ∧
      p ≤ within.length + within.toList.count dottedCapitalI ∧
      (p = 0 → ¬ (Text.lower f).toList <:+: (Text.lower within).toList) ∧
      (0 < p → FirstAt (Text.lower f).toList (Text.lower within).toList (p - 1)) ∧
      (0 < p → dottedCapitalI ∉ within.toList →
        ∃ u g v : String, within = u ++ g ++ v ∧ u.length = p - 1 ∧
          lowerBetween u.toList.reverse g.toList v.toList = (Text.lower f).toList) ∧
      ∀ u v : String, within = u ++ f ++ v →
        lowerBetween u.toList.reverse f.toList v.toList = (Text.lower f).toList →
          1 ≤ p ∧ p ≤ u.length + u.toList.count dottedCapitalI + 1 := by
  have hlower : (Text.lower f).toList ≠ [] := by
    have hchars := List.length_pos_iff.mpr (mt String.toList_eq_nil_iff.mp hf)
    rw [String.length_toList] at hchars
    rw [← List.length_pos_iff, length_lower]
    omega
  rw [search_eq]
  cases hfind : find? (Text.lower f).toList (Text.lower within).toList with
  | none =>
    have hnone := find?_none hfind
    refine ⟨0, rfl, Nat.zero_le _, fun _ => hnone, nofun, nofun, fun u v hwithin hplace => ?_⟩
    rw [hwithin, lower_append, hplace] at hnone
    exact absurd (List.infix_append' _ _ _) hnone
  | some n =>
    have hfirst := find?_some hfind
    have hle := hfirst.add_le hlower
    have hpos := List.length_pos_iff.mpr hlower
    rw [length_lower within] at hle
    refine ⟨n + 1, rfl, by omega, nofun, fun _ => hfirst,
      fun _ hdotted => hfirst.exists_append hlower hdotted, fun u v hwithin hplace => ?_⟩
    rw [hwithin, lower_append, hplace] at hfirst
    have hearly := hfirst.le
    rw [length_lowerBetween, String.length_toList] at hearly
    exact ⟨Nat.succ_pos n, Nat.succ_le_succ hearly⟩

/-- A capital letter in front of the text itself is found first. -/
theorem search_positions_capital : ∃ p : Nat,
    search [.string "b", .string "aBb"] = .ok (.number (Float.ofNat p)) ∧ 1 ≤ p ∧ p ≤ 3 ∧
      FirstAt ['b'] ['a', 'b', 'b'] (p - 1) := by
  have hb : (Text.lower "b").toList = ['b'] := by decide +kernel
  have hwithin : (Text.lower "aBb").toList = ['a', 'b', 'b'] := by decide +kernel
  obtain ⟨p, hp, -, -, hfirst, -, hplace⟩ := search_positions "b" "aBb" (by decide)
  obtain ⟨hpos, hle⟩ := hplace "aB" "" rfl (lower_in_place (by decide) _ _)
  rw [hb, hwithin] at hfirst
  exact ⟨p, hp, hpos, hle, hfirst hpos⟩

/-- A place that is off by one: the I in front of it has two small letters. And a text that is not
found: a sigma at the end of a word is another letter than a sigma alone. -/
theorem search_positions_off :
    (search [.string "a", .string "\u0130a"] = .ok (.number (Float.ofNat 3)) ∧
        "\u0130a".length = 2) ∧
      search [.string "\u03A3", .string "a\u03A3"] = .ok (.number (Float.ofNat 0)) := by
  have hdotted : find? (Text.lower "a").toList (Text.lower "\u0130a").toList = some 2 := by
    decide +kernel
  have hsigma : find? (Text.lower "\u03A3").toList (Text.lower "a\u03A3").toList = none := by
    decide +kernel
  refine ⟨⟨?_, by decide⟩, ?_⟩
  · rw [search_eq, hdotted]
  · rw [search_eq, hsigma]

end Library

end Formula
