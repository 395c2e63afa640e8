import Mathlib.Data.List.Infix
import Formula.Library.Text

/-!
Texts cut at a separator and put together again.

* `Cuts`: a text as pieces between occurrences of a separator, each the first one that is left;
* `piecesFrom_cuts`: cutting finds these pieces;
* `Cuts.joined` and `Cuts.not_inside`: with the separator between them they are the text again, and
  the separator stands in none of them;
* `join_split`: hence `JOIN` undoes `SPLIT`, also where the separator is empty.
-/

namespace Formula

namespace Text

/-! ## Where a separator is found -/

/-- The separator begins at no character of `front` when `behind` follows it. -/
def Free (sep : List Char) : List Char → List Char → Prop
  | [], _ => True
  | c :: front, behind => ¬ sep <+: c :: (front ++ behind) ∧ Free sep front behind

/-- A separator that begins nowhere does not stand inside. -/
theorem Free.not_inside {sep front behind : List Char} (hsep : sep ≠ [])
    (h : Free sep front behind) : ¬ sep <:+: front := by
  induction front with
  | nil =>
    intro hinfix
    exact hsep (List.infix_nil.mp hinfix)
  | cons c front ih =>
    obtain ⟨hhere, hthere⟩ := h
    intro hinfix
    rcases List.infix_cons_iff.mp hinfix with hbegins | hinside
    · exact hhere (hbegins.trans (List.prefix_append (c :: front) behind))
    · exact ih hthere hinside

/-- A text is cut into pieces at the occurrences of a separator, found from left to right without
overlap. -/
inductive Cuts (sep : List Char) : List Char → List (List Char) → Prop
  | last {piece : List Char} : Free sep piece [] → Cuts sep piece [piece]
  | more {piece rest : List Char} {pieces : List (List Char)} :
      Free sep piece (sep ++ rest) → Cuts sep rest pieces →
        Cuts sep (piece ++ (sep ++ rest)) (piece :: pieces)

variable {sep cs : List Char} {pieces : List (List Char)}

/-- A character at which no separator begins belongs to the first piece. -/
theorem Cuts.cons {c : Char} (hfree : ¬ sep <+: c :: cs) (h : Cuts sep cs pieces) :
    Cuts sep (c :: cs) (ontoFirst c pieces) := by
  cases h with
  | last hpiece => exact .last ⟨by rwa [List.append_nil], hpiece⟩
  | @more piece rest _ hpiece hrest =>
    have hfirst : Free sep (c :: piece) (sep ++ rest) := ⟨hfree, hpiece⟩
    exact .more hfirst hrest

/-- Cutting finds the pieces behind the characters that have been dealt with. -/
theorem piecesFrom_cuts (hsep : sep ≠ []) (skip : Nat) (cs : List Char) :
    Cuts sep (cs.drop skip) (piecesFrom sep skip cs) := by
  induction cs generalizing skip with
  | nil =>
    rw [List.drop_nil, piecesFrom]
    exact .last trivial
  | cons c cs ih =>
    cases skip with
    | succ skip => exact ih skip
    | zero =>
      rw [List.drop_zero, piecesFrom]
      by_cases hbegins : sep <+: c :: cs
      · -- The separator ends where the skipped characters do.
        obtain ⟨rest, hrest⟩ := hbegins
        have hbehind : cs.drop (sep.length - 1) = rest := by
          obtain ⟨d, ds, rfl⟩ := List.exists_cons_of_ne_nil hsep
          rw [List.cons_append, List.cons.injEq] at hrest
          rw [← hrest.2, List.length_cons, Nat.add_sub_cancel, List.drop_left]
        have hpieces := ih (sep.length - 1)
        rw [hbehind] at hpieces
        rw [if_pos (List.isPrefixOf_iff_prefix.mpr ⟨rest, hrest⟩), ← hrest]
        have hnone : Free sep [] (sep ++ rest) := trivial
        exact .more hnone hpieces
      · rw [if_neg (mt List.isPrefixOf_iff_prefix.mp hbegins)]
        exact .cons hbegins (ih 0)

theorem Cuts.ne_nil (h : Cuts sep cs pieces) : pieces ≠ [] := by
  cases h <;> exact List.cons_ne_nil _ _

/-- The separator stands in no piece. -/
theorem Cuts.not_inside (hsep : sep ≠ []) (h : Cuts sep cs pieces) :
    ∀ piece ∈ pieces, ¬ sep <:+: piece := by
  induction h with
  | last hpiece => simpa using hpiece.not_inside hsep
  | more hpiece _ ih => simpa using ⟨hpiece.not_inside hsep, ih⟩

/-! ## Putting the pieces together -/

theorem joined_cons {sep s : String} {ss : List String} (h : ss ≠ []) :
    joined sep (s :: ss) = s ++ sep ++ joined sep ss := by
  obtain ⟨t, ts, rfl⟩ := List.exists_cons_of_ne_nil h
  rfl

/-- The pieces with the separator between them are the text. -/
theorem Cuts.joined {sep : String} (h : Cuts sep.toList cs pieces) :
    Text.joined sep (pieces.map String.ofList) = String.ofList cs := by
  induction h with
  | last => rfl
  | more _ hrest ih =>
    have hne : _ ≠ [] := mt (List.map_eq_nil_iff (f := String.ofList)).mp hrest.ne_nil
    rw [List.map_cons, joined_cons hne, ih, String.ofList_append, String.ofList_append,
      String.ofList_toList, String.append_assoc]

/-- Characters as texts of their own are put together by the empty separator. -/
theorem joined_characters (cs : List Char) :
    joined "" (cs.map String.singleton) = String.ofList cs := by
  induction cs with
  | nil => rfl
  | cons c cs ih =>
    have hcons : String.ofList (c :: cs) = String.singleton c ++ String.ofList cs :=
      String.ofList_cons
    rw [List.map_cons, hcons, ← ih]
    cases cs with
    | nil => exact String.append_empty.symm
    | cons d ds => rw [List.map_cons, joined_cons (List.cons_ne_nil _ _), String.append_empty]

theorem joined_pieces {sep : String} (hsep : sep ≠ "") (s : String) :
    joined sep (Text.pieces sep s) = s := by
  have hcuts := piecesFrom_cuts (mt String.toList_eq_nil_iff.mp hsep) 0 s.toList
  rw [Text.pieces, hcuts.joined, List.drop_zero, String.ofList_toList]

theorem not_inside_pieces {sep : String} (hsep : sep ≠ "") (s : String) :
    ∀ piece ∈ Text.pieces sep s, ¬ sep.toList <:+: piece.toList := by
  have hne := mt String.toList_eq_nil_iff.mp hsep
  intro piece hpiece
  obtain ⟨cs, hcs, rfl⟩ := List.mem_map.mp hpiece
  rw [String.toList_ofList]
  exact (piecesFrom_cuts hne 0 s.toList).not_inside hne cs hcs

end Text

namespace Library

/-- The text of a text is itself. -/
theorem map_plainText_string (ss : List String) : (ss.map Value.string).map plainText = ss := by
  rw [List.map_map]
  exact List.map_id ss

/-- `JOIN` undoes `SPLIT` for every separator, and a separator that is not empty stands in no
piece. -/
theorem join_split (s sep : String) :
    ∃ pieces : List String,
      split [.string s, .string sep] = .ok (.array (pieces.map .string)) ∧
      join [.array (pieces.map .string), .string sep] = .ok (.string s) ∧
      (sep ≠ "" → ∀ piece ∈ pieces, ¬ sep.toList <:+: piece.toList) := by
  have hjoin (pieces : List String) : join [.array (pieces.map .string), .string sep] =
      .ok (.string (Text.joined sep ((pieces.map Value.string).map plainText))) := rfl
  have hsplit : split [.string s, .string sep] = .ok (.array (if sep = "" then
      s.toList.map fun c => .string (String.singleton c)
    else (Text.pieces sep s).map .string)) := rfl
  by_cases hsep : sep = ""
  · refine ⟨s.toList.map String.singleton, ?_, ?_, fun hne => absurd hsep hne⟩
    · rw [hsplit, if_pos hsep, List.map_map]
      rfl
    · rw [hjoin, map_plainText_string, hsep, Text.joined_characters, String.ofList_toList]
  · refine ⟨Text.pieces sep s, ?_, ?_, fun hne => Text.not_inside_pieces hne s⟩
    · rw [hsplit, if_neg hsep]
    · rw [hjoin, map_plainText_string, Text.joined_pieces hsep]

/-- A separator that overlaps itself, at both ends of the text. -/
theorem join_split_overlap :
    split [.string "aabaaa", .string "aa"] = .ok (.array [.string "", .string "b", .string "a"]) ∧
      join [.array [.string "", .string "b", .string "a"], .string "aa"] =
        .ok (.string "aabaaa") ∧
      ¬ "aa".toList <:+: "b".toList := by
  have hpieces : split [.string "aabaaa", .string "aa"] =
      .ok (.array (["", "b", "a"].map .string)) := rfl
  obtain ⟨pieces, hsplit, hjoin, hfree⟩ := join_split "aabaaa" "aa"
  rw [hpieces] at hsplit
  have hsame : ["", "b", "a"] = pieces := by
    have := congrArg (List.map plainText) (Value.array.inj (Except.ok.inj hsplit))
    rwa [map_plainText_string, map_plainText_string] at this
  subst hsame
  exact ⟨hpieces, hjoin, hfree (by decide) "b" (by decide)⟩

end Library

end Formula
