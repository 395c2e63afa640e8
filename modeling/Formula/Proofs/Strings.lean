import Formula.Proofs.Stability
import Formula.Proofs.Tiling
import Formula.Run

/-!
Where a string ends.

* `Pattern`: patterns of characters, and what is left behind each of their matches, in the order in
  which a search that backtracks comes to them;
* `string_eq_first`: the lexer takes the first match of the pattern of strings;
* `closing_eq_some_iff`: that match ends at the first quote with an even number of backslashes in
  front of it, and at the last quote of all where every quote has an odd number;
* `string_ends`: hence the token that the lexer finds at a quote of a formula, and its value.
-/

namespace Formula

open Formula.Text (isBlank)

/-! ## Patterns -/

/-- A pattern of characters. -/
inductive Pattern where
  /-- One character of a class. -/
  | char (p : Char → Bool)
  /-- One pattern behind another. -/
  | next (a b : Pattern)
  /-- The first of two patterns, or else the second. -/
  | either (a b : Pattern)
  /-- A pattern again and again, as often as possible. -/
  | many (a : Pattern)

namespace Pattern

/-- What is left behind again and again the steps of a search, at most `n` of them. One step more is
tried before none, and it must take a character. -/
def repeated (step : List Char → List (List Char)) : Nat → List Char → List (List Char)
  | 0, cs => [cs]
  | n + 1, cs =>
    ((step cs).filter fun rest => rest.length < cs.length).flatMap (repeated step n) ++ [cs]

/-- What is left behind the matches at the front of characters, in the order of a search that takes
the first choice wherever it has one, and goes back to the latest choice when it fails. -/
def rests : Pattern → List Char → List (List Char)
  | char _, [] => []
  | char p, c :: cs => if p c then [cs] else []
  | next a b, cs => (a.rests cs).flatMap b.rests
  | either a b, cs => a.rests cs ++ b.rests cs
  | many a, cs => repeated a.rests cs.length cs

def only (c : Char) : Pattern := char (· = c)

/-- A piece of the text of a string between quotes `q`: two backslashes, a backslash and the quote,
or a character that is not the quote. -/
def piece (q : Char) : Pattern :=
  either (next (only '\\') (only '\\')) (either (next (only '\\') (only q)) (char (· ≠ q)))

def quoted (q : Char) : Pattern := next (only q) (next (many (piece q)) (only q))

def string : Pattern := either (quoted '\u0022') (quoted '\'')

/-- A quote behind a backslash closes the string where no other does. -/
example : string.rests ['\'', '\\', '\'', 'a'] = [['a']] := by cbv

end Pattern

namespace Lexer

open Formula.Pattern (only piece quoted repeated)

/-! ## The closing quote by search -/

/-- Characters in front move the closing quote. -/
theorem closing_add (q : Char) (k n : Nat) (last : Option Nat) (cs : List Char) :
    closing q (n + k) (last.map (· + k)) cs = (closing q n last cs).map (· + k) := by
  fun_induction closing q n last cs with
  | case1 n last => rfl
  | case2 n last cs ih =>
    rw [closing, if_pos rfl, Nat.add_right_comm]
    exact ih
  | case3 n last cs hc ih =>
    rw [closing, if_neg hc, if_pos rfl, Nat.add_right_comm]
    exact ih
  | case4 n last c cs hc hcq ih =>
    rw [closing, if_neg hc, if_neg hcq, Nat.add_right_comm]
    exact ih
  | case5 n last cs hesc =>
    rw [closing.eq_3 _ _ _ _ _ hesc, if_pos rfl, Option.map_some, Nat.add_right_comm]
  | case6 n last c cs hesc hcq ih =>
    rw [closing.eq_3 _ _ _ _ _ hesc, if_neg hcq, Nat.add_right_comm]
    exact ih

/-- A quote that was found before counts only where no other is found. -/
theorem closing_or (q : Char) (n : Nat) (last : Option Nat) (cs : List Char) :
    closing q n last cs = (closing q n none cs).or last := by
  fun_induction closing q n last cs with
  | case1 n last => rfl
  | case2 n last cs ih =>
    rw [closing, if_pos rfl]
    exact ih
  | case3 n last cs hc ih =>
    rw [closing, if_neg hc, if_pos rfl, ih, Option.or_assoc, Option.some_or]
  | case4 n last c cs hc hcq ih =>
    rw [closing, if_neg hc, if_neg hcq]
    exact ih
  | case5 n last cs hesc =>
    rw [closing.eq_3 _ _ _ _ _ hesc, if_pos rfl, Option.some_or]
  | case6 n last c cs hesc hcq ih =>
    rw [closing.eq_3 _ _ _ _ _ hesc, if_neg hcq]
    exact ih

/-- No quote closes exactly where there is none. -/
theorem closing_eq_none {q : Char} (hq : q ≠ '\\') (n : Nat) {cs : List Char} :
    closing q n none cs = none ↔ q ∉ cs := by
  refine ⟨fun h hmem => ?_, closing_of_not_mem⟩
  obtain ⟨m, hm, -⟩ := closing_of_mem hq n none hmem
  rw [h] at hm
  cases hm

/-- What is left behind the closing quote. -/
def behind (q : Char) (cs : List Char) : Option (List Char) :=
  (closing q 0 none cs).map (cs.drop ·)

theorem behind_eq_none {q : Char} (hq : q ≠ '\\') {cs : List Char} :
    behind q cs = none ↔ q ∉ cs := by
  rw [behind, Option.map_eq_none_iff, closing_eq_none hq]

/-- What is left is the same with characters in front of a place that is found behind them. -/
theorem drop_closing (q : Char) (front cs : List Char) :
    (closing q front.length none cs).map ((front ++ cs).drop ·) = behind q cs := by
  have hadd := closing_add q front.length 0 none cs
  rw [Nat.zero_add, Option.map_none] at hadd
  rw [hadd, Option.map_map, behind]
  congr 1
  funext n
  rw [Function.comp, Nat.add_comm, ← List.drop_drop, List.drop_left]

theorem behind_quote {q : Char} (hq : q ≠ '\\') (cs : List Char) :
    behind q (q :: cs) = some cs := by
  rw [behind, closing_plain hq, if_pos rfl]
  rfl

theorem behind_plain {q c : Char} (hc : c ≠ '\\') (hcq : c ≠ q) (cs : List Char) :
    behind q (c :: cs) = behind q cs := by
  rw [behind, closing_plain hc, if_neg hcq]
  exact drop_closing q [c] cs

theorem behind_backslashes (q : Char) (cs : List Char) :
    behind q ('\\' :: '\\' :: cs) = behind q cs := by
  rw [behind, closing, if_pos rfl]
  exact drop_closing q ['\\', '\\'] cs

theorem behind_escaped {q : Char} (hq : q ≠ '\\') (cs : List Char) :
    behind q ('\\' :: q :: cs) = (behind q cs).or (some cs) := by
  rw [behind, closing, if_neg hq, if_pos rfl, closing_or, Option.map_or]
  congr 1
  exact drop_closing q ['\\', q] cs

theorem behind_other {q c : Char} (hc : c ≠ '\\') (hcq : c ≠ q) (cs : List Char) :
    behind q ('\\' :: c :: cs) = behind q (c :: cs) := by
  rw [behind, closing, if_neg hc, if_neg hcq, behind_plain hc hcq]
  exact drop_closing q ['\\', c] cs

/-! ### The pieces of a text -/

theorem rests_only (c d : Char) (cs : List Char) :
    (only c).rests (d :: cs) = if d = c then [cs] else [] := by
  simp [only, Pattern.rests]

theorem rests_piece_quote {q : Char} (hq : q ≠ '\\') (cs : List Char) :
    (piece q).rests (q :: cs) = [] := by
  simp [piece, Pattern.rests, rests_only, hq]

theorem rests_piece_plain {q c : Char} (hc : c ≠ '\\') (hcq : c ≠ q) (cs : List Char) :
    (piece q).rests (c :: cs) = [cs] := by
  simp [piece, Pattern.rests, rests_only, hc, hcq]

theorem rests_piece_backslashes {q : Char} (hq : q ≠ '\\') (cs : List Char) :
    (piece q).rests ('\\' :: '\\' :: cs) = [cs, '\\' :: cs] := by
  simp [piece, Pattern.rests, rests_only, hq.symm]

theorem rests_piece_escaped {q : Char} (hq : q ≠ '\\') (cs : List Char) :
    (piece q).rests ('\\' :: q :: cs) = [cs, q :: cs] := by
  simp [piece, Pattern.rests, rests_only, hq, hq.symm]

theorem rests_piece_other {q c : Char} (hq : q ≠ '\\') (hc : c ≠ '\\') (hcq : c ≠ q)
    (cs : List Char) : (piece q).rests ('\\' :: c :: cs) = [c :: cs] := by
  simp [piece, Pattern.rests, rests_only, hc, hcq, hq.symm]

theorem rests_piece_backslash {q : Char} (hq : q ≠ '\\') :
    (piece q).rests ['\\'] = [[]] := by
  simp [piece, Pattern.rests, only, hq.symm]

/-! ### The search -/

/-- What is left behind the first way to match pieces, at most `n` of them, and a quote. -/
def search (q : Char) (n : Nat) (cs : List Char) : Option (List Char) :=
  ((repeated (piece q).rests n cs).flatMap (only q).rests).head?

/-- The search goes on behind each piece in turn, and takes the quote here if that fails. -/
theorem search_succ (q : Char) (n : Nat) (cs : List Char) :
    search q (n + 1) cs =
      ((((piece q).rests cs).filter fun rest => rest.length < cs.length).findSome?
        (search q n)).or ((only q).rests cs).head? := by
  rw [search, repeated, List.flatMap_append, List.head?_append, List.flatMap_assoc,
    List.head?_flatMap, List.flatMap_singleton]
  rfl

theorem findSome?_pair {α β : Type} (f : α → Option β) (a b : α) :
    [a, b].findSome? f = (f a).or (f b) := by
  simp only [List.findSome?_cons, List.findSome?_nil]
  cases f a <;> cases f b <;> rfl

/-- Where two pieces are possible, the search goes on behind the first one, and behind the second
one if that fails. -/
theorem search_pair {q d : Char} (hq : q ≠ '\\') {n : Nat} {ds : List Char}
    (h : (piece q).rests ('\\' :: d :: ds) = [ds, d :: ds]) :
    search q (n + 1) ('\\' :: d :: ds) = (search q n ds).or (search q n (d :: ds)) := by
  have hfilter : ([ds, d :: ds].filter fun rest => rest.length < ('\\' :: d :: ds).length) =
      [ds, d :: ds] := by
    simp
  rw [search_succ, h, hfilter, findSome?_pair, rests_only, if_neg hq.symm, List.head?_nil,
    Option.or_none]

/-- The search finds the quote that closes. -/
theorem search_eq_behind {q : Char} (hq : q ≠ '\\') (n : Nat) {cs : List Char}
    (hn : cs.length ≤ n) : search q n cs = behind q cs := by
  induction n generalizing cs with
  | zero =>
    obtain rfl : cs = [] := List.length_eq_zero_iff.mp (Nat.le_zero.mp hn)
    rfl
  | succ n ih =>
    cases cs with
    | nil => rfl
    | cons c cs =>
      have hcs : cs.length ≤ n := Nat.le_of_succ_le_succ hn
      by_cases hcq : c = q
      · subst hcq
        simp [search_succ, rests_piece_quote hq, rests_only, behind_quote hq]
      by_cases hc : c = '\\'
      · subst hc
        cases cs with
        | nil =>
          simp [search_succ, rests_piece_backslash hq, rests_only, hq.symm, ih, behind, closing]
        | cons d ds =>
          have hds : ds.length ≤ n := Nat.le_of_succ_le hcs
          by_cases hd : d = '\\'
          · subst hd
            -- Where no quote follows two backslashes, none follows the second of them.
            have hback : behind q ds = none → behind q ('\\' :: ds) = none := by
              rw [behind_eq_none hq, behind_eq_none hq]
              exact fun hds hmem => hds (List.mem_of_ne_of_mem hq hmem)
            rw [search_pair hq (rests_piece_backslashes hq ds), ih hds, ih hcs, behind_backslashes]
            cases hbehind : behind q ds with
            | none => rw [hback hbehind, Option.none_or]
            | some rest => rw [Option.some_or]
          by_cases hdq : d = q
          · subst hdq
            rw [search_pair hq (rests_piece_escaped hq ds), ih hds, ih hcs, behind_quote hq,
              behind_escaped hq]
          · simp [search_succ, rests_piece_other hq hd hdq, rests_only, hq.symm, ih hcs,
              behind_other hd hdq]
      · simp [search_succ, rests_piece_plain hc hcq, rests_only, hcq, ih hcs, behind_plain hc hcq]

/-- The first match of a string between quotes `q` ends behind the quote that closes. -/
theorem head?_rests_quoted {q : Char} (hq : q ≠ '\\') (cs : List Char) :
    ((quoted q).rests (q :: cs)).head? = behind q cs := by
  rw [← search_eq_behind hq cs.length (Nat.le_refl _)]
  simp [quoted, Pattern.rests, rests_only, search]

theorem rests_quoted_other {q c : Char} (h : c ≠ q) (cs : List Char) :
    (quoted q).rests (c :: cs) = [] := by
  simp [quoted, Pattern.rests, rests_only, h]

/-- At a quote, the first match of the pattern of strings ends behind the quote that closes. -/
theorem head?_rests_string {q : Char} (h : IsQuote q) (cs : List Char) :
    (Pattern.string.rests (q :: cs)).head? = behind q cs := by
  have hq := h.ne_backslash
  rcases h with rfl | rfl
  · have hother : '\u0022' ≠ '\'' := by decide
    rw [Pattern.string, Pattern.rests, rests_quoted_other hother, List.append_nil,
      head?_rests_quoted hq]
  · have hother : '\'' ≠ '\u0022' := by decide
    rw [Pattern.string, Pattern.rests, rests_quoted_other hother, List.nil_append,
      head?_rests_quoted hq]

/-- The lexer takes the first match of the pattern of strings. -/
theorem string_eq_first (cs : List Char) :
    string cs = (Pattern.string.rests cs).head?.map fun rest =>
      (.literal .string, cs.length - rest.length) := by
  cases cs with
  | nil => rfl
  | cons c cs =>
    rw [string]
    split
    · next h =>
      rw [head?_rests_string h, behind, Option.map_map]
      refine Option.map_congr fun n hn => ?_
      have hle : n ≤ 0 + cs.length := closing_le (by simp) hn
      simp only [Function.comp, List.length_drop, List.length_cons]
      rw [show cs.length + 1 - (cs.length - n) = n + 1 by omega]
    · next h =>
      have hdouble : c ≠ '\u0022' := fun hc => h (.inl hc)
      have hsingle : c ≠ '\'' := fun hc => h (.inr hc)
      rw [Pattern.string, Pattern.rests, rests_quoted_other hdouble, rests_quoted_other hsingle]
      rfl

/-! ## The rule -/

def backslashes (cs : List Char) : Nat := (cs.reverse.takeWhile (· = '\\')).length

/-- Behind an opening quote `q` stand the characters `cs`, and at `i` among them a quote with an
even number of backslashes directly in front of it. -/
def Unescaped (q : Char) (cs : List Char) (i : Nat) : Prop :=
  cs[i]? = some q ∧ Even (backslashes (cs.take i))

/-- The quote at `i` ends the string: it is the first one that is not escaped, or all are escaped
and it is the last one. -/
def EndsAt (q : Char) (cs : List Char) (i : Nat) : Prop :=
  (Unescaped q cs i ∧ ∀ j < i, ¬ Unescaped q cs j) ∨
    ((∀ j, ¬ Unescaped q cs j) ∧ cs[i]? = some q ∧ ∀ j > i, cs[j]? ≠ some q)

theorem EndsAt.getElem? {q : Char} {cs : List Char} {i : Nat} (h : EndsAt q cs i) :
    cs[i]? = some q := by
  rcases h with ⟨⟨h, -⟩, -⟩ | ⟨-, h, -⟩ <;> exact h

theorem EndsAt.mem {q : Char} {cs : List Char} {i : Nat} (h : EndsAt q cs i) : q ∈ cs :=
  List.mem_of_getElem? h.getElem?

/-- Where a quote follows, one of them ends the string. -/
theorem exists_endsAt {q : Char} {cs : List Char} (h : q ∈ cs) : ∃ i, EndsAt q cs i := by
  classical
  by_cases hfree : ∃ i, Unescaped q cs i
  · exact ⟨Nat.find hfree, .inl ⟨Nat.find_spec hfree, fun j hj => Nat.find_min hfree hj⟩⟩
  · obtain ⟨later, before, hcs, hlater⟩ := List.eq_append_cons_of_mem (List.mem_reverse.mpr h)
    rw [List.reverse_eq_iff, List.reverse_append, List.reverse_cons, List.append_assoc,
      List.singleton_append] at hcs
    subst hcs
    refine ⟨before.reverse.length, .inr ⟨fun i hi => hfree ⟨i, hi⟩, ?_, ?_⟩⟩
    · rw [List.getElem?_append_right (Nat.le_refl _), Nat.sub_self, List.getElem?_cons_zero]
    · intro j hj hjq
      obtain ⟨k, rfl⟩ : ∃ k, j = before.reverse.length + (k + 1) :=
        ⟨j - before.reverse.length - 1, by omega⟩
      rw [List.getElem?_append_right (Nat.le_add_right ..), Nat.add_sub_cancel_left,
        List.getElem?_cons_succ] at hjq
      exact hlater (List.mem_reverse.mp (List.mem_of_getElem? hjq))

/-! ### Characters in front -/

/-- Characters in front that end with an even number of backslashes escape nothing. -/
theorem even_backslashes_append {front : List Char} (h : Even (backslashes front))
    (cs : List Char) : Even (backslashes (front ++ cs)) ↔ Even (backslashes cs) := by
  rw [backslashes, List.reverse_append, List.takeWhile_append]
  split
  · next hall =>
    rw [List.length_append, Nat.even_add, ← hall]
    exact iff_true_right h
  · rfl

theorem unescaped_append {q : Char} {front : List Char} (h : Even (backslashes front))
    (cs : List Char) (j : Nat) :
    Unescaped q (front ++ cs) (front.length + j) ↔ Unescaped q cs j := by
  rw [Unescaped, Unescaped, List.getElem?_append_right (Nat.le_add_right ..),
    Nat.add_sub_cancel_left, List.take_length_add_append, even_backslashes_append h]

/-- Characters in front that escape nothing, and among which no quote ends the string, only move its
end where a quote follows. -/
theorem EndsAt.of_append {q : Char} {front cs : List Char} {i : Nat}
    (heven : Even (backslashes front))
    (hfront : ∀ j < front.length, ¬ Unescaped q (front ++ cs) j) (hmem : q ∈ cs)
    (h : EndsAt q (front ++ cs) i) : ∃ j, i = front.length + j ∧ EndsAt q cs j := by
  rcases h with ⟨hi, hfirst⟩ | ⟨hnone, hi, hlast⟩
  · have hle : front.length ≤ i := Nat.le_of_not_lt fun hlt => hfront i hlt hi
    obtain ⟨j, rfl⟩ := Nat.exists_eq_add_of_le hle
    refine ⟨j, rfl, .inl ⟨(unescaped_append heven cs j).mp hi, fun k hk hkq => ?_⟩⟩
    exact hfirst (front.length + k) (by omega) ((unescaped_append heven cs k).mpr hkq)
  · have hright (k : Nat) : (front ++ cs)[front.length + k]? = cs[k]? := by
      rw [List.getElem?_append_right (Nat.le_add_right ..), Nat.add_sub_cancel_left]
    -- The last quote of all is not in front of the quote that follows.
    have hle : front.length ≤ i := by
      refine Nat.le_of_not_lt fun hlt => ?_
      obtain ⟨k, hk⟩ := List.mem_iff_getElem?.mp hmem
      exact hlast (front.length + k) (by omega) ((hright k).trans hk)
    obtain ⟨j, rfl⟩ := Nat.exists_eq_add_of_le hle
    refine ⟨j, rfl, .inr ⟨fun k hk => ?_, (hright j).symm.trans hi, fun k hk hkq => ?_⟩⟩
    · exact hnone _ ((unescaped_append heven cs k).mpr hk)
    · exact hlast (front.length + k) (by omega) ((hright k).trans hkq)

/-- Where a quote follows, a backslash and the character behind it only move the end. -/
theorem EndsAt.of_escape {q c : Char} (hq : q ≠ '\\') {cs : List Char} {i : Nat} (hmem : q ∈ cs)
    (h : EndsAt q ('\\' :: c :: cs) i) : ∃ j, i = 2 + j ∧ EndsAt q cs j := by
  refine @EndsAt.of_append q ['\\', c] cs i ?_ ?_ hmem h
  · by_cases hc : c = '\\'
    · subst hc
      decide
    · simp [backslashes, hc]
  · intro j hj
    match j with
    | 0 => exact fun hj => hq (Option.some.inj hj.1).symm
    | 1 =>
      have hone : ¬ Even (backslashes ['\\']) := by decide
      exact fun hj => hone hj.2

/-- So does a character that is neither a backslash nor the quote. -/
theorem EndsAt.of_plain {q c : Char} (hc : c ≠ '\\') (hcq : c ≠ q) {cs : List Char} {i : Nat}
    (h : EndsAt q (c :: cs) i) : ∃ j, i = 1 + j ∧ EndsAt q cs j := by
  refine @EndsAt.of_append q [c] cs i ?_ ?_ (List.mem_of_ne_of_mem (Ne.symm hcq) h.mem) h
  · simp [backslashes, hc]
  · intro j hj
    match j with
    | 0 => exact fun hj => hcq (Option.some.inj hj.1)

/-- The quote that ends the string closes it, whatever quote was found before. -/
theorem closing_endsAt {q : Char} (hq : q ≠ '\\') {cs : List Char} {i : Nat}
    (h : EndsAt q cs i) (n : Nat) (last : Option Nat) :
    closing q n last cs = some (n + i + 1) := by
  fun_induction closing q n last cs generalizing i with
  | case1 n last => cases h.mem
  | case2 n last cs ih =>
    have hmem := List.mem_of_ne_of_mem hq (List.mem_of_ne_of_mem hq h.mem)
    obtain ⟨j, rfl, hj⟩ := h.of_escape hq hmem
    rw [ih hj, Nat.add_assoc n]
  | case3 n last cs hc ih =>
    by_cases hmem : q ∈ cs
    · obtain ⟨j, rfl, hj⟩ := h.of_escape hq hmem
      rw [ih hj, Nat.add_assoc n]
    · -- All other characters behind the backslash are no quotes.
      have hi := h.getElem?
      rcases i with _ | _ | k
      · exact absurd (Option.some.inj hi).symm hq
      · exact closing_of_not_mem hmem
      · have hk : cs[k]? = some q := hi
        exact absurd (List.mem_of_getElem? hk) hmem
  | case4 n last c cs hc hcq ih =>
    have hmem := List.mem_of_ne_of_mem (Ne.symm hcq) (List.mem_of_ne_of_mem hq h.mem)
    obtain ⟨j, rfl, hj⟩ := h.of_escape hq hmem
    rw [ih hj, Nat.add_assoc n]
  | case5 n last cs hesc =>
    have hfirst : Unescaped q (q :: cs) 0 := ⟨rfl, ⟨0, rfl⟩⟩
    rcases h with ⟨-, hnone⟩ | ⟨hnone, -⟩
    · obtain rfl : i = 0 := Nat.eq_zero_of_not_pos fun hi => hnone 0 hi hfirst
      rfl
    · exact absurd hfirst (hnone 0)
  | case6 n last c cs hesc hcq ih =>
    have hmem := List.mem_of_ne_of_mem (Ne.symm hcq) h.mem
    have hc : c ≠ '\\' := by
      rintro rfl
      cases cs with
      | nil => cases hmem
      | cons d ds => exact hesc d ds rfl rfl
    obtain ⟨j, rfl, hj⟩ := h.of_plain hc hcq
    rw [ih hj, Nat.add_assoc n]

/-- The quote that closes is the one that ends the string. -/
theorem closing_eq_some_iff {q : Char} (hq : q ≠ '\\') {cs : List Char} {i : Nat} :
    closing q 0 none cs = some (i + 1) ↔ EndsAt q cs i := by
  constructor
  · intro h
    have hmem : q ∈ cs := by
      by_contra hmem
      rw [closing_of_not_mem hmem] at h
      cases h
    obtain ⟨j, hj⟩ := exists_endsAt hmem
    rw [closing_endsAt hq hj, Nat.zero_add] at h
    cases h
    exact hj
  · intro h
    rw [closing_endsAt hq h, Nat.zero_add]

/-! ## Formulas -/

/-- `Arrives formula offset rest done`: when the lexer comes to the characters `rest` of a formula,
which begin at `offset`, it has found `done`. -/
inductive Arrives (formula : String) : Nat → List Char → List Lexeme → Prop
  | start : Arrives formula 0 formula.toList []
  | blank {offset : Nat} {c : Char} {rest : List Char} {done : List Lexeme} :
      Arrives formula offset (c :: rest) done → isBlank c = true →
      Arrives formula (offset + c.utf8Size) rest done
  | token {offset : Nat} {c : Char} {text rest : List Char} {done : List Lexeme}
      {kind : TokenKind} : Arrives formula offset (c :: text ++ rest) done → isBlank c = false →
      token (c :: text ++ rest) = some (kind, (c :: text).length) →
      Arrives formula (offset + bytes (c :: text)) rest
        (done ++ [.token ⟨kind, String.ofList (c :: text), offset⟩])
  | stray {offset : Nat} {c : Char} {rest : List Char} {done : List Lexeme} :
      Arrives formula offset (c :: rest) done → isBlank c = false → token (c :: rest) = none →
      Arrives formula (offset + c.utf8Size) rest (done ++ [.stray ⟨c, offset⟩])

/-- What the lexer finds in a formula is what it has found so far and what it finds in the rest. -/
theorem Arrives.scan_eq {formula : String} {offset : Nat} {rest : List Char} {done : List Lexeme}
    (h : Arrives formula offset rest done) : scan formula = done ++ scanFrom 0 offset rest := by
  induction h with
  | start => rfl
  | blank _ hb ih =>
    rw [ih]
    simp only [scanFrom, hb, ↓reduceIte]
  | token _ hb ht ih => rw [ih, scanFrom_token _ hb ht, List.append_assoc, List.singleton_append]
  | stray _ hb ht ih =>
    rw [ih, List.append_assoc, List.singleton_append]
    simp [scanFrom, hb, ht]

/-- At a quote the lexer finds a string or nothing. -/
theorem token_quote {q : Char} (h : IsQuote q) (cs : List Char) :
    token (q :: cs) = string (q :: cs) := by
  have hothers : fixed symbols (q :: cs) = none ∧ date (q :: cs) = none ∧
      fixed keywords (q :: cs) = none ∧ number (q :: cs) = none ∧
      fixed lateSymbols (q :: cs) = none ∧ function (q :: cs) = none ∧
      reference (q :: cs) = none ∧ comma (q :: cs) = none := by
    rcases h with rfl | rfl <;> exact ⟨rfl, rfl, rfl, rfl, rfl, rfl, rfl, rfl⟩
  obtain ⟨h₁, h₂, h₃, h₄, h₅, h₆, h₇, h₈⟩ := hothers
  simp only [token, h₁, h₂, h₃, h₄, h₅, h₆, h₇, h₈, Option.none_or, Option.or_none]

theorem string_quote {q : Char} (h : IsQuote q) (cs : List Char) :
    string (q :: cs) = (closing q 0 none cs).map fun n => (.literal .string, n + 1) :=
  if_pos h

/-- Where a quote ends the string, the lexer finds the string. -/
theorem token_ends {q : Char} (hq : IsQuote q) {rest : List Char} {i : Nat}
    (h : EndsAt q rest i) : token (q :: rest) = some (.literal .string, i + 2) := by
  rw [token_quote hq, string_quote hq, (closing_eq_some_iff hq.ne_backslash).mpr h]
  rfl

/-- Where no quote follows, the lexer finds nothing. -/
theorem token_open {q : Char} (hq : IsQuote q) {rest : List Char} (h : q ∉ rest) :
    token (q :: rest) = none := by
  rw [token_quote hq, string_quote hq, closing_of_not_mem h]
  rfl

theorem EndsAt.take_succ {q : Char} {rest : List Char} {i : Nat} (h : EndsAt q rest i) :
    rest.take (i + 1) = rest.take i ++ [q] := by
  rw [List.take_add_one, h.getElem?]
  rfl

/-- The value of a string is the text between its quotes as it is written. -/
theorem eval_string (functions : Registry Body) (vars : Value) (q : Char) (text : List Char)
    (offset : Nat) :
    (Term.literal ⟨.literal .string, String.ofList (q :: (text ++ [q])), offset⟩).eval functions
      vars = .ok (.string (String.ofList text)) := by
  have hinner : Token.inner ⟨.literal .string, String.ofList (q :: (text ++ [q])), offset⟩ =
      String.ofList text := by
    rw [Token.inner, String.toList_ofList, List.drop_one, List.tail_cons, List.dropLast_concat]
  rw [Term.eval, Term.evalIn, Eval.literal, hinner]
  rfl

/-- A string ends at the first quote that is not escaped, where all are escaped at the last one, and
where there is none the opening quote is stray. -/
theorem string_ends {formula : String} {offset : Nat} {q : Char} {rest : List Char}
    {done : List Lexeme} (hq : IsQuote q) (h : Arrives formula offset (q :: rest) done) :
    (∀ i, EndsAt q rest i →
      let t : Token := ⟨.literal .string, String.ofList (q :: (rest.take i ++ [q])), offset⟩
      (Pattern.string.rests (q :: rest)).head? = some (rest.drop (i + 1)) ∧
      scan formula = done ++ .token t ::
        scanFrom 0 (offset + t.text.utf8ByteSize) (rest.drop (i + 1)) ∧
      ∀ functions vars, (Term.literal t).eval functions vars =
        .ok (.string (String.ofList (rest.take i)))) ∧
    (q ∈ rest → ∃ i, EndsAt q rest i) ∧
    (q ∉ rest → (Pattern.string.rests (q :: rest)).head? = none ∧
      scan formula = done ++ .stray ⟨q, offset⟩ :: scanFrom 0 (offset + q.utf8Size) rest ∧
      ⟨q, offset⟩ ∈ lexErrors formula) := by
  refine ⟨fun i hi => ⟨?_, ?_, fun functions vars => ?_⟩, exists_endsAt, fun hnone => ?_⟩
  · rw [head?_rests_string hq, behind, (closing_eq_some_iff hq.ne_backslash).mpr hi]
    rfl
  · have hrest : q :: rest = q :: (rest.take i ++ [q]) ++ rest.drop (i + 1) := by
      rw [List.cons_append, ← hi.take_succ, List.take_append_drop]
    have htoken := token_ends hq hi
    have hlength : i + 2 = (q :: (rest.take i ++ [q])).length := by
      obtain ⟨hlt, -⟩ := List.getElem?_eq_some_iff.mp hi.getElem?
      rw [← hi.take_succ, List.length_cons, List.length_take, Nat.min_eq_left hlt]
    rw [hrest, hlength] at htoken
    rw [h.scan_eq, hrest, scanFrom_token offset hq.not_blank htoken, bytes_eq]
  · exact eval_string functions vars q (rest.take i) offset
  · have hscan : scan formula =
        done ++ .stray ⟨q, offset⟩ :: scanFrom 0 (offset + q.utf8Size) rest := by
      rw [h.scan_eq]
      simp [scanFrom, hq.not_blank, token_open hq hnone]
    refine ⟨?_, hscan, ?_⟩
    · rw [head?_rests_string hq, (behind_eq_none hq.ne_backslash).mpr hnone]
    · rw [mem_lexErrors, hscan]
      exact List.mem_append_right _ (.head _)

/-- The quote behind `c\` is escaped, but it is the last one. -/
theorem string_ends_last :
    Arrives "'a\\'b' 'c\\'" 7 ['\'', 'c', '\\', '\'']
        [.token ⟨.literal .string, "'a\\'b'", 0⟩] ∧
      scan "'a\\'b' 'c\\'" =
        [.token ⟨.literal .string, "'a\\'b'", 0⟩, .token ⟨.literal .string, "'c\\'", 7⟩] := by
  have hfirst : EndsAt '\'' ['a', '\\', '\'', 'b', '\'', ' ', '\'', 'c', '\\', '\''] 4 :=
    (closing_eq_some_iff (by decide)).mp rfl
  have hsecond : EndsAt '\'' ['c', '\\', '\''] 2 := (closing_eq_some_iff (by decide)).mp rfl
  have htoken : token ('\'' :: ['a', '\\', '\'', 'b', '\''] ++ [' ', '\'', 'c', '\\', '\'']) =
      some (.literal .string, 6) := token_ends (.inr rfl) hfirst
  have hstart : Arrives "'a\\'b' 'c\\'" 0
      ('\'' :: ['a', '\\', '\'', 'b', '\''] ++ [' ', '\'', 'c', '\\', '\'']) [] := .start
  have hbehind : Arrives "'a\\'b' 'c\\'" 6 [' ', '\'', 'c', '\\', '\'']
      [.token ⟨.literal .string, "'a\\'b'", 0⟩] := hstart.token rfl htoken
  have harrives := hbehind.blank rfl
  exact ⟨harrives, ((string_ends (.inr rfl) harrives).1 2 hsecond).2.1⟩

end Lexer

end Formula
