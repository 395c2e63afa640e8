import Formula.Token.Lexer

/-!
What the lexer finds, apart from how it goes through the characters.

* `token_length`: a token takes a character at least, and none that is not there;
* `token_spelling`: delimiters and operators are spelled in one way;
* `Cut`: a formula is tokens in their exact texts, stray characters at which no token begins, and
  white space between them; `scan_cut` says that this is what the lexer finds;
* `Spread`: the same without offsets, for the tokens alone.
-/

namespace Formula

def TokenKind.spelling? : TokenKind → Option String
  | .openParen => some "("
  | .closeParen => some ")"
  | .openBracket => some "["
  | .closeBracket => some "]"
  | .comma => some ","
  | .operator o => some o.symbol
  | .function | .reference | .literal _ => none

def Token.IsSpelled (t : Token) : Prop := ∀ s, t.kind.spelling? = some s → t.text = s

namespace Lexer

open Formula.Text

/-! ## The length of a token -/

theorem length_of_takeWhile (p : Char → Bool) (cs : List Char) :
    (cs.takeWhile p).length + (cs.dropWhile p).length = cs.length := by
  rw [← List.length_append, List.takeWhile_append_dropWhile]

theorem length_takeWhile_le (p : Char → Bool) (cs : List Char) :
    (cs.takeWhile p).length ≤ cs.length :=
  (List.takeWhile_prefix p).length_le

/-- A spelling of a table that was found stands at the front. -/
theorem fixed_eq_some {table : List (String × TokenKind)} {cs : List Char} {kind : TokenKind}
    {n : Nat} (h : fixed table cs = some (kind, n)) :
    ∃ s, (s, kind) ∈ table ∧ s.toList <+: cs ∧ n = s.length := by
  simp only [fixed, Option.map_eq_some_iff, Prod.mk.injEq] at h
  obtain ⟨⟨s, kind⟩, hfind, rfl, rfl⟩ := h
  have hprefix := List.find?_some hfind
  exact ⟨s, List.mem_of_find?_eq_some hfind, List.isPrefixOf_iff_prefix.mp hprefix, rfl⟩

theorem fixed_length {table : List (String × TokenKind)} {cs : List Char} {kind : TokenKind}
    {n : Nat} (ht : ∀ e ∈ table, 0 < e.1.length) (h : fixed table cs = some (kind, n)) :
    0 < n ∧ n ≤ cs.length := by
  obtain ⟨s, hmem, hprefix, rfl⟩ := fixed_eq_some h
  exact ⟨ht _ hmem, hprefix.length_le⟩

theorem date_eq_some {cs : List Char} {kind : TokenKind} {n : Nat}
    (h : date cs = some (kind, n)) : kind = .literal .date ∧ 0 < n ∧ n ≤ cs.length := by
  have hday := length_of_takeWhile inDay cs
  simp only [date] at h
  split at h
  · next rest hrest =>
    have htime := length_of_takeWhile inTime rest
    split at h
    · next hend =>
      split at h
      · cases h
      · cases h
        simp only [hrest, hend, List.length_cons] at hday htime
        exact ⟨rfl, by omega, by omega⟩
    · cases h
  · cases h

/-- The closing quote is one of the characters. -/
theorem closing_le {q : Char} {n m : Nat} {last : Option Nat} {cs : List Char}
    (hl : ∀ l, last = some l → l ≤ n) (h : closing q n last cs = some m) : m ≤ n + cs.length := by
  fun_induction closing q n last cs with
  | case1 n last => exact hl m h
  | case2 n last cs ih =>
    have := ih (fun l e => Nat.le_trans (hl l e) (Nat.le_add_right ..)) h
    simp only [List.length_cons]
    omega
  | case3 n last cs hc ih =>
    have := ih (fun l e => by cases e; exact Nat.le_refl _) h
    simp only [List.length_cons]
    omega
  | case4 n last c cs hc hq ih =>
    have := ih (fun l e => Nat.le_trans (hl l e) (Nat.le_add_right ..)) h
    simp only [List.length_cons]
    omega
  | case5 n last cs hesc =>
    cases h
    simp only [List.length_cons]
    omega
  | case6 n last c cs hesc hc ih =>
    have := ih (fun l e => Nat.le_trans (hl l e) (Nat.le_add_right ..)) h
    simp only [List.length_cons]
    omega

theorem string_eq_some {cs : List Char} {kind : TokenKind} {n : Nat}
    (h : string cs = some (kind, n)) : kind = .literal .string ∧ 0 < n ∧ n ≤ cs.length := by
  cases cs with
  | nil => cases h
  | cons c cs =>
    simp only [string] at h
    split at h
    · simp only [Option.map_eq_some_iff, Prod.mk.injEq] at h
      obtain ⟨m, hm, rfl, rfl⟩ := h
      have := closing_le (by simp) hm
      refine ⟨rfl, Nat.succ_pos m, ?_⟩
      rw [List.length_cons]
      omega
    · cases h

theorem fractionLength_le (cs : List Char) : fractionLength cs ≤ cs.length := by
  unfold fractionLength
  split
  · next ds =>
    have := length_takeWhile_le isDigit ds
    simp only [List.length_cons]
    split <;> omega
  · exact Nat.zero_le _

theorem exponentLength_le (cs : List Char) : exponentLength cs ≤ cs.length := by
  unfold exponentLength
  split
  · next ds =>
    have := length_takeWhile_le isDigit (ds.drop (signLength ds))
    simp only [List.length_cons, List.length_drop] at *
    split
    · omega
    · next hne =>
      have : 0 < ((ds.drop (signLength ds)).takeWhile isDigit).length := by
        simpa [List.length_pos_iff] using hne
      omega
  · exact Nat.zero_le _

theorem number_eq_some {cs : List Char} {kind : TokenKind} {n : Nat}
    (h : number cs = some (kind, n)) : kind = .literal .number ∧ 0 < n ∧ n ≤ cs.length := by
  simp only [number] at h
  split at h
  · cases h
  · cases h
    have hw := length_takeWhile_le isDigit cs
    have hf := fractionLength_le (cs.drop (cs.takeWhile isDigit).length)
    have he := exponentLength_le (cs.drop ((cs.takeWhile isDigit).length +
      fractionLength (cs.drop (cs.takeWhile isDigit).length)))
    simp only [List.length_drop] at hf he
    exact ⟨rfl, by omega, by omega⟩

theorem function_eq_some {cs : List Char} {kind : TokenKind} {n : Nat}
    (h : function cs = some (kind, n)) : kind = .function ∧ 0 < n ∧ n ≤ cs.length := by
  simp only [function] at h
  split at h
  · cases h
  · next hne =>
    cases h
    exact ⟨rfl, by simpa [List.length_pos_iff] using hne, length_takeWhile_le inName cs⟩

theorem reference_eq_some {cs : List Char} {kind : TokenKind} {n : Nat}
    (h : reference cs = some (kind, n)) : kind = .reference ∧ 0 < n ∧ n ≤ cs.length := by
  unfold reference at h
  split at h
  · next cs =>
    have hpath := length_of_takeWhile inPath cs
    dsimp only at h
    split at h
    · next hend =>
      split at h
      · cases h
      · cases h
        rw [hend, List.length_cons] at hpath
        refine ⟨rfl, Nat.succ_pos _, ?_⟩
        rw [List.length_cons]
        omega
    · cases h
  · cases h

theorem comma_eq_some {cs : List Char} {kind : TokenKind} {n : Nat}
    (h : comma cs = some (kind, n)) :
    kind = .comma ∧ n = 1 ∧ n ≤ cs.length ∧ cs.take n = [','] := by
  unfold comma at h
  split at h
  · cases h
    simp
  · cases h

/-- A token is of one of the languages. -/
theorem token_cases {cs : List Char} {m : TokenKind × Nat} (h : token cs = some m) :
    fixed symbols cs = some m ∨ date cs = some m ∨ string cs = some m ∨
      fixed keywords cs = some m ∨ number cs = some m ∨ fixed lateSymbols cs = some m ∨
      function cs = some m ∨ reference cs = some m ∨ comma cs = some m := by
  simp only [token, Option.or_eq_some_iff] at h
  grind

/-- A token takes a character at least, and none that is not there. -/
theorem token_length {cs : List Char} {kind : TokenKind} {n : Nat}
    (h : token cs = some (kind, n)) : 0 < n ∧ n ≤ cs.length := by
  rcases token_cases h with h | h | h | h | h | h | h | h | h
  · exact fixed_length (by decide) h
  · exact (date_eq_some h).2
  · exact (string_eq_some h).2
  · exact fixed_length (by decide) h
  · exact (number_eq_some h).2
  · exact fixed_length (by decide) h
  · exact (function_eq_some h).2
  · exact (reference_eq_some h).2
  · obtain ⟨-, rfl, hle, -⟩ := comma_eq_some h
    exact ⟨Nat.one_pos, hle⟩

/-! ## The spelling of a token -/

/-- The spellings of a table are those of their kinds. -/
theorem fixed_spelling {table : List (String × TokenKind)} {cs : List Char} {kind : TokenKind}
    {n : Nat} {s : String} (ht : ∀ e ∈ table, e.2.spelling? = some e.1 ∨ e.2.spelling? = none)
    (h : fixed table cs = some (kind, n)) (hs : kind.spelling? = some s) :
    cs.take n = s.toList := by
  obtain ⟨s', hmem, hprefix, rfl⟩ := fixed_eq_some h
  rcases ht _ hmem with he | he
  · obtain rfl : s' = s := Option.some.inj (he.symm.trans hs)
    exact (List.prefix_iff_eq_take.mp hprefix).symm
  · rw [hs] at he
    cases he

/-- A token of a kind that has only one spelling is spelled so. -/
theorem token_spelling {cs : List Char} {kind : TokenKind} {n : Nat} {s : String}
    (h : token cs = some (kind, n)) (hs : kind.spelling? = some s) : cs.take n = s.toList := by
  rcases token_cases h with h | h | h | h | h | h | h | h | h
  · exact fixed_spelling (by decide) h hs
  · obtain ⟨rfl, -⟩ := date_eq_some h; cases hs
  · obtain ⟨rfl, -⟩ := string_eq_some h; cases hs
  · exact fixed_spelling (by decide) h hs
  · obtain ⟨rfl, -⟩ := number_eq_some h; cases hs
  · exact fixed_spelling (by decide) h hs
  · obtain ⟨rfl, -⟩ := function_eq_some h; cases hs
  · obtain ⟨rfl, -⟩ := reference_eq_some h; cases hs
  · obtain ⟨rfl, -, -, htake⟩ := comma_eq_some h
    cases hs
    exact htake

/-! ## Whole formulas -/

def bytes : List Char → Nat
  | [] => 0
  | c :: cs => c.utf8Size + bytes cs

/-- `Cut offset cs found`: the characters `cs`, which begin at `offset`, are the tokens and the
stray characters `found`, with white space between them. -/
inductive Cut : Nat → List Char → List Lexeme → Prop
  | done {offset : Nat} : Cut offset [] []
  | blank {offset : Nat} {c : Char} {cs : List Char} {found : List Lexeme} : isBlank c = true →
      Cut (offset + c.utf8Size) cs found → Cut offset (c :: cs) found
  | token {offset : Nat} {kind : TokenKind} {c : Char} {text cs : List Char}
      {found : List Lexeme} : isBlank c = false →
      token (c :: text ++ cs) = some (kind, (c :: text).length) →
      Cut (offset + bytes (c :: text)) cs found →
      Cut offset (c :: text ++ cs) (.token ⟨kind, String.ofList (c :: text), offset⟩ :: found)
  | stray {offset : Nat} {c : Char} {cs : List Char} {found : List Lexeme} : isBlank c = false →
      token (c :: cs) = none → Cut (offset + c.utf8Size) cs found →
      Cut offset (c :: cs) (.stray ⟨c, offset⟩ :: found)

/-- Characters that belong to the token before are passed over. -/
theorem scanFrom_append (text cs : List Char) (offset : Nat) :
    scanFrom text.length offset (text ++ cs) = scanFrom 0 (offset + bytes text) cs := by
  induction text generalizing offset with
  | nil => rfl
  | cons c text ih =>
    simp only [List.length_cons, List.cons_append, scanFrom, ih, bytes, Nat.add_assoc]

/-- A token that is found is followed by what is found behind its text. -/
theorem scanFrom_token {kind : TokenKind} {c : Char} {text cs : List Char} (offset : Nat)
    (hb : isBlank c = false) (ht : token (c :: text ++ cs) = some (kind, (c :: text).length)) :
    scanFrom 0 offset (c :: text ++ cs) =
      .token ⟨kind, String.ofList (c :: text), offset⟩ ::
        scanFrom 0 (offset + bytes (c :: text)) cs := by
  rw [List.cons_append] at ht ⊢
  simp [scanFrom, hb, ht, scanFrom_append, bytes, Nat.add_assoc]

/-- What the lexer finds is a cut of the characters. -/
theorem scanFrom_cut (offset : Nat) (cs : List Char) : Cut offset cs (scanFrom 0 offset cs) := by
  induction hn : cs.length using Nat.strongRecOn generalizing offset cs with
  | ind n ih =>
    subst hn
    cases cs with
    | nil => exact .done
    | cons c cs =>
      cases hb : isBlank c with
      | true =>
        simp only [scanFrom, hb, ↓reduceIte]
        exact .blank hb (ih _ (Nat.lt_succ_self _) _ _ rfl)
      | false =>
        cases ht : token (c :: cs) with
        | none =>
          simp only [scanFrom, hb, Bool.false_eq_true, ↓reduceIte, ht]
          exact .stray hb ht (ih _ (Nat.lt_succ_self _) _ _ rfl)
        | some m =>
          obtain ⟨kind, n⟩ := m
          obtain ⟨hpos, hle⟩ := token_length ht
          -- The scan behind the first character passes over the other characters of the token.
          obtain ⟨text, rest, rfl, rfl⟩ : ∃ text rest, cs = text ++ rest ∧ n = text.length + 1 := by
            refine ⟨cs.take (n - 1), cs.drop (n - 1), (List.take_append_drop ..).symm, ?_⟩
            rw [List.length_cons] at hle
            rw [List.length_take]
            omega
          have hrest := ih _ (by simp only [List.length_cons, List.length_append]; omega)
            (offset + bytes (c :: text)) rest rfl
          rw [← List.cons_append, scanFrom_token offset hb ht]
          exact .token hb ht hrest

theorem scan_cut (formula : String) : Cut 0 formula.toList (scan formula) :=
  scanFrom_cut 0 formula.toList

/-- `Spread ts cs`: the characters `cs` are the texts of the tokens `ts` in order, and between them
white space and characters at which no token begins. -/
inductive Spread : List Token → List Char → Prop
  | done : Spread [] []
  | blank {c : Char} {cs : List Char} {ts : List Token} : isBlank c = true →
      Spread ts cs → Spread ts (c :: cs)
  | stray {c : Char} {cs : List Char} {ts : List Token} : isBlank c = false →
      token (c :: cs) = none → Spread ts cs → Spread ts (c :: cs)
  | token {t : Token} {cs : List Char} {ts : List Token} :
      token (t.text.toList ++ cs) = some (t.kind, t.text.toList.length) →
      Spread ts cs → Spread (t :: ts) (t.text.toList ++ cs)

def token? : Lexeme → Option Token
  | .token t => some t
  | .stray _ => none

theorem Cut.spread {offset : Nat} {cs : List Char} {found : List Lexeme}
    (h : Cut offset cs found) : Spread (found.filterMap token?) cs := by
  induction h with
  | done => exact .done
  | blank hb _ ih => exact .blank hb ih
  | @token offset kind c text cs found _ ht _ ih =>
    let t : Token := ⟨kind, String.ofList (c :: text), offset⟩
    have hs : Spread (t :: found.filterMap token?) (t.text.toList ++ cs) :=
      .token (by rw [String.toList_ofList]; exact ht) ih
    rw [String.toList_ofList] at hs
    exact hs
  | stray hb ht _ ih => exact .stray hb ht ih

/-- A formula is its tokens, white space and stray characters. -/
theorem tokens_spread (formula : String) : Spread (tokens formula) formula.toList := by
  have hs := (scan_cut formula).spread
  rw [tokens]
  exact hs

theorem Spread.isSpelled {ts : List Token} {cs : List Char} (h : Spread ts cs) :
    ∀ t ∈ ts, t.IsSpelled := by
  induction h with
  | done => simp
  | blank _ _ ih => exact ih
  | stray _ _ _ ih => exact ih
  | @token t cs ts ht _ ih =>
    refine List.forall_mem_cons.mpr ⟨fun s hs => ?_, ih⟩
    have htext := token_spelling ht hs
    rw [List.take_left] at htext
    exact String.toList_inj.mp htext

end Lexer

end Formula
