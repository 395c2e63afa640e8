import Formula.Proofs.Lexing

/-!
The language of each kind of token, apart from how the lexer goes through the characters.

* `token_language`: the text of a token is in the language of its kind;
* `operator_longest`: where the lexer finds an operator, no longer spelling of an operator stands.
-/

namespace Formula

open Formula.Text

namespace Lexer

/-! ## Languages -/

def Digits (cs : List Char) : Prop := cs ≠ [] ∧ ∀ c ∈ cs, isDigit c = true

/-- Nothing, or a point and digits. -/
def Fraction (cs : List Char) : Prop := cs = [] ∨ ∃ ds, Digits ds ∧ cs = '.' :: ds

def Sign (cs : List Char) : Prop := cs = [] ∨ cs = ['+'] ∨ cs = ['-']

/-- Nothing, or a small letter e, a sign if any, and digits. -/
def Exponent (cs : List Char) : Prop :=
  cs = [] ∨ ∃ sign ds, Sign sign ∧ Digits ds ∧ cs = 'e' :: (sign ++ ds)

/-- What may stand between two quotes `q`: pairs of backslashes, quotes behind a backslash, and all
characters but the quote. -/
inductive Quotable (q : Char) : List Char → Prop
  | nil : Quotable q []
  | backslashes {cs : List Char} : Quotable q cs → Quotable q ('\\' :: '\\' :: cs)
  | escaped {cs : List Char} : Quotable q cs → Quotable q ('\\' :: q :: cs)
  | plain {c : Char} {cs : List Char} : c ≠ q → Quotable q cs → Quotable q (c :: cs)

def IsQuote (c : Char) : Prop := c = '\u0022' ∨ c = '\''

end Lexer

open Lexer

def LiteralKind.Language : LiteralKind → List Char → Prop
  | .string, cs => ∃ q body, IsQuote q ∧ Quotable q body ∧ cs = q :: (body ++ [q])
  | .date, cs => ∃ day time, day ≠ [] ∧ (∀ c ∈ day, inDay c = true) ∧
      time ≠ [] ∧ (∀ c ∈ time, inTime c = true) ∧ cs = day ++ 'T' :: (time ++ ['Z'])
  | .number, cs => ∃ whole fraction exponent, Digits whole ∧ Fraction fraction ∧
      Exponent exponent ∧ cs = whole ++ (fraction ++ exponent)
  | .boolean, cs => cs = "true".toList ∨ cs = "false".toList
  | .null, cs => cs = "null".toList
  | .undefined, cs => cs = "undefined".toList
  | .nan, cs => cs = "NaN".toList

/-- The texts of a kind of token. -/
def TokenKind.Language : TokenKind → List Char → Prop
  | .literal kind, cs => kind.Language cs
  | .function, cs => cs ≠ [] ∧ ∀ c ∈ cs, inName c = true
  | .reference, cs => ∃ path, path ≠ [] ∧ (∀ c ∈ path, inPath c = true) ∧
      cs = '\x7b' :: (path ++ ['\x7d'])
  | .openParen, cs => cs = ['(']
  | .closeParen, cs => cs = [')']
  | .openBracket, cs => cs = ['[']
  | .closeBracket, cs => cs = [']']
  | .comma, cs => cs = [',']
  | .operator o, cs => cs = o.symbol.toList

namespace Lexer

/-! ## The kinds one by one -/

theorem mem_takeWhile {p : Char → Bool} {cs : List Char} :
    ∀ c ∈ cs.takeWhile p, p c = true :=
  List.all_eq_true.mp List.all_takeWhile

theorem take_takeWhile (p : Char → Bool) (cs : List Char) :
    cs.take (cs.takeWhile p).length = cs.takeWhile p :=
  (List.prefix_iff_eq_take.mp (List.takeWhile_prefix p)).symm

theorem take_of_append {cs front rest : List Char} {n : Nat} (h : cs = front ++ rest)
    (hn : n = front.length) : cs.take n = front := by
  subst h hn
  exact List.take_left

theorem digits_takeWhile {cs : List Char} (h : (cs.takeWhile isDigit).isEmpty = false) :
    Digits (cs.takeWhile isDigit) := by
  refine ⟨?_, mem_takeWhile⟩
  intro hnil
  rw [hnil] at h
  cases h

theorem fraction_language (cs : List Char) : Fraction (cs.take (fractionLength cs)) := by
  unfold fractionLength
  split
  · next ds =>
    dsimp only
    split
    · exact .inl rfl
    · next hne =>
      have hds := digits_takeWhile (Bool.eq_false_iff.mpr hne)
      refine .inr ⟨_, hds, ?_⟩
      rw [List.take_succ_cons, take_takeWhile]
  · exact .inl rfl

theorem sign_language (cs : List Char) : Sign (cs.take (signLength cs)) := by
  unfold signLength
  split
  · next c cs =>
    split
    · next hc =>
      rcases hc with rfl | rfl
      · exact .inr (.inl rfl)
      · exact .inr (.inr rfl)
    · exact .inl rfl
  · exact .inl rfl

theorem exponent_language (cs : List Char) : Exponent (cs.take (exponentLength cs)) := by
  unfold exponentLength
  split
  · next ds =>
    dsimp only
    split
    · exact .inl rfl
    · next hne =>
      have hds := digits_takeWhile (Bool.eq_false_iff.mpr hne)
      refine .inr ⟨_, _, sign_language ds, hds, ?_⟩
      rw [List.take_succ_cons, Nat.add_comm, List.take_add, take_takeWhile]
  · exact .inl rfl

theorem number_language {cs : List Char} {kind : TokenKind} {n : Nat}
    (h : number cs = some (kind, n)) : LiteralKind.number.Language (cs.take n) := by
  simp only [number] at h
  split at h
  · cases h
  · next hw =>
    cases h
    have hdigits : Digits (cs.takeWhile isDigit) := by
      refine ⟨?_, mem_takeWhile⟩
      intro hnil
      rw [hnil] at hw
      exact hw rfl
    have hfraction := fraction_language (cs.drop (cs.takeWhile isDigit).length)
    have hexponent := exponent_language (cs.drop ((cs.takeWhile isDigit).length +
      fractionLength (cs.drop (cs.takeWhile isDigit).length)))
    refine ⟨_, _, _, hdigits, hfraction, hexponent, ?_⟩
    rw [List.take_add, List.take_add, take_takeWhile, List.append_assoc]

theorem date_language {cs : List Char} {kind : TokenKind} {n : Nat}
    (h : date cs = some (kind, n)) : LiteralKind.date.Language (cs.take n) := by
  have hday := List.takeWhile_append_dropWhile (p := inDay) (l := cs)
  simp only [date] at h
  split at h
  · next rest hrest =>
    have htime := List.takeWhile_append_dropWhile (p := inTime) (l := rest)
    split at h
    · next left hleft =>
      split at h
      · cases h
      · next hne =>
        cases h
        simp only [Bool.or_eq_true, not_or, List.isEmpty_iff] at hne
        refine ⟨_, _, hne.1, mem_takeWhile, hne.2, mem_takeWhile, ?_⟩
        rw [hrest] at hday
        rw [hleft] at htime
        -- The characters are the day, a T, the time, a Z, and what is left.
        have hcs : cs =
            (cs.takeWhile inDay ++ 'T' :: (rest.takeWhile inTime ++ ['Z'])) ++ left := by
          calc cs = cs.takeWhile inDay ++ 'T' :: rest := hday.symm
            _ = cs.takeWhile inDay ++ 'T' :: (rest.takeWhile inTime ++ 'Z' :: left) := by
              rw [htime]
            _ = _ := by simp
        refine take_of_append hcs ?_
        simp only [List.length_append, List.length_cons, List.length_nil]
        omega
    · cases h
  · cases h

/-- Where a string closes. Either it is the quote that was found before, or there is a quote that
closes the characters before it. -/
theorem closing_language {q : Char} (hq : q ≠ '\\') {n m : Nat} {last : Option Nat}
    {cs : List Char} (h : closing q n last cs = some m) :
    last = some m ∨
      ∃ body rest, cs = body ++ q :: rest ∧ Quotable q body ∧ m = n + body.length + 1 := by
  fun_induction closing q n last cs with
  | case1 n last => exact .inl h
  | case2 n last cs ih =>
    rcases ih h with hl | ⟨body, rest, rfl, hb, rfl⟩
    · exact .inl hl
    · refine .inr ⟨'\\' :: '\\' :: body, rest, rfl, .backslashes hb, ?_⟩
      simp only [List.length_cons]
      omega
  | case3 n last cs _ ih =>
    rcases ih h with hl | ⟨body, rest, rfl, hb, rfl⟩
    · -- The quote behind the backslash closes after all.
      cases hl
      exact .inr ⟨['\\'], cs, rfl, .plain (Ne.symm hq) .nil, rfl⟩
    · refine .inr ⟨'\\' :: q :: body, rest, rfl, .escaped hb, ?_⟩
      simp only [List.length_cons]
      omega
  | case4 n last c cs _ hc ih =>
    rcases ih h with hl | ⟨body, rest, rfl, hb, rfl⟩
    · exact .inl hl
    · refine .inr ⟨'\\' :: c :: body, rest, rfl, .plain (Ne.symm hq) (.plain hc hb), ?_⟩
      simp only [List.length_cons]
      omega
  | case5 n last cs =>
    cases h
    exact .inr ⟨[], cs, rfl, .nil, rfl⟩
  | case6 n last c cs _ hc ih =>
    rcases ih h with hl | ⟨body, rest, rfl, hb, rfl⟩
    · exact .inl hl
    · refine .inr ⟨c :: body, rest, rfl, .plain hc hb, ?_⟩
      simp only [List.length_cons]
      omega

theorem IsQuote.ne_backslash {q : Char} (h : IsQuote q) : q ≠ '\\' := by
  rcases h with rfl | rfl <;> decide

theorem string_language {cs : List Char} {kind : TokenKind} {n : Nat}
    (h : string cs = some (kind, n)) : LiteralKind.string.Language (cs.take n) := by
  cases cs with
  | nil => cases h
  | cons q cs =>
    simp only [string] at h
    split at h
    · next hq =>
      simp only [Option.map_eq_some_iff, Prod.mk.injEq] at h
      obtain ⟨m, hm, -, rfl⟩ := h
      have hquote : IsQuote q := hq
      rcases closing_language hquote.ne_backslash hm with hl | ⟨body, rest, rfl, hb, rfl⟩
      · cases hl
      · refine ⟨q, body, hquote, hb, ?_⟩
        have hcs : body ++ q :: rest = (body ++ [q]) ++ rest := by simp
        rw [List.take_succ_cons, take_of_append hcs (by simp)]
    · cases h

theorem function_language {cs : List Char} {kind : TokenKind} {n : Nat}
    (h : function cs = some (kind, n)) : TokenKind.function.Language (cs.take n) := by
  simp only [function] at h
  split at h
  · cases h
  · next hne =>
    cases h
    rw [take_takeWhile]
    exact ⟨fun hnil => hne (by rw [hnil]; rfl), mem_takeWhile⟩

theorem reference_language {cs : List Char} {kind : TokenKind} {n : Nat}
    (h : reference cs = some (kind, n)) : TokenKind.reference.Language (cs.take n) := by
  unfold reference at h
  split at h
  · next cs =>
    have hpath := List.takeWhile_append_dropWhile (p := inPath) (l := cs)
    dsimp only at h
    split at h
    · next left hleft =>
      split at h
      · cases h
      · next hne =>
        cases h
        refine ⟨cs.takeWhile inPath, ?_, mem_takeWhile, ?_⟩
        · intro hnil
          exact hne (by rw [hnil]; rfl)
        · rw [hleft] at hpath
          have hcs : cs = (cs.takeWhile inPath ++ ['\x7d']) ++ left := by
            rw [List.append_assoc]
            exact hpath.symm
          rw [List.take_succ_cons, take_of_append hcs (by simp)]
    · cases h
  · cases h

/-- The spellings of a table are in the languages of their kinds. -/
theorem fixed_language {table : List (String × TokenKind)} {cs : List Char} {kind : TokenKind}
    {n : Nat} (ht : ∀ e ∈ table, e.2.Language e.1.toList)
    (h : fixed table cs = some (kind, n)) : kind.Language (cs.take n) := by
  obtain ⟨s, hmem, hprefix, rfl⟩ := fixed_eq_some h
  have hs := ht _ hmem
  rw [List.prefix_iff_eq_take.mp hprefix] at hs
  exact hs

theorem symbols_language : ∀ e ∈ symbols, e.2.Language e.1.toList := by
  simp [symbols, TokenKind.Language, Operator.symbol]

theorem keywords_language : ∀ e ∈ keywords, e.2.Language e.1.toList := by
  simp [keywords, TokenKind.Language, LiteralKind.Language]

theorem lateSymbols_language : ∀ e ∈ lateSymbols, e.2.Language e.1.toList := by
  simp [lateSymbols, TokenKind.Language, Operator.symbol]

/-- The text of a token is in the language of its kind. -/
theorem token_language {cs : List Char} {kind : TokenKind} {n : Nat}
    (h : token cs = some (kind, n)) : kind.Language (cs.take n) := by
  rcases token_cases h with h | h | h | h | h | h | h | h | h
  · exact fixed_language symbols_language h
  · obtain ⟨rfl, -⟩ := date_eq_some h
    exact date_language h
  · obtain ⟨rfl, -⟩ := string_eq_some h
    exact string_language h
  · exact fixed_language keywords_language h
  · obtain ⟨rfl, -⟩ := number_eq_some h
    exact number_language h
  · exact fixed_language lateSymbols_language h
  · obtain ⟨rfl, -⟩ := function_eq_some h
    exact function_language h
  · obtain ⟨rfl, -⟩ := reference_eq_some h
    exact reference_language h
  · obtain ⟨rfl, -, -, htake⟩ := comma_eq_some h
    exact htake

/-! ## The longest operator -/

def spellings : List (String × TokenKind) := symbols ++ lateSymbols

/-- No spelling begins with one that stands before it. -/
theorem spellings_longest_first :
    spellings.Pairwise fun a b => ¬ a.1.toList <+: b.1.toList := by
  decide

theorem symbol_mem_spellings (o : Operator) : (o.symbol, .operator o) ∈ spellings := by
  cases o <;> decide

/-- An operator is found in one of the two tables. -/
theorem operator_found {cs : List Char} {o : Operator} {n : Nat}
    (h : token cs = some (.operator o, n)) : fixed spellings cs = some (.operator o, n) := by
  have hboth : fixed spellings cs = (fixed symbols cs).or (fixed lateSymbols cs) := by
    simp only [fixed, spellings, List.find?_append]
    cases symbols.find? fun e => e.1.toList.isPrefixOf cs <;> rfl
  rw [hboth]
  cases hs : fixed symbols cs with
  | some m =>
    rw [token, hs] at h
    exact h
  | none =>
    have hkeyword : ∀ e ∈ keywords, e.2 ≠ .operator o := by simp [keywords]
    simp only [token, Option.or_eq_some_iff, hs, reduceCtorEq, false_or, true_and] at h
    rcases h with h | ⟨-, h | ⟨-, h | ⟨-, h | ⟨-, h | ⟨-, h | ⟨-, h | ⟨-, h⟩⟩⟩⟩⟩⟩⟩
    · cases (date_eq_some h).1
    · cases (string_eq_some h).1
    · obtain ⟨s, hmem, -, -⟩ := fixed_eq_some h
      exact absurd rfl (hkeyword _ hmem)
    · cases (number_eq_some h).1
    · exact h
    · cases (function_eq_some h).1
    · cases (reference_eq_some h).1
    · cases (comma_eq_some h).1

/-- Of the spellings that the characters begin with, the one that is found is the longest. -/
theorem operator_longest {cs : List Char} {o other : Operator} {n : Nat}
    (h : token cs = some (.operator o, n)) (hother : other.symbol.toList <+: cs) :
    other.symbol.length ≤ n := by
  have hfound := operator_found h
  simp only [fixed, Option.map_eq_some_iff, Prod.mk.injEq] at hfound
  obtain ⟨e, hfind, -, rfl⟩ := hfound
  obtain ⟨hhere, front, back, hsplit, hfront⟩ := List.find?_eq_some_iff_append.mp hfind
  have hmem := symbol_mem_spellings other
  rw [hsplit, List.mem_append, List.mem_cons] at hmem
  rcases hmem with hmem | rfl | hmem
  · have hnot := hfront _ hmem
    rw [List.isPrefixOf_iff_prefix.mpr hother] at hnot
    cases hnot
  · exact Nat.le_refl _
  · -- Both begin the characters, so that one begins the other; the one found stands before.
    have hpair := spellings_longest_first
    rw [hsplit] at hpair
    have hlater := List.rel_of_pairwise_cons (List.pairwise_append.mp hpair).2.1 hmem
    rcases List.prefix_or_prefix_of_prefix (List.isPrefixOf_iff_prefix.mp hhere) hother with
      hle | hle
    · exact absurd hle hlater
    · exact hle.length_le

end Lexer

end Formula
