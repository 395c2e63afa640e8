import Formula.Proofs.Placement
import Formula.Proofs.Stability

/-!
White space between tokens does not matter.

* `Spaced.scan`: in the texts of the tokens of a formula with any white space between them the lexer
  finds the same tokens, at other offsets;
* `spacing_irrelevant`: hence the value and the type of the formula are the same.
-/

namespace Formula

open Formula.Text

/-- The characters are the texts of the tokens in order, with white space in front of them and
behind them, and some between any two of them. -/
inductive Spaced : List Token → List Char → Prop
  | done : Spaced [] []
  | blank {c : Char} {cs : List Char} {ts : List Token} : isBlank c = true →
      Spaced ts cs → Spaced ts (c :: cs)
  | token {t : Token} {cs : List Char} {ts : List Token} : Lexer.Breaks cs →
      Spaced ts cs → Spaced (t :: ts) (t.text.toList ++ cs)

namespace Lexer

/-- A token begins with a character that is not white space. -/
theorem token_not_blank {c : Char} {cs : List Char} {kind : TokenKind} {n : Nat}
    (h : token (c :: cs) = some (kind, n)) : isBlank c = false := by
  have hlanguage := token_language h
  obtain ⟨n, rfl⟩ : ∃ m, n = m + 1 := ⟨n - 1, by have := (token_length h).1; omega⟩
  rw [List.take_succ_cons] at hlanguage
  by_cases hk : kind = .literal .string
  · subst hk
    obtain ⟨q, body, hq, -, hcs⟩ := hlanguage
    obtain ⟨rfl, -⟩ := List.cons.inj hcs
    exact hq.not_blank
  · exact language_not_blank hlanguage hk c (.head _)

/-- The first token stands somewhere, and the others behind it. -/
theorem Spread.uncons {t : Token} {ts : List Token} {cs : List Char} (h : Spread (t :: ts) cs) :
    ∃ rest, Lexer.token (t.text.toList ++ rest) = some (t.kind, t.text.toList.length) ∧
      Spread ts rest := by
  generalize hall : t :: ts = all at h
  induction h with
  | done => cases hall
  | blank _ _ ih => exact ih hall
  | stray _ _ _ ih => exact ih hall
  | @token u cs us ht h _ =>
    cases hall
    exact ⟨cs, ht, h⟩

/-- The characters of every token are among the characters. -/
theorem Spread.mem {ts : List Token} {cs : List Char} (h : Spread ts cs) {t : Token} (ht : t ∈ ts)
    {c : Char} (hc : c ∈ t.text.toList) : c ∈ cs := by
  induction h with
  | done => cases ht
  | blank _ _ ih => exact .tail _ (ih ht)
  | stray _ _ _ ih => exact .tail _ (ih ht)
  | token _ _ ih =>
    rcases List.mem_cons.mp ht with rfl | ht
    · exact List.mem_append_left _ hc
    · exact List.mem_append_right _ (ih ht)

end Lexer

namespace Spaced

open Lexer

/-- All characters but white space belong to tokens. -/
theorem mem {ts : List Token} {cs : List Char} (h : Spaced ts cs) {c : Char} (hc : c ∈ cs)
    (hb : isBlank c = false) : ∃ t ∈ ts, c ∈ t.text.toList := by
  induction h with
  | done => cases hc
  | blank hblank _ ih =>
    rcases List.mem_cons.mp hc with rfl | hc
    · rw [hb] at hblank
      cases hblank
    · exact ih hc
  | @token t cs ts _ _ ih =>
    rcases List.mem_append.mp hc with hc | hc
    · exact ⟨t, .head ts, hc⟩
    · obtain ⟨u, hu, hcu⟩ := ih hc
      exact ⟨u, .tail t hu, hcu⟩

/-- The texts of tokens with white space between them hold no quotes that are not in the characters
that the tokens were found in. -/
theorem replaces {ts more : List Token} {cs cs' : List Char} (h : Spaced ts cs') (hb : Breaks cs')
    (hs : Spread (ts ++ more) cs) : Replaces cs' cs where
  breaks := hb
  quotes q hq hmem := by
    obtain ⟨t, ht, hqt⟩ := h.mem hmem hq.not_blank
    exact hs.mem (List.mem_append_left more ht) hqt

/-- The lexer finds tokens again with white space between them, and nothing else, although those
that stood behind them are gone. -/
theorem scan {ts more : List Token} {cs cs' : List Char} (h : Spaced ts cs')
    (hs : Spread (ts ++ more) cs) (offset : Nat) :
    ∃ us : List Token, scanFrom 0 offset cs' = us.map Lexeme.token ∧
      us.map Token.face = ts.map Token.face := by
  induction h generalizing cs offset with
  | done => exact ⟨[], rfl, rfl⟩
  | @blank c cs' ts hb _ ih =>
    obtain ⟨us, hscan, hfaces⟩ := ih hs (offset + c.utf8Size)
    refine ⟨us, ?_, hfaces⟩
    rw [scanFrom]
    simpa only [hb, ↓reduceIte] using hscan
  | @token t cs' ts hb h ih =>
    obtain ⟨rest, ht, hrest⟩ := hs.uncons
    have hpos := (token_length ht).1
    -- The token was found in front of the rest, and so it is in front of the white space.
    have hfound : Lexer.token (t.text.toList ++ cs') = some (t.kind, t.text.toList.length) :=
      (token_stable _ rest cs' (List.ne_nil_of_length_pos hpos) (h.replaces hb hrest)).1 _ ht
    cases htext : t.text.toList with
    | nil =>
      rw [htext] at hpos
      cases hpos
    | cons c text =>
      rw [htext] at hfound
      obtain ⟨us, hscan, hfaces⟩ := ih hrest (offset + bytes (c :: text))
      have hsame : String.ofList (c :: text) = t.text := by rw [← htext, String.ofList_toList]
      refine ⟨⟨t.kind, t.text, offset⟩ :: us, ?_, ?_⟩
      · rw [scanFrom_token offset (token_not_blank hfound) hfound, hscan, hsame]
        rfl
      · rw [List.map_cons, List.map_cons, hfaces]
        rfl

/-- The texts of the first tokens of a formula with white space between them have no stray
characters and tokens of the same kinds and texts. -/
theorem tokens_front {ts more : List Token} {formula formula' : String}
    (h : Spaced ts formula'.toList) (hts : tokens formula = ts ++ more) :
    lexErrors formula' = [] ∧ (tokens formula').map Token.face = ts.map Token.face := by
  have hspread := tokens_spread formula
  rw [hts] at hspread
  obtain ⟨us, hscan, hfaces⟩ := h.scan hspread 0
  have hscan : Lexer.scan formula' = us.map Lexeme.token := hscan
  refine ⟨?_, ?_⟩
  · rw [lexErrors, hscan, List.filterMap_map, List.filterMap_eq_nil_iff]
    exact fun _ _ => rfl
  · rw [Formula.tokens, hscan, List.filterMap_map, ← hfaces]
    exact congrArg (List.map Token.face) (List.filterMap_some (l := us))

/-- So have the texts of all of them. -/
theorem tokens {formula formula' : String} (h : Spaced (tokens formula) formula'.toList) :
    lexErrors formula' = [] ∧
      (Formula.tokens formula').map Token.face = (Formula.tokens formula).map Token.face :=
  h.tokens_front (List.append_nil _).symm

end Spaced

/-- White space does not matter. The texts of the tokens of a formula without stray characters can
be written with any white space between them: they have tokens of the same kinds and texts, and
under all options without a limit on the length the same value and the same type as the formula,
or the same error but for its offset, whatever the functions and the variables or declared types
are. -/
theorem spacing_irrelevant {formula formula' : String} (hlex : lexErrors formula = [])
    (h : Spaced (tokens formula) formula'.toList) :
    lexErrors formula' = [] ∧
    (tokens formula').map Token.face = (tokens formula).map Token.face ∧
    ∀ options : Options, options.maxLength = none →
      (∀ (functions : Registry Body) (vars : Value),
        Alike (eval functions options vars formula') (eval functions options vars formula)) ∧
      ∀ (functions : Registry TypeCheck) (types : TypeMap),
        Alike (check functions options types formula') (check functions options types formula) := by
  obtain ⟨hlex', hfaces⟩ := h.tokens
  refine ⟨hlex', hfaces, fun options hlength => ⟨?_, ?_⟩⟩
  · exact eval_alike hlex hlex' hfaces hlength
  · exact check_alike hlex hlex' hfaces hlength

/-- A string that an escaped quote closes, since there is no other, and a function that is not
found, at another place. -/
theorem spacing_irrelevant_escaped :
    ∃ e e' : FormulaError, eval Library.bodies {} .null "'\\'+FOO()" = .error e ∧
      eval Library.bodies {} .null "\u2003'\\' + FOO ( )" = .error e' ∧
      e.place = "4" ∧ e'.place = "9" ∧ Alike (α := Value) (.error e') (.error e) ∧
      (tokens "\u2003'\\' + FOO ( )").map Token.face = (tokens "'\\'+FOO()").map Token.face := by
  have htokens : tokens "'\\'+FOO()" =
      [⟨.literal .string, "'\\'", 0⟩, ⟨.operator .add, "+", 3⟩, ⟨.function, "FOO", 4⟩,
        ⟨.openParen, "(", 7⟩, ⟨.closeParen, ")", 8⟩] := by cbv
  have hlex : lexErrors "'\\'+FOO()" = [] := by cbv
  have hend : Lexer.Breaks [] := by
    rintro c ds ⟨⟩
  have hspace : ∀ cs, Lexer.Breaks (' ' :: cs) := by
    rintro cs c ds ⟨⟩
    rfl
  have hspaced : Spaced (tokens "'\\'+FOO()") "\u2003'\\' + FOO ( )".toList := by
    rw [htokens]
    exact .blank rfl <| .token (hspace _) <| .blank rfl <| .token (hspace _) <| .blank rfl <|
      .token (hspace _) <| .blank rfl <| .token (hspace _) <| .blank rfl <| .token hend .done
  obtain ⟨-, hfaces, hsame⟩ := spacing_irrelevant hlex hspaced
  have halike := (hsame {} rfl).1 Library.bodies .null
  have he : eval Library.bodies {} .null "'\\'+FOO()" =
      .error (.eval (.unknownFunction "FOO" 4)) := by cbv
  have he' : eval Library.bodies {} .null "\u2003'\\' + FOO ( )" =
      .error (.eval (.unknownFunction "FOO" 9)) := by cbv
  rw [he, he'] at halike
  exact ⟨_, _, he, he', by decide, by decide, halike, hfaces⟩

end Formula
