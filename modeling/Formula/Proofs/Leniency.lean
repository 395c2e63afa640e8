import Formula.Proofs.Levels
import Formula.Proofs.Spacing

/-!
Checking a formula leniently is checking strictly what is left of it without its stray characters
and without the tokens behind its first expression.

* `parse_taken`: the tokens of the expression at the front make the same by themselves;
* `spaced_joined`: joined by spaces they are texts that the lexer finds again;
* `lenient_check`: hence the lenient check has the outcome of the strict one of these texts.
-/

namespace Formula

open Grammar Formula.Parser

/-! ## The front of tokens -/

/-- The tokens that the expression at the front of others takes make the same by themselves. -/
theorem parse_taken {maxDepth : Option Nat} {ts us : List Token} {t : Term}
    (h : startParser maxDepth ts ts = .ok t us) :
    ∃ taken, ts = taken ++ us ∧ parse maxDepth taken = .ok t := by
  obtain ⟨taken, htaken, -, hreads⟩ := (expression_sound (operand_sound _ _) _ _ _ h).split
  refine ⟨taken, htaken, parse_eq_ok_iff_within.mpr ⟨?_, ?_⟩⟩
  · simpa using hreads []
  · rintro limit rfl
    exact expression_within (operand_within _ _) _ _ _ h

/-- What fails at the front fails. -/
theorem parse_of_parsePrefix {maxDepth : Option Nat} {ts : List Token} {e : ParseError}
    (h : parsePrefix maxDepth ts = .error e) : parse maxDepth ts = .error e := by
  rw [parsePrefix] at h
  rw [parse, ParserState.parse]
  cases hp : (ParserState.start ts maxDepth).parsePrefix with
  | mk outcome s =>
    rw [hp] at h
    subst h
    rfl

/-! ## Reading under both options -/

namespace Options

variable (maxDepth : Option Nat) (formula : String)

/-- Without a limit on its length a formula is read strictly from its tokens, unless there is a
stray character. -/
theorem read_strictly :
    read { maxDepth } formula =
      match lexErrors formula with
      | e :: _ => .error (.lex e)
      | [] => (parse maxDepth (tokens formula)).mapError .parse := by
  unfold read
  cases lexErrors formula <;> rfl

/-- Without a limit on its length a formula is read leniently from the front of its tokens. -/
theorem read_leniently :
    read { strict := false, maxDepth } formula =
      (parsePrefix maxDepth (tokens formula)).mapError .parse := rfl

variable {maxDepth formula}

/-- What is read strictly is read leniently. -/
theorem read_leniently_of_strictly {t : Term} (h : read { maxDepth } formula = .ok t) :
    read { strict := false, maxDepth } formula = .ok t := by
  obtain ⟨us, hp, -⟩ := read_starts h
  rw [read_leniently, parsePrefix_eq_ok.mpr ⟨us, hp⟩]
  rfl

/-- Reading refuses no types. -/
theorem read_ne_check (e : CheckError) : read { maxDepth } formula ≠ .error (.check e) := by
  rw [read_strictly]
  cases lexErrors formula with
  | nil =>
    intro h
    obtain ⟨_, -, he⟩ := mapError_eq_error.mp h
    cases he
  | cons stray others => rintro ⟨⟩

end Options

/-! ## Texts joined by spaces -/

def joined (ts : List Token) : String := " ".intercalate (ts.map Token.text)

theorem spaced_joined (ts : List Token) : Spaced ts (joined ts).toList := by
  unfold joined
  induction ts with
  | nil => exact .done
  | cons t ts ih =>
    cases ts with
    | nil =>
      have hend : Spaced [t] (t.text.toList ++ []) := .token (by rintro c ds ⟨⟩) .done
      rw [List.append_nil] at hend
      rwa [List.map_singleton, String.intercalate_singleton]
    | cons u ts =>
      rw [List.map_cons, List.map_cons, String.intercalate_cons_cons, String.toList_append,
        String.toList_append, List.append_assoc]
      refine .token ?_ (.blank rfl ih)
      rintro c ds ⟨⟩
      rfl

/-- The first tokens of a formula joined by spaces are read strictly as what these tokens make, but
for the offsets. -/
theorem read_joined {formula : String} {ts more : List Token} (h : tokens formula = ts ++ more)
    (maxDepth : Option Nat) :
    ((Options.read { maxDepth } (joined ts)).map Term.unplaced).mapError FormulaError.unplaced =
      (((parse maxDepth ts).map Term.unplaced).mapError ParseError.unplaced).mapError .parse := by
  obtain ⟨hlex, hfaces⟩ := (spaced_joined ts).tokens_front h
  rw [Options.read_unplaced rfl hlex, map_unplaced_of_faces hfaces, if_pos rfl, parse_unplaced]

/-! ## Checking under both options -/

section

variable (functions : Registry TypeCheck) (types : TypeMap) {maxDepth : Option Nat}
  {formula : String}

/-- A lenient check is alike a strict one of tokens from the front that make the same. -/
theorem check_joined {ts more : List Token} (htokens : tokens formula = ts ++ more)
    (h : parsePrefix maxDepth (tokens formula) = parse maxDepth ts) :
    Alike (check functions { strict := false, maxDepth } types formula)
      (check functions { maxDepth } types (joined ts)) := by
  refine .of_unplaced ?_
  rw [check_of_read, check_of_read, read_joined htokens, Options.read_leniently, h]
  cases parse maxDepth ts <;> rfl

/-- Where there is an expression at the front, its tokens are checked. -/
theorem check_front {t : Term} {s : ParserState}
    (h : (ParserState.start (tokens formula) maxDepth).parsePrefix = (.ok t, s)) :
    ∃ taken, tokens formula = taken ++ s.remaining ∧
      Alike (check functions { strict := false, maxDepth } types formula)
        (check functions { maxDepth } types (joined taken)) := by
  have hfront : parsePrefix maxDepth (tokens formula) = .ok t := congrArg Prod.fst h
  obtain ⟨us, hparsed⟩ := parsePrefix_eq_ok.mp hfront
  obtain ⟨taken, htaken, hparse⟩ := parse_taken hparsed
  rw [start_parsePrefix, hparsed] at h
  obtain ⟨-, rfl⟩ := Prod.mk.inj h
  exact ⟨taken, htaken, check_joined functions types htaken (hfront.trans hparse.symm)⟩

/-- Where there is none, the parser fails on the tokens without stray characters too. -/
theorem check_no_front {e : ParseError} {s : ParserState}
    (h : (ParserState.start (tokens formula) maxDepth).parsePrefix = (.error e, s)) :
    check functions { strict := false, maxDepth } types formula = .error (.parse e) ∧
      ∃ offset, check functions { maxDepth } types (joined (tokens formula)) =
        .error (.parse (e.moved offset)) := by
  have hfront : parsePrefix maxDepth (tokens formula) = .error e := congrArg Prod.fst h
  have hlenient : check functions { strict := false, maxDepth } types formula =
      .error (.parse e) := by
    rw [check, Options.read_leniently, hfront]
    rfl
  have halike := check_joined functions types (List.append_nil _).symm
    (hfront.trans (parse_of_parsePrefix hfront).symm)
  rw [hlenient] at halike
  exact ⟨hlenient, halike.eq_moved⟩

/-- What the strict check finds, the lenient one does. -/
theorem check_leniently {t : Term} (h : Options.read { maxDepth } formula = .ok t) :
    check functions { strict := false, maxDepth } types formula =
      check functions { maxDepth } types formula := by
  rw [check, check, h, Options.read_leniently_of_strictly h]

end

/-- The lenient check of a formula, under any limit on the depth and with any functions and declared
types, is the strict check of what the parser takes of it. Where there is an expression at the front
of its tokens, the outcome is that of the tokens of this expression joined by spaces, but for the
offset of an error. Otherwise the check fails with the error of the parser, and so does that of all
the tokens joined by spaces, but for the offset. Whenever the strict check of the formula itself
finds a type or refuses one, the lenient check has the same outcome. -/
theorem lenient_check (functions : Registry TypeCheck) (types : TypeMap) (maxDepth : Option Nat)
    (formula : String) :
    (match (ParserState.start (tokens formula) maxDepth).parsePrefix with
      | (.ok _, s) => ∃ taken, tokens formula = taken ++ s.remaining ∧
        Alike (check functions { strict := false, maxDepth } types formula)
          (check functions { maxDepth } types (joined taken))
      | (.error e, _) =>
        check functions { strict := false, maxDepth } types formula = .error (.parse e) ∧
        ∃ offset, check functions { maxDepth } types (joined (tokens formula)) =
          .error (.parse (e.moved offset))) ∧
    (∀ type, check functions { maxDepth } types formula = .ok type →
      check functions { strict := false, maxDepth } types formula = .ok type) ∧
    ∀ e, check functions { maxDepth } types formula = .error (.check e) →
      check functions { strict := false, maxDepth } types formula = .error (.check e) := by
  refine ⟨?_, ?_, ?_⟩
  · cases h : (ParserState.start (tokens formula) maxDepth).parsePrefix with
    | mk outcome s =>
      cases outcome with
      | ok t => exact check_front functions types h
      | error e => exact check_no_front functions types h
  · intro type h
    obtain ⟨t, hread, -⟩ := except_bind_eq_ok.mp h
    exact (check_leniently functions types hread).trans h
  · intro e h
    rcases except_bind_eq_error.mp h with hread | ⟨t, hread, -⟩
    · exact absurd hread (Options.read_ne_check e)
    · exact (check_leniently functions types hread).trans h

end Formula
