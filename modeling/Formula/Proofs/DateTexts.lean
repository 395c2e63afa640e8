import Formula.Proofs.Digits
import Formula.Proofs.Documents
import Formula.Proofs.Instants
import Formula.Run
import Formula.Value.Json

/-!
The text of a date is a formula for the date.

* `number_padded`, `dateOf_written`, `timeOf_written`, `fractionOf_written`: each part of the text is
  read back where it is written;
* `ofText?_text`: hence so is the moment, in milliseconds;
* `scan_text`: the lexer finds one date literal in the text;
* `date_text_reads_back`: so that the text is a formula with the value of the date, and stands for
  the date wherever a function takes one.
-/

namespace Formula

open Formula.Text

theorem Text.isAnyDigit_of_isDigit {c : Char} (h : isDigit c = true) : isAnyDigit c = true := by
  simp only [isDigit, Bool.and_eq_true, decide_eq_true_eq] at h
  refine List.any_eq_true.mpr ⟨(0x30, 0x39), .head _, ?_⟩
  simp only [Bool.and_eq_true, decide_eq_true_eq]
  exact ⟨UInt32.le_iff_toNat_le.mp h.1, UInt32.le_iff_toNat_le.mp h.2⟩

theorem Text.trimChars_of_not_blank {cs : List Char} (h : ∀ c ∈ cs, isBlank c = false) :
    trimChars cs = cs := by
  have hkept {ds : List Char} (h : ∀ c ∈ ds, isBlank c = false) : dropBlank ds = ds := by
    rw [dropBlank, List.dropWhile_eq_self_iff]
    intro hpos
    simp [h _ (List.getElem_mem hpos)]
  rw [trimChars, hkept h, hkept (fun c hc => h c (List.mem_reverse.mp hc)), List.reverse_reverse]

namespace Calendar

/-! ## The parts -/

theorem number_padded (width : Nat) {n : Nat} (hw : 0 < width) (h : n < 10 ^ width)
    (rest : List Char) :
    number width width (padded width n ++ rest) = some (n, rest) := by
  have hlength := length_padded hw h
  have htake : ((padded width n ++ rest).take width).takeWhile isDigit = padded width n := by
    rw [List.take_left' hlength, List.takeWhile_eq_self_iff]
    exact isDigit_of_mem_padded
  simp only [number, htake, hlength, lt_irrefl, ↓reduceIte, digitsValue_padded,
    List.drop_left' hlength]

def dateChars (d : Date) : List Char :=
  yearText d.year ++ '-' :: (padded 2 d.month ++ '-' :: padded 2 d.day)

def timeChars (h m s ms : Nat) : List Char :=
  padded 2 h ++ ':' :: (padded 2 m ++ ':' :: (padded 2 s ++ '.' :: padded 3 ms))

theorem yearText_eq {y : Int} (hlow : 0 ≤ y) (hhigh : y ≤ 9999) : yearText y = padded 4 y.toNat := by
  rw [yearText, if_neg (not_lt.mpr hlow), if_pos hhigh]

/-- A date that exists is read back. -/
theorem dateOf_written {d : Date} (hd : d.Valid) (hlow : 0 ≤ d.year) (hhigh : d.year ≤ 9999)
    (rest : List Char) :
    dateOf (fun cs => (number 4 4 cs).map fun (n, r) => ((n : Int), r)) (number 2 2)
      (dateChars d ++ rest) = some (d, rest) := by
  obtain ⟨-, hmonth, -, hday⟩ := id hd
  have hday : d.day ≤ 31 := hday.trans (monthLength_le _ _)
  have hyear : (d.year.toNat : Int) = d.year := Int.toNat_of_nonneg hlow
  simp only [dateChars, yearText_eq hlow hhigh, List.append_assoc, List.cons_append, dateOf,
    number_padded 4 (by decide) (show d.year.toNat < 10 ^ 4 by omega),
    number_padded 2 (by decide) (show d.month < 10 ^ 2 by omega),
    number_padded 2 (by decide) (show d.day < 10 ^ 2 by omega), Option.map_some, literal,
    ↓reduceIte, Option.bind_eq_bind, Option.bind_some, hyear]
  exact if_pos hd

/-- A time of day is read back, 60 as the leap second behind 59. -/
theorem timeOf_written {h m s : Nat} (hh : h < 24) (hm : m < 60) (hs : s ≤ 60) (rest : List Char) :
    timeOf (number 2 2) (padded 2 h ++ ':' :: (padded 2 m ++ ':' :: (padded 2 s ++ rest))) =
      some ((h * 3600 + m * 60 + min s 59, decide (s = 60)), rest) := by
  simp only [timeOf, number_padded 2 (by decide) (show h < 10 ^ 2 by omega),
    number_padded 2 (by decide) (show m < 10 ^ 2 by omega),
    number_padded 2 (by decide) (show s < 10 ^ 2 by omega), literal, ↓reduceIte,
    Option.bind_eq_bind, Option.bind_some]
  exact if_pos ⟨hh, hm, hs⟩

/-- Milliseconds are read back. -/
theorem fractionOf_written {ms : Nat} (h : ms < 1000) {rest : List Char}
    (hr : Lexer.Stops isDigit rest) :
    fractionOf ('.' :: (padded 3 ms ++ rest)) = some (ms * 1000000, rest) := by
  have hlength : (padded 3 ms).length = 3 := length_padded (by decide) h
  have hdigits : (padded 3 ms ++ rest).takeWhile isDigit = padded 3 ms :=
    Lexer.takeWhile_stops isDigit_of_mem_padded hr
  have hkept : (padded 3 ms).take 9 = padded 3 ms := List.take_of_length_le (by omega)
  have hne : padded 3 ms ≠ [] := List.ne_nil_of_length_pos (by omega)
  simp only [fractionOf, hdigits, hkept, hlength, digitsValue_padded, List.isEmpty_iff, hne,
    ↓reduceIte, List.drop_left' hlength]

/-! ## The moment -/

namespace Instant

/-- The moment in whole milliseconds, the rest cut off. -/
def inMilliseconds (t : Instant) : Instant where
  seconds := t.seconds
  nanos := t.nanos / 1000000 * 1000000
  valid := by
    obtain ⟨hlow, hhigh, hnanos, hleap⟩ := t.valid
    exact ⟨hlow, hhigh, by omega, fun h => hleap (by omega)⟩

/-- The second as it is printed: 60 in a leap second. -/
def printedSecond (t : Instant) : Nat := t.secondOfMinute + if t.inLeapSecond then 1 else 0

def printedMilliseconds (t : Instant) : Nat := t.nanos % second / 1000000

/-- The text is date and time with the letters between and behind them. -/
theorem chars_eq (t : Instant) :
    t.chars = dateChars t.date ++
      'T' :: (timeChars t.hour t.minute t.printedSecond t.printedMilliseconds ++ ['Z']) := by
  simp only [chars, dateChars, timeChars, printedSecond, printedMilliseconds, List.append_assoc,
    List.cons_append]

/-- A leap second follows the last second of a minute. -/
theorem secondOfMinute_of_leap {t : Instant} (h : t.inLeapSecond = true) :
    t.secondOfMinute = 59 := by
  have hlast := t.valid.2.2.2 (by simpa [inLeapSecond] using h)
  unfold secondOfMinute secondOfDay
  omega

theorem secondOfMinute_lt (t : Instant) : t.secondOfMinute < 60 := Nat.mod_lt _ (by decide)

/-- The printed second and milliseconds tell the second and the nanoseconds. -/
theorem printed_eq (t : Instant) :
    t.printedSecond ≤ 60 ∧ min t.printedSecond 59 = t.secondOfMinute ∧
      (if t.printedSecond = 60 then t.printedMilliseconds * 1000000 + second
        else t.printedMilliseconds * 1000000) = t.inMilliseconds.nanos := by
  have hlt := t.secondOfMinute_lt
  have hnanos := t.valid.2.2.1
  have hunit : second = 1000000000 := rfl
  have hms : t.printedMilliseconds = t.nanos % 1000000000 / 1000000 := rfl
  have hcut : t.inMilliseconds.nanos = t.nanos / 1000000 * 1000000 := rfl
  rw [hms, hcut]
  unfold printedSecond
  cases hleap : t.inLeapSecond with
  | true =>
    have hlast := secondOfMinute_of_leap hleap
    have hge : second ≤ t.nanos := by simpa [inLeapSecond] using hleap
    simp only [hlast, ↓reduceIte]
    refine ⟨le_rfl, rfl, by omega⟩
  | false =>
    have hless : t.nanos < second := by simpa [inLeapSecond] using hleap
    have hne : t.secondOfMinute ≠ 60 := by omega
    simp only [Bool.false_eq_true, ↓reduceIte, Nat.add_zero, hne]
    refine ⟨by omega, by omega, by omega⟩

/-- The text of a moment is in the internet form. -/
theorem internet?_chars {t : Instant} (hlow : 0 ≤ t.date.year) (hhigh : t.date.year ≤ 9999) :
    internet? t.chars = some t.inMilliseconds := by
  obtain ⟨hsecond, hmin, hnanos⟩ := t.printed_eq
  have hhour : t.hour < 24 := by
    have := t.secondOfDay_lt
    unfold hour
    omega
  have hminute : t.minute < 60 := Nat.mod_lt _ (by decide)
  have hms : t.printedMilliseconds < 1000 := by
    rw [show t.printedMilliseconds = t.nanos % 1000000000 / 1000000 from rfl]
    omega
  have hZ : Lexer.Stops isDigit ['Z'] := by
    rintro c ds ⟨⟩
    decide
  have hparts := t.secondOfDay_parts
  have hseconds := t.seconds_parts
  have hzone : zoneOf ['Z'] = some (0, []) := rfl
  rw [chars_eq, internet?]
  simp only [dateOf_written t.date_valid hlow hhigh, timeChars, List.append_assoc, List.cons_append,
    timeOf_written hhour hminute hsecond, fractionOf_written hms hZ, hzone, hmin,
    Option.bind_eq_bind, Option.bind_some, true_or, ↓reduceIte, List.isEmpty_nil, momentOf,
    decide_eq_true_eq, hnanos, toDay_date]
  refine mk?_eq_some_iff.mpr ⟨?_, rfl⟩
  show t.seconds = _
  omega

/-- The text is one of the texts of a date literal. -/
theorem chars_language {t : Instant} (hlow : 0 ≤ t.date.year) (hhigh : t.date.year ≤ 9999) :
    LiteralKind.date.Language t.chars := by
  have hdigit {width n : Nat} (c : Char) (hc : c ∈ padded width n) : isAnyDigit c = true :=
    isAnyDigit_of_isDigit (isDigit_of_mem_padded c hc)
  have hday {width n : Nat} : ∀ c ∈ padded width n, Lexer.inDay c = true := fun c hc => by
    simp only [Lexer.inDay, hdigit c hc, Bool.true_or]
  have htime {width n : Nat} : ∀ c ∈ padded width n, Lexer.inTime c = true := fun c hc => by
    simp only [Lexer.inTime, hdigit c hc, Bool.true_or]
  refine ⟨dateChars t.date, timeChars t.hour t.minute t.printedSecond t.printedMilliseconds,
    by simp [dateChars], ?_, by simp [timeChars], ?_, t.chars_eq⟩
  · simp only [dateChars, yearText_eq hlow hhigh, List.forall_mem_append, List.forall_mem_cons]
    exact ⟨hday, rfl, hday, rfl, hday⟩
  · simp only [timeChars, List.forall_mem_append, List.forall_mem_cons]
    exact ⟨htime, rfl, htime, rfl, htime, rfl, htime⟩

/-- It begins with a digit. -/
theorem exists_chars_cons {t : Instant} (hlow : 0 ≤ t.date.year) (hhigh : t.date.year ≤ 9999) :
    ∃ c cs, t.chars = c :: cs ∧ isDigit c = true := by
  have hlength : (padded 4 t.date.year.toNat).length = 4 :=
    length_padded (by decide) (by omega)
  rw [chars_eq, dateChars, yearText_eq hlow hhigh]
  cases hyear : padded 4 t.date.year.toNat with
  | nil =>
    rw [hyear] at hlength
    cases hlength
  | cons c cs =>
    have hmem : c ∈ padded 4 t.date.year.toNat := by
      rw [hyear]
      exact .head _
    exact ⟨c, _, rfl, isDigit_of_mem_padded c hmem⟩

/-- The text of a moment is read back as the moment in milliseconds. -/
theorem ofText?_text {t : Instant} (hlow : 0 ≤ t.date.year) (hhigh : t.date.year ≤ 9999) :
    ofText? t.text = some t.inMilliseconds := by
  have hlanguage : TokenKind.Language (.literal .date) t.chars := chars_language hlow hhigh
  have hblank : ∀ c ∈ t.chars, isBlank c = false := Lexer.language_not_blank hlanguage nofun
  rw [ofText?, text, String.toList_ofList, trimChars_of_not_blank hblank]
  simp only [internet?_chars hlow hhigh, Option.some_or]

end Instant

end Calendar

/-! ## The formula -/

namespace Lexer

open Calendar

/-- No fixed spelling begins with a digit. -/
theorem fixed_symbols_digit {c : Char} (h : isDigit c = true) (cs : List Char) :
    fixed symbols (c :: cs) = none := by
  have hother : ∀ e ∈ symbols, e.1.toList.head?.any (!isDigit ·) = true := by decide
  rw [fixed, Option.map_eq_none_iff, List.find?_eq_none]
  intro e he hprefix
  have hhead := hother e he
  cases hspelling : e.1.toList with
  | nil =>
    rw [hspelling] at hhead
    cases hhead
  | cons d ds =>
    rw [hspelling, List.isPrefixOf_cons_cons, Bool.and_eq_true, beq_iff_eq] at hprefix
    rw [hspelling, hprefix.1] at hhead
    simp [h] at hhead

/-- The lexer finds one date literal in the text of a date. -/
theorem scan_text {t : Instant} (hlow : 0 ≤ t.date.year) (hhigh : t.date.year ≤ 9999) :
    scan t.text = [.token ⟨.literal .date, t.text, 0⟩] := by
  have hdate := date_found (t.chars_language hlow hhigh) []
  obtain ⟨c, cs, hchars, hdigit⟩ := t.exists_chars_cons hlow hhigh
  rw [hchars] at hdate
  have htoken : token (c :: cs ++ []) = some (.literal .date, (c :: cs).length) := by
    rw [token, hdate, List.cons_append, fixed_symbols_digit hdigit, Option.none_or, Option.some_or]
  rw [scan, Instant.text, String.toList_ofList, hchars]
  conv_lhs => rw [← List.append_nil (c :: cs)]
  rw [scanFrom_token 0 (not_blank_of_isDigit hdigit) htoken]
  rfl

theorem tokens_text {t : Instant} (hlow : 0 ≤ t.date.year) (hhigh : t.date.year ≤ 9999) :
    tokens t.text = [⟨.literal .date, t.text, 0⟩] ∧ lexErrors t.text = [] := by
  rw [tokens, lexErrors, scan_text hlow hhigh]
  exact ⟨rfl, rfl⟩

end Lexer

/-- A literal alone is a formula, unless no operand may nest at all. -/
theorem parse_literal {maxDepth : Option Nat} (hdepth : maxDepth ≠ some 0) {t : Token}
    {kind : LiteralKind} (h : t.kind = .literal kind) : parse maxDepth [t] = .ok (.literal t) := by
  obtain ⟨k, text, offset⟩ := t
  obtain rfl : k = .literal kind := h
  cases maxDepth with
  | none => rfl
  | some limit =>
    cases limit with
    | zero => exact absurd rfl hdepth
    | succ limit => rfl

open Calendar in
/-- The text of a date is a formula that has the date as its value. -/
theorem eval_text {t : Instant} (hlow : 0 ≤ t.date.year) (hhigh : t.date.year ≤ 9999)
    (functions : Registry Body) {options : Options} (vars : Value)
    (hlength : options.excess? t.text = none) (hdepth : options.maxDepth ≠ some 0) :
    eval functions options vars t.text = .ok (.date t.inMilliseconds) := by
  obtain ⟨htokens, herrors⟩ := Lexer.tokens_text hlow hhigh
  have hexcess : options.strictly.excess? t.text = none := hlength
  have hread : options.strictly.read t.text = .ok (.literal ⟨.literal .date, t.text, 0⟩) := by
    rw [Options.read, hexcess, herrors, htokens]
    show (parse options.maxDepth _).mapError _ = _
    rw [parse_literal hdepth rfl]
    rfl
  have hvalue : Eval.literal ⟨.literal .date, t.text, 0⟩ = .date t.inMilliseconds := by
    rw [Eval.literal, Instant.ofText?_text hlow hhigh]
  rw [eval, hread]
  show ((Term.literal _).eval functions vars).mapError FormulaError.eval = _
  rw [Term.eval, Term.evalIn, hvalue]
  rfl

/-! ## The functions of dates -/

namespace Library

open Calendar

/-- A value that stands for a moment is taken as the moment. -/
theorem dateArgument_eq {v : Value} {t : Instant} (h : toInstant? v = some t)
    (front args : List Value) : dateArgument (front ++ v :: args) front.length = .ok t := by
  have hargument : argument (front ++ v :: args) front.length = v := by
    rw [argument, List.getElem?_append_right le_rfl, Nat.sub_self]
    rfl
  rw [dateArgument, hargument, h]

/-- The functions of dates take the first argument for the moment that it stands for, `DATE` when it
has no other. -/
theorem dates_first {v w : Value} {t : Instant} (hv : toInstant? v = some t)
    (hw : toInstant? w = some t) {f : Function} (hf : f ∈ dates) {args : List Value}
    (hargs : f.name = "DATE" → args = []) : f.body (v :: args) = f.body (w :: args) := by
  have hv0 : dateArgument (v :: args) 0 = .ok t := dateArgument_eq hv [] args
  have hw0 : dateArgument (w :: args) 0 = .ok t := dateArgument_eq hw [] args
  have hcomponent (g : Instant → Int) : component g (v :: args) = component g (w :: args) := by
    rw [component, component, hv0, hw0]
  simp only [dates, List.mem_cons, List.not_mem_nil, or_false] at hf
  rcases hf with rfl | rfl | rfl | rfl | rfl | rfl | rfl | rfl | rfl | rfl | rfl | rfl | rfl
  · obtain rfl := hargs rfl
    show (dateArgument [v] 0).map Value.date = (dateArgument [w] 0).map Value.date
    rw [hv0, hw0]
  · exact hcomponent _
  · exact hcomponent _
  · exact hcomponent _
  · exact hcomponent _
  · exact hcomponent _
  · exact hcomponent _
  · show days (v :: args) = days (w :: args)
    simp only [days, hv0, hw0]
    rfl
  · show dateDifference (v :: args) = dateDifference (w :: args)
    simp only [dateDifference, hv0, hw0]
    rfl
  · show dateDelta (v :: args) = dateDelta (w :: args)
    simp only [dateDelta, hv0, hw0]
    rfl
  · exact hcomponent _
  · exact hcomponent _
  · exact hcomponent _

/-- The functions of two dates take the second argument so as well. -/
theorem days_second {v w : Value} {t : Instant} (hv : toInstant? v = some t)
    (hw : toInstant? w = some t) (u : Value) (args : List Value) :
    days (u :: v :: args) = days (u :: w :: args) ∧
      dateDifference (u :: v :: args) = dateDifference (u :: w :: args) := by
  have hv1 : dateArgument (u :: v :: args) 1 = .ok t := dateArgument_eq hv [u] args
  have hw1 : dateArgument (u :: w :: args) 1 = .ok t := dateArgument_eq hw [u] args
  constructor
  · simp only [days, hv1, hw1]
    rfl
  · simp only [dateDifference, hv1, hw1]
    rfl

/-- The text of a date in the years 0 to 9999 is one date literal, it is a formula that has the date
in milliseconds as its value, and it denotes that date. Written as a JSON document and read again it
is a text that every function of dates takes for the date. -/
theorem date_text_reads_back {t : Instant} (hlow : 0 ≤ t.date.year) (hhigh : t.date.year ≤ 9999) :
    (tokens t.text = [⟨.literal .date, t.text, 0⟩] ∧ lexErrors t.text = []) ∧
      (∀ (functions : Registry Body) (options : Options) (vars : Value),
        options.excess? t.text = none → options.maxDepth ≠ some 0 →
        eval functions options vars t.text = .ok (.date t.inMilliseconds)) ∧
      toInstant? (.string t.text) = some t.inMilliseconds ∧
      (Json.ofText? (Value.date t).toJson.text).map Value.ofJson = some (.string t.text) ∧
      (∀ f ∈ dates, ∀ args, (f.name = "DATE" → args = []) →
        f.body (.string t.text :: args) = f.body (.date t.inMilliseconds :: args)) ∧
      ∀ v args, days (v :: .string t.text :: args) = days (v :: .date t.inMilliseconds :: args) ∧
        dateDifference (v :: .string t.text :: args) =
          dateDifference (v :: .date t.inMilliseconds :: args) := by
  have htext : toInstant? (.string t.text) = some t.inMilliseconds := by
    rw [toInstant?, Instant.ofText?_text hlow hhigh]
  have hdate : toInstant? (.date t.inMilliseconds) = some t.inMilliseconds := rfl
  have hjson : Json.ofText? (Json.string t.text).text = some (.string t.text) :=
    Json.ofText?_text (.string t.text)
  refine ⟨Lexer.tokens_text hlow hhigh, ?_, htext, ?_, ?_, ?_⟩
  · intro functions options vars hlength hdepth
    exact eval_text hlow hhigh functions vars hlength hdepth
  · show (Json.ofText? (Json.string t.text).text).map Value.ofJson = _
    rw [hjson]
    rfl
  · intro f hf args hargs
    exact dates_first htext hdate hf hargs
  · intro v args
    exact days_second htext hdate v args

/-- A leap second. -/
theorem date_text_reads_back_leap :
    (⟨1483228799, 1123456789, by decide⟩ : Instant).text = "2016-12-31T23:59:60.123Z" ∧
      eval bodies {} .undefined "2016-12-31T23:59:60.123Z" =
        .ok (.date ⟨1483228799, 1123000000, by decide⟩) ∧
      year [.string "2016-12-31T23:59:60.123Z"] =
        year [.date ⟨1483228799, 1123000000, by decide⟩] := by
  let t : Instant := ⟨1483228799, 1123456789, by decide⟩
  have htext : t.text = "2016-12-31T23:59:60.123Z" := by decide +kernel
  obtain ⟨-, heval, -, -, hfirst, -⟩ :=
    date_text_reads_back (t := t) (by decide +kernel) (by decide +kernel)
  have hcut : t.inMilliseconds = ⟨1483228799, 1123000000, by decide⟩ := by decide
  have hyear : part "YEAR" year ∈ dates := by simp [dates]
  rw [htext, hcut] at heval hfirst
  exact ⟨htext, heval bodies {} .undefined rfl (by decide), hfirst _ hyear [] (by decide)⟩

end Library

end Formula
